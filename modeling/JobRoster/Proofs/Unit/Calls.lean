import JobRoster.Proofs.Unit.Tree

/-!
# Calls in a unit

What the body of a unit's method parses to: one call on the registry for each job, with the type and
what is passed on, and the registry in the end.
-/

namespace JobRoster

open Syntax Syntax.Parser Text

variable {depth line close : Nat} {stray : Option Nat} {tokens rest : List Token}

/-! ## Arguments -/

/-- Whether an expression in a list ends before these tokens. -/
def EndsArgument (tokens : List Token) : Prop :=
  tokens = [] ∨ ∃ joint line after, tokens = .punct ',' joint line :: after

theorem parseExpr_literal (value : String) (line close : Nat) (hrest : EndsArgument rest) :
    Grammar.nested (depth + 1) (.expr true) ⟨.literal (.str value) line :: rest, close, none⟩ =
      .ok (.literal (.str value), ⟨rest, close, none⟩) := by
  obtain rfl | ⟨joint, comma, after, rfl⟩ := hrest
  · rfl
  · rfl

/-- One turn of `commaList`. -/
def commaStep {α : Type} (p : Parser α) (done : List α) : Parser (List α ⊕ List α) := do
  if ← isEnd then return .inr done.reverse
  let a ← p
  if ← isEnd then return .inr (a :: done).reverse
  punct ","
  return .inl (a :: done)

def argumentsOf (values : List String) : List Expr :=
  values.map fun value => .literal (.str value)

theorem iterate_inr {σ α : Type} {step : σ → Parser (σ ⊕ α)} {state : σ} {a : α} {turns : Nat}
    {input rest : Input} (h : step state input = .ok (.inr a, rest)) :
    iterate step (turns + 1) state input = .ok (a, rest) :=
  bind_eq_ok_iff.2 ⟨.inr a, rest, h, rfl⟩

theorem iterate_inl {σ α : Type} {step : σ → Parser (σ ⊕ α)} {state state' : σ} {a : α}
    {turns : Nat} {input next rest : Input} (h : step state input = .ok (.inl state', next))
    (hmore : iterate step turns state' next = .ok (a, rest)) :
    iterate step (turns + 1) state input = .ok (a, rest) :=
  bind_eq_ok_iff.2 ⟨.inl state', next, h, hmore⟩

theorem iterate_arguments {values : List String} (h : ArgumentTokens values tokens) {turns : Nat}
    (hturns : values.length ≤ turns) (done : List Expr) (close : Nat) :
    iterate (commaStep (Grammar.nested (depth + 1) (.expr true))) (turns + 1) done
        ⟨tokens, close, none⟩ =
      .ok (done.reverse ++ argumentsOf values, ⟨[], close, none⟩) := by
  induction h generalizing turns done with
  | last value line =>
    refine iterate_inr (bind_eq_ok_iff.2 ⟨false, _, rfl, ?_⟩)
    refine bind_eq_ok_iff.2 ⟨_, _, parseExpr_literal value line close (.inl rfl), ?_⟩
    simp [argumentsOf]
    rfl
  | @more values tokens value line comma joint after ih =>
    have hstep : commaStep (Grammar.nested (depth + 1) (.expr true)) done
        ⟨.literal (.str value) line :: .punct ',' joint comma :: tokens, close, none⟩ =
          .ok (.inl (.literal (.str value) :: done), ⟨tokens, close, none⟩) := by
      refine bind_eq_ok_iff.2 ⟨false, _, rfl, ?_⟩
      exact bind_eq_ok_iff.2
        ⟨_, _, parseExpr_literal value line close (.inr ⟨joint, comma, tokens, rfl⟩), rfl⟩
    obtain ⟨turns, rfl⟩ : ∃ n, turns = n + 1 := ⟨turns - 1, by simp at hturns; omega⟩
    refine iterate_inl hstep ?_
    simpa [argumentsOf] using ih (Nat.le_of_succ_le_succ hturns) (.literal (.str value) :: done)

theorem length_le_of_argumentTokens {values : List String} (h : ArgumentTokens values tokens) :
    values.length ≤ tokens.length := by
  induction h with
  | last => exact Nat.le_refl _
  | more value line comma joint after ih =>
    simp only [List.length_cons]
    omega

theorem commaList_arguments {values : List String} (h : ArgumentTokens values tokens) (close : Nat) :
    commaList (Grammar.nested (depth + 1) (.expr true)) ⟨tokens, close, none⟩ =
      .ok (argumentsOf values, ⟨[], close, none⟩) := by
  have hturns : values.length ≤ tokens.length + 1 :=
    Nat.le_succ_of_le (length_le_of_argumentTokens h)
  exact iterate_arguments h hturns [] close

/-! ## Calls -/

def selfPath : Path :=
  ⟨false, [⟨selfIdent, .none⟩]⟩

/-- The registry inside of the method. -/
def selfExpr : Syntax.Expr :=
  .path false selfPath

/-- The call of a method on the registry. -/
def callOf (method : Ident) (values : List String) : Syntax.Expr :=
  .methodCall selfExpr method (argumentsOf values)

theorem parseAfterPoint_call {method : Ident} {values : List String} {path arguments : List Token}
    {below : List PathSegment} (hmethod : Ahead.reserved.contains method.text = false)
    (hpath : SegmentTokens path below)
    (hnames : ∀ segment ∈ below, Ahead.reserved.contains segment.ident.text = false)
    (harguments : ArgumentTokens values arguments) (object : Expr) (name line inside close : Nat)
    (rest : List Token) :
    Expr.parseAfterPoint (Grammar.nested (depth + 2)) object
      ⟨.ident method name :: .punct ':' true line :: .punct ':' true line ::
          .punct '<' false line :: .ident crateIdent line :: (path ++ .punct '>' false line ::
            .group .paren arguments line inside :: rest), close, none⟩ =
      .ok (.methodCall object method (argumentsOf values), ⟨rest, close, none⟩) := by
  have hangled := @parseAngled_crate depth _ _ hpath hnames line close
    (.group .paren arguments line inside :: rest)
  have hlist := @commaList_arguments (depth + 1) _ _ harguments inside
  -- `await` is reserved, so the method is not taken for it
  have hnot : Ahead.word "await" [.ident method name] = false := by
    refine decide_eq_false fun heq => ?_
    rw [heq] at hmethod
    exact absurd hmethod (by decide)
  have hident : Ahead.ident [.ident method name] = true := by simpa [Ahead.ident] using hmethod
  have hargs : inGroup .paren (commaList (Grammar.nested (depth + 2) (.expr true)))
      ⟨.group .paren arguments line inside :: rest, close, none⟩ =
        .ok (argumentsOf values, ⟨rest, close, none⟩) := inGroup_cons hlist
  unfold Expr.parseAfterPoint
  refine bind_eq_ok_iff.2 ⟨false, _, word?_eq_false hnot, ?_⟩
  refine bind_eq_ok_iff.2 ⟨_, _, rfl, ?_⟩
  dsimp only
  rw [if_pos (by exact hident)]
  refine bind_eq_ok_iff.2 ⟨method, _, takeIdent_cons hmethod _ _ _ _, ?_⟩
  refine bind_eq_ok_iff.2 ⟨_, _, rfl, ?_⟩
  refine bind_eq_ok_iff.2 ⟨(), _, rfl, ?_⟩
  refine bind_eq_ok_iff.2 ⟨(), _, hangled, ?_⟩
  refine bind_eq_ok_iff.2 ⟨_, _, rfl, ?_⟩
  exact bind_eq_ok_iff.2 ⟨_, _, hargs, rfl⟩

/-- Whether an expression that is a statement ends before these tokens. -/
def EndsStatement (tokens : List Token) : Prop :=
  tokens = [] ∨ ∃ joint line after, tokens = .punct ';' joint line :: after

theorem parseTrailers_call {more : List Token} {method : Ident} {values : List String}
    (object : Expr) (hobject : object.isRange = false)
    (hcall : Expr.parseAfterPoint (Grammar.nested (depth + 2)) object
      ⟨.ident method line :: more, close, none⟩ =
        .ok (.methodCall object method (argumentsOf values), ⟨rest, close, none⟩))
    (joint : Bool) (start : Nat) (hrest : EndsStatement rest) :
    Expr.parseTrailers (Grammar.nested (depth + 2)) object
      ⟨.punct '.' joint start :: .ident method line :: more, close, none⟩ =
        .ok (.methodCall object method (argumentsOf values), ⟨rest, close, none⟩) := by
  unfold Expr.parseTrailers
  refine bind_eq_ok_iff.2 ⟨_, _, rfl, ?_⟩
  -- the call is one turn, and in the next nothing trails it
  refine @iterate_inl _ _ _ _ (.methodCall object method (argumentsOf values)) _ _ _
    ⟨rest, close, none⟩ _ ?_ ?_
  · refine bind_eq_ok_iff.2 ⟨_, _, rfl, ?_⟩
    dsimp only
    rw [if_neg (by exact Bool.false_ne_true), if_neg (by exact Bool.false_ne_true), hobject]
    rw [if_pos (by cases joint <;> rfl)]
    refine bind_eq_ok_iff.2 ⟨(), _, rfl, ?_⟩
    refine bind_eq_ok_iff.2 ⟨_, _, rfl, ?_⟩
    dsimp only
    exact bind_eq_ok_iff.2 ⟨_, _, hcall, rfl⟩
  · obtain rfl | ⟨joint, line, after, rfl⟩ := hrest
    · rfl
    · rfl

/-! ## Statements -/

theorem parseUnary_self {e : Expr} {start : Nat} (hrange : e.isRange = false)
    (hnot : Ahead.punct "!" tokens = false) (hseparator : Ahead.punct "::" tokens = false)
    (hbrace : Ahead.group .brace tokens = false)
    (htrailers : Expr.parseTrailers (Grammar.nested depth) selfExpr
      ⟨tokens, close, none⟩ = .ok (e, ⟨rest, close, none⟩)) :
    Expr.parseUnary (Grammar.nested depth) true ⟨.ident selfIdent start :: tokens, close, none⟩ =
      .ok (e, ⟨rest, close, none⟩) := by
  have hpath : Path.parse (Grammar.nested depth) true
      ⟨.ident selfIdent start :: tokens, close, none⟩ =
        .ok (selfPath, ⟨tokens, close, none⟩) := by
    refine bind_eq_ok_iff.2 ⟨false, _, rfl, ?_⟩
    refine bind_eq_ok_iff.2 ⟨⟨selfIdent, .none⟩, _, rfl, ?_⟩
    refine bind_eq_ok_iff.2 ⟨[], ⟨tokens, close, none⟩, manyWhile_of_many (.stop ?_) (by simp), rfl⟩
    simp [hseparator]
  have hatom : Expr.parseAtom (Grammar.nested depth) true
      ⟨.ident selfIdent start :: tokens, close, none⟩ =
        .ok (selfExpr, ⟨tokens, close, none⟩) := by
    -- a word that is no other operand starts a path
    have hbranch : Expr.parseAtom (Grammar.nested depth) true
        ⟨.ident selfIdent start :: tokens, close, none⟩ =
          Expr.parseNamed (Grammar.nested depth) true
            ⟨.ident selfIdent start :: tokens, close, none⟩ := rfl
    rw [hbranch]
    unfold Expr.parseNamed
    refine bind_eq_ok_iff.2 ⟨(false, selfPath), ⟨tokens, close, none⟩, ?_, ?_⟩
    · refine bind_eq_ok_iff.2 ⟨false, _, rfl, ?_⟩
      exact bind_eq_ok_iff.2 ⟨_, _, hpath, rfl⟩
    · dsimp only
      simp [look_bind, hnot, hbrace, pure_apply, selfExpr]
  unfold Expr.parseUnary
  refine bind_eq_ok_iff.2 ⟨[], _, rfl, ?_⟩
  refine bind_eq_ok_iff.2 ⟨_, _, rfl, ?_⟩
  refine bind_eq_ok_iff.2 ⟨false, _, rfl, ?_⟩
  refine bind_eq_ok_iff.2 ⟨_, _, rfl, ?_⟩
  refine bind_eq_ok_iff.2 ⟨_, _, hatom, ?_⟩
  refine bind_eq_ok_iff.2 ⟨_, _, htrailers, ?_⟩
  simp [hrange, pure_apply]

theorem parseOperators_end {g : Grammar} {left : Expr} (hrange : left.isRange = false)
    (hrest : EndsStatement rest) (close : Nat) :
    Expr.parseOperators g left true .jump ⟨rest, close, none⟩ =
      .ok (left, ⟨rest, close, none⟩) := by
  refine loop_inr ?_
  rw [hrange]
  obtain rfl | ⟨joint, line, after, rfl⟩ := hrest
  · rfl
  · cases joint <;> rfl

theorem macroForm_self {start : Nat} (hseparator : Ahead.punct "::" tokens = false)
    (hnot : Ahead.punct "!" tokens = false) (close : Nat) :
    Stmt.macroForm ⟨.ident selfIdent start :: tokens, close, none⟩ =
      .ok (.other, ⟨.ident selfIdent start :: tokens, close, none⟩) := by
  have hplain : Path.parsePlain ⟨.ident selfIdent start :: tokens, close, none⟩ =
      .ok (selfPath, ⟨tokens, close, none⟩) := by
    refine bind_eq_ok_iff.2 ⟨false, _, rfl, ?_⟩
    refine bind_eq_ok_iff.2 ⟨[⟨selfIdent, .none⟩], ⟨tokens, close, none⟩, loop_inr ?_, rfl⟩
    refine bind_eq_ok_iff.2 ⟨_, _, rfl, ?_⟩
    refine bind_eq_ok_iff.2 ⟨selfIdent, ⟨tokens, close, none⟩, rfl, ?_⟩
    exact bind_eq_ok_iff.2 ⟨false, _, punct?_eq_false hseparator, rfl⟩
  have hahead : lookAhead (attempt do return (← Path.parsePlain, ← look))
      ⟨.ident selfIdent start :: tokens, close, none⟩ =
        .ok (some (selfPath, tokens),
          ⟨.ident selfIdent start :: tokens, close, none⟩) := by
    simp only [lookAhead, attempt, bind_apply, hplain, look, pure_apply]
  refine bind_eq_ok_iff.2 ⟨_, _, hahead, ?_⟩
  dsimp only
  rw [hnot]
  rfl

/-- What follows the registry where it is an operand. -/
structure FollowsOperand (tokens : List Token) : Prop where
  separator : Ahead.punct "::" tokens = false
  mark : Ahead.punct "!" tokens = false
  brace : Ahead.group .brace tokens = false

/-- An expression that is neither a macro call nor ends a statement by itself. -/
structure Expr.IsPlain (e : Expr) : Prop where
  range : e.isRange = false
  block : e.isBlockLike = false
  macroCall : ∀ mac, e ≠ .macroCall mac

theorem parseEarly_self {e : Expr} {start : Nat} (he : Expr.IsPlain e)
    (hfollows : FollowsOperand tokens)
    (htrailers : Expr.parseTrailers (Grammar.nested (depth + 1))
      selfExpr ⟨tokens, close, none⟩ =
        .ok (e, ⟨rest, close, none⟩)) (hrest : EndsStatement rest) :
    Syntax.Expr.parseEarly (Grammar.nested (depth + 1))
      ⟨.ident selfIdent start :: tokens, close, none⟩ = .ok (e, ⟨rest, close, none⟩) := by
  have hunary := @parseUnary_self (depth + 1) close tokens rest e start he.range hfollows.mark
    hfollows.separator hfollows.brace htrailers
  have hoperators : Grammar.nested (depth + 1) (.operators e true .jump) ⟨rest, close, none⟩ =
      .ok (e, ⟨rest, close, none⟩) := parseOperators_end he.range hrest close
  have hatom : Syntax.Expr.parseEarlyAtom (Grammar.nested (depth + 1))
      ⟨.ident selfIdent start :: tokens, close, none⟩ = .ok (e, ⟨rest, close, none⟩) := hunary
  refine bind_eq_ok_iff.2 ⟨[], _, rfl, ?_⟩
  refine bind_eq_ok_iff.2 ⟨e, _, hatom, ?_⟩
  refine bind_eq_ok_iff.2 ⟨_, _, rfl, ?_⟩
  rw [he.block]
  exact hoperators

theorem parseStmt_self {e : Expr} {start : Nat} {after : List Token} {semicolon : Bool}
    (he : Expr.IsPlain e) (hfollows : FollowsOperand tokens)
    (htrailers : Expr.parseTrailers (Grammar.nested (depth + 1))
      selfExpr ⟨tokens, close, none⟩ =
        .ok (e, ⟨rest, close, none⟩)) (hrest : EndsStatement rest)
    (hend : punct? ";" ⟨rest, close, none⟩ = .ok (semicolon, ⟨after, close, none⟩)) :
    Stmt.parse (Grammar.nested (depth + 1)) ⟨.ident selfIdent start :: tokens, close, none⟩ =
      .ok (.expr e semicolon, ⟨after, close, none⟩) := by
  have hearly := @parseEarly_self depth close tokens rest e start he hfollows htrailers hrest
  have hexpr : Stmt.parseExpr (Grammar.nested (depth + 1))
      ⟨.ident selfIdent start :: tokens, close, none⟩ =
        .ok (.expr e semicolon, ⟨after, close, none⟩) := by
    refine bind_eq_ok_iff.2 ⟨e, _, hearly, ?_⟩
    refine bind_eq_ok_iff.2 ⟨semicolon, _, hend, ?_⟩
    cases e with
    | macroCall mac => exact absurd rfl (he.macroCall mac)
    | _ => rfl
  refine bind_eq_ok_iff.2 ⟨[], _, rfl, ?_⟩
  refine bind_eq_ok_iff.2 ⟨_, _, rfl, ?_⟩
  refine bind_eq_ok_iff.2 ⟨_, _, macroForm_self hfollows.separator hfollows.mark close, ?_⟩
  exact hexpr

theorem parseStmt_call {method : Ident} {values : List String}
    (hmethod : Ahead.reserved.contains method.text = false) (h : CallTokens method values tokens)
    (rest : List Token) (close : Nat) :
    Stmt.parse (Grammar.nested (depth + 2)) ⟨tokens ++ rest, close, none⟩ =
      .ok (.expr (callOf method values) true, ⟨rest, close, none⟩) := by
  cases h with
  | @intro path arguments below start name line inside joint hpath hnames harguments =>
    have hpoint := @parseAfterPoint_call depth _ _ _ _ _ hmethod hpath hnames harguments selfExpr
      name line inside close (.punct ';' false inside :: rest)
    have htrailers := parseTrailers_call selfExpr rfl hpoint joint start (.inr ⟨_, _, _, rfl⟩)
    have hplain : Expr.IsPlain (callOf method values) := ⟨rfl, rfl, nofun⟩
    have hstmt := @parseStmt_self (depth + 1) close _ _ _ start rest true hplain ⟨rfl, rfl, rfl⟩
      htrailers (.inr ⟨_, _, _, rfl⟩) rfl
    simpa using hstmt

theorem isEmpty_call {method : Ident} {values : List String} (h : CallTokens method values tokens)
    (rest : List Token) :
    (tokens ++ rest).isEmpty = false ∧ Ahead.punct ";" (tokens ++ rest) = false := by
  cases h
  exact ⟨rfl, rfl⟩

theorem isEmpty_body {method : Ident} {calls : List (List String)} (h : BodyTokens method calls tokens) :
    tokens.isEmpty = false := by
  cases h with
  | last => rfl
  | call hcall => exact (isEmpty_call hcall _).1

/-- One turn of the statements of a block. -/
def statementStep (g : Grammar) (done : List Stmt) : Parser (List Stmt ⊕ List Stmt) := do
  if ← punct? ";" then return .inl done
  if ← isEnd then return .inr done.reverse
  let stmt ← Stmt.parse g
  if ← isEnd then return .inr (stmt :: done).reverse
  if stmt.mustBeLast then
    fail "unexpected token, expected `;`"
  return .inl (stmt :: done)

/-- The calls for some jobs, and the registry in the end. -/
def bodyOf (method : Ident) (calls : List (List String)) : List Stmt :=
  calls.map (fun values => .expr (callOf method values) true) ++ [.expr selfExpr false]

theorem iterate_body {method : Ident} {calls : List (List String)}
    (hmethod : Ahead.reserved.contains method.text = false) (h : BodyTokens method calls tokens)
    {turns : Nat} (hturns : calls.length ≤ turns) (done : List Stmt) (close : Nat) :
    iterate (statementStep (Grammar.nested (depth + 2))) (turns + 1) done ⟨tokens, close, none⟩ =
      .ok (done.reverse ++ bodyOf method calls, ⟨[], close, none⟩) := by
  induction h generalizing turns done with
  | last line =>
    have htrailers : Expr.parseTrailers (Grammar.nested (depth + 2)) selfExpr ⟨[], close, none⟩ =
      .ok (selfExpr, ⟨[], close, none⟩) := rfl
    have hplain : Expr.IsPlain selfExpr := ⟨rfl, rfl, nofun⟩
    have hstmt := @parseStmt_self (depth + 1) close [] [] selfExpr line [] false hplain
      ⟨rfl, rfl, rfl⟩ htrailers (.inl rfl) rfl
    refine iterate_inr (bind_eq_ok_iff.2 ⟨false, _, rfl, ?_⟩)
    refine bind_eq_ok_iff.2 ⟨false, _, rfl, ?_⟩
    refine bind_eq_ok_iff.2 ⟨_, _, hstmt, ?_⟩
    simp [bodyOf]
    rfl
  | @call values calls tokens more hcall after ih =>
    obtain ⟨turns, rfl⟩ : ∃ n, turns = n + 1 := ⟨turns - 1, by simp at hturns; omega⟩
    have hstmt := @parseStmt_call depth _ _ _ hmethod hcall more close
    obtain ⟨hempty, hnot⟩ := isEmpty_call hcall more
    have hstep : statementStep (Grammar.nested (depth + 2)) done ⟨tokens ++ more, close, none⟩ =
        .ok (.inl (.expr (callOf method values) true :: done), ⟨more, close, none⟩) := by
      refine bind_eq_ok_iff.2 ⟨false, _, punct?_eq_false hnot, ?_⟩
      refine bind_eq_ok_iff.2 ⟨false, _, by rw [isEnd, look_bind, hempty]; rfl, ?_⟩
      refine bind_eq_ok_iff.2 ⟨_, _, hstmt, ?_⟩
      refine bind_eq_ok_iff.2 ⟨false, _, by rw [isEnd, look_bind, isEmpty_body after]; rfl, ?_⟩
      rfl
    refine iterate_inl hstep ?_
    simpa [bodyOf] using ih (Nat.le_of_succ_le_succ hturns) (.expr (callOf method values) true :: done)

theorem length_le_of_bodyTokens {method : Ident} {calls : List (List String)}
    (h : BodyTokens method calls tokens) : calls.length ≤ tokens.length := by
  induction h with
  | last => exact Nat.zero_le _
  | call hcall after ih =>
    cases hcall
    simp only [List.length_cons, List.length_append]
    omega

theorem parseAll_body {method : Ident} {calls : List (List String)}
    (hmethod : Ahead.reserved.contains method.text = false) (h : BodyTokens method calls tokens)
    (close : Nat) :
    Stmt.parseAll (Grammar.nested (depth + 2)) ⟨tokens, close, none⟩ =
      .ok (bodyOf method calls, ⟨[], close, none⟩) := by
  have hturns : calls.length ≤ tokens.length + 1 :=
    Nat.le_succ_of_le (length_le_of_bodyTokens h)
  exact iterate_body hmethod h hturns [] close

end JobRoster
