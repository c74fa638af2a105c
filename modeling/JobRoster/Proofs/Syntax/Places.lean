import JobRoster.Proofs.Syntax.Lines
import JobRoster.Syntax.Parser

/-!
# Places for tokens

Tokens can be put on other lines, and before a group in braces. Most tests on the tokens ahead do not
notice: what stands behind is no word, no mark and no group of another kind. A test for a group in
braces, or for the end, tells the difference only where no token is left in front.
-/

namespace JobRoster.Syntax

/-! ## Places -/

/-- A group in braces: what it holds, and the lines where it opens and closes. -/
structure Braces where
  content : List Token
  start : Nat
  close : Nat

/-- A place for tokens whose lines are changed: what stands behind them, if anything does, and the
    line of the end. -/
structure Place (line : Nat → Nat) where
  behind : Option Braces
  outer : Nat

namespace Place

variable {line : Nat → Nat} {place : Place line} {tokens : List Token}

/-- The place between the delimiters of a group. -/
def inside (close : Nat) : Place line :=
  ⟨none, close⟩

/-- The tokens in their place. -/
def move (place : Place line) (tokens : List Token) : List Token :=
  Token.mapLines line tokens ++
    match place.behind with
    | none => []
    | some braces => [.group .brace braces.content braces.start braces.close]

@[simp] theorem move_cons (token : Token) (tokens : List Token) :
    place.move (token :: tokens) = token.mapLine line :: place.move tokens := rfl

theorem move_inside (tokens : List Token) (close : Nat) :
    (inside close : Place line).move tokens = Token.mapLines line tokens :=
  List.append_nil _

/-- Whether what stands behind is out of sight. -/
def Hidden (place : Place line) (tokens : List Token) : Prop :=
  tokens = [] → place.behind = none

theorem hidden_inside (close : Nat) (tokens : List Token) :
    (inside close : Place line).Hidden tokens :=
  fun _ => rfl

theorem hidden_of_ne_nil (h : tokens ≠ []) : place.Hidden tokens :=
  fun hempty => absurd hempty h

/-! ## Tests on the tokens ahead -/

@[simp] theorem punctChars_move (chars : List Char) (tokens : List Token) :
    Ahead.punctChars chars (place.move tokens) = Ahead.punctChars chars tokens := by
  induction chars generalizing tokens with
  | nil => rfl
  | cons c chars ih =>
    rcases tokens with _ | ⟨_ | ⟨found, joint, line⟩ | _ | _, tokens⟩
    case cons.punct =>
      cases chars with
      | nil => rfl
      | cons d chars =>
        rw [move_cons]
        simp only [Token.mapLine, Ahead.punctChars, ih]
    case nil => rcases place with ⟨_ | _, _⟩ <;> cases chars <;> rfl
    all_goals cases chars <;> rfl

@[simp] theorem punct_move (spelling : String) (tokens : List Token) :
    Ahead.punct spelling (place.move tokens) = Ahead.punct spelling tokens :=
  punctChars_move _ _

/-- What looks at the first token alone sees no group in braces. -/
theorem test_move {test : List Token → Bool} (hnil : test [] = false)
    (hbrace : ∀ content start close, test [.group .brace content start close] = false)
    (hcons : ∀ token tokens, test (place.move (token :: tokens)) = test (token :: tokens))
    (tokens : List Token) : test (place.move tokens) = test tokens := by
  cases tokens with
  | nil => rcases place with ⟨_ | _, _⟩ <;> simp [move, Token.mapLines, hnil, hbrace]
  | cons token tokens => exact hcons token tokens

@[simp] theorem word_move (spelling : String) (tokens : List Token) :
    Ahead.word spelling (place.move tokens) = Ahead.word spelling tokens :=
  test_move rfl (fun _ _ _ => rfl) (fun token _ => by cases token <;> rfl) tokens

@[simp] theorem anyWord_move (spellings : List String) (tokens : List Token) :
    Ahead.anyWord spellings (place.move tokens) = Ahead.anyWord spellings tokens := by
  simp [Ahead.anyWord]

@[simp] theorem ident_move (tokens : List Token) :
    Ahead.ident (place.move tokens) = Ahead.ident tokens :=
  test_move rfl (fun _ _ _ => rfl) (fun token _ => by cases token <;> rfl) tokens

@[simp] theorem identOrWord_move (tokens : List Token) :
    Ahead.identOrWord (place.move tokens) = Ahead.identOrWord tokens :=
  test_move rfl (fun _ _ _ => rfl) (fun token _ => by cases token <;> rfl) tokens

theorem lifetime_punct (c : Char) (joint : Bool) (line : Nat) (tokens : List Token) :
    Ahead.lifetime (.punct c joint line :: tokens) =
      (decide (c = '\'') && joint && Ahead.identOrWord tokens) := by
  by_cases hc : c = '\''
  · subst hc
    cases joint
    · rfl
    · rcases tokens with _ | ⟨_ | _, tokens⟩ <;> rfl
  · simp [Ahead.lifetime, hc]

@[simp] theorem lifetime_move (tokens : List Token) :
    Ahead.lifetime (place.move tokens) = Ahead.lifetime tokens := by
  refine test_move rfl (fun _ _ _ => rfl) (fun token tokens => ?_) tokens
  cases token with
  | punct => rw [move_cons, Token.mapLine, lifetime_punct, lifetime_punct, identOrWord_move]
  | _ => rfl

@[simp] theorem literal?_move (tokens : List Token) :
    Ahead.literal? (place.move tokens) =
      (Ahead.literal? tokens).map fun found => (found.1, place.move found.2) := by
  rcases tokens with _ | ⟨_ | ⟨c, joint, line⟩ | _ | _, tokens⟩
  case nil => rcases place with ⟨_ | _, _⟩ <;> rfl
  case cons.ident =>
    rw [move_cons, Token.mapLine, Ahead.literal?, Ahead.literal?]
    split
    · rfl
    · split <;> rfl
  case cons.punct =>
    rw [move_cons, Token.mapLine]
    by_cases hc : c = '-'
    · -- the number behind a sign is the second token
      subst hc
      rcases tokens with _ | ⟨_ | _ | literal | _, tokens⟩
      case nil => rcases place with ⟨_ | _, _⟩ <;> rfl
      case cons.literal =>
        rw [move_cons, Token.mapLine, Ahead.literal?, Ahead.literal?, Option.map_map]
        rfl
      all_goals rfl
    · simp [Ahead.literal?, hc]
  all_goals rfl

@[simp] theorem literal_move (tokens : List Token) :
    Ahead.literal (place.move tokens) = Ahead.literal tokens := by
  simp [Ahead.literal]

@[simp] theorem stringLiteral_move (tokens : List Token) :
    Ahead.stringLiteral (place.move tokens) = Ahead.stringLiteral tokens := by
  refine test_move rfl (fun _ _ _ => rfl) (fun token tokens => ?_) tokens
  rcases token with _ | _ | literal | _
  case literal => cases literal <;> rfl
  all_goals rfl

@[simp] theorem paren_move (tokens : List Token) :
    Ahead.group .paren (place.move tokens) = Ahead.group .paren tokens :=
  test_move rfl (fun _ _ _ => rfl) (fun token _ => by cases token <;> rfl) tokens

@[simp] theorem bracket_move (tokens : List Token) :
    Ahead.group .bracket (place.move tokens) = Ahead.group .bracket tokens :=
  test_move rfl (fun _ _ _ => rfl) (fun token _ => by cases token <;> rfl) tokens

theorem brace_move (h : place.Hidden tokens) :
    Ahead.group .brace (place.move tokens) = Ahead.group .brace tokens := by
  rcases tokens with _ | ⟨_ | _, tokens⟩
  case nil =>
    rw [move, h rfl]
    rfl
  all_goals rfl

theorem isEmpty_move (h : place.Hidden tokens) :
    (place.move tokens).isEmpty = tokens.isEmpty := by
  cases tokens with
  | nil =>
    rw [move, h rfl]
    rfl
  | cons => rfl

theorem skip_punct (c : Char) (joint : Bool) (line : Nat) (tokens : List Token) :
    Ahead.skip (.punct c joint line :: tokens) =
      if Ahead.lifetime (.punct c joint line :: tokens) then tokens.drop 1 else tokens := by
  rw [lifetime_punct]
  by_cases hc : c = '\''
  · subst hc
    cases joint
    · rfl
    · rcases tokens with _ | ⟨_ | _, tokens⟩ <;> rfl
  · simp [Ahead.skip, hc]

theorem skip_move (h : place.Hidden tokens) :
    Ahead.skip (place.move tokens) = place.move (Ahead.skip tokens) := by
  rcases tokens with _ | ⟨_ | _, tokens⟩
  case nil =>
    rw [move, h rfl]
    simp [move, Token.mapLines, Ahead.skip, h rfl]
  case cons.punct c joint line =>
    have hlifetime := @lifetime_move _ place (.punct c joint line :: tokens)
    rw [move_cons, Token.mapLine] at hlifetime ⊢
    rw [skip_punct, skip_punct, hlifetime]
    split
    next hone =>
      -- a lifetime is two tokens, so the second one is no token of the place
      rcases tokens with _ | ⟨_, tokens⟩
      · rw [lifetime_punct] at hone
        simp [Ahead.identOrWord] at hone
      · rfl
    · rfl
  all_goals rfl

@[simp] theorem punct_skip_move (spelling : String) (tokens : List Token) :
    Ahead.punct spelling (Ahead.skip (place.move tokens)) =
      Ahead.punct spelling (Ahead.skip tokens) := by
  cases tokens with
  | nil =>
    rcases place with ⟨_ | _, _⟩ <;> rfl
  | cons => rw [skip_move (hidden_of_ne_nil (List.cons_ne_nil _ _)), punct_move]

theorem drop_move {n : Nat} (h : n ≤ tokens.length) :
    (place.move tokens).drop n = place.move (tokens.drop n) := by
  induction n generalizing tokens with
  | zero => rfl
  | succ n ih =>
    cases tokens with
    | nil => cases h
    | cons token tokens => exact ih (Nat.le_of_succ_le_succ h)

theorem length_le_length_move (tokens : List Token) :
    tokens.length ≤ (place.move tokens).length := by
  simp [move]

/-- What sees nothing of the place sees nothing of it further on. -/
theorem test_drop_move {test : List Token → Bool}
    (h : ∀ tokens, test (place.move tokens) = test tokens) (n : Nat) (tokens : List Token) :
    test ((place.move tokens).drop n) = test (tokens.drop n) := by
  induction n generalizing tokens with
  | zero => exact h tokens
  | succ n ih =>
    cases tokens with
    | nil => rcases place with ⟨_ | _, _⟩ <;> simp [move, Token.mapLines]
    | cons token tokens => exact ih tokens

@[simp] theorem punct_drop_move (spelling : String) (n : Nat) (tokens : List Token) :
    Ahead.punct spelling ((place.move tokens).drop n) = Ahead.punct spelling (tokens.drop n) :=
  test_drop_move (punct_move spelling) n tokens

@[simp] theorem paren_drop_move (n : Nat) (tokens : List Token) :
    Ahead.group .paren ((place.move tokens).drop n) = Ahead.group .paren (tokens.drop n) :=
  test_drop_move paren_move n tokens

/-! ### Inside of a group -/

@[simp] theorem brace_inside (close : Nat) (tokens : List Token) :
    Ahead.group .brace ((inside close : Place line).move tokens) = Ahead.group .brace tokens :=
  brace_move (hidden_inside close tokens)

@[simp] theorem isEmpty_inside (close : Nat) (tokens : List Token) :
    ((inside close : Place line).move tokens).isEmpty = tokens.isEmpty :=
  isEmpty_move (hidden_inside close tokens)

@[simp] theorem skip_inside (close : Nat) (tokens : List Token) :
    Ahead.skip ((inside close : Place line).move tokens) =
      (inside close : Place line).move (Ahead.skip tokens) :=
  skip_move (hidden_inside close tokens)

@[simp] theorem drop_inside (close n : Nat) (tokens : List Token) :
    ((inside close : Place line).move tokens).drop n =
      (inside close : Place line).move (tokens.drop n) := by
  by_cases h : n ≤ tokens.length
  · exact drop_move h
  · rw [List.drop_eq_nil_of_le (by rw [move_inside, Token.length_mapLines]; omega),
      List.drop_eq_nil_of_le (by omega)]
    rfl

@[simp] theorem length_inside (close : Nat) (tokens : List Token) :
    ((inside close : Place line).move tokens).length = tokens.length := by
  rw [move_inside, Token.length_mapLines]

end Place

end JobRoster.Syntax
