import JobRoster.Proofs.Syntax.ItemRules
import JobRoster.Syntax.Source

/-!
# The grammar in another place

The rules for statements close the circle: what is read with rules nested to some depth is read in
a place with rules nested as deep or deeper. So a path that is read alone is read as a type wherever
it is put before a group in braces.
-/

namespace JobRoster.Syntax

open Syntax.Parser Place

variable {line : Nat → Nat} {close : Nat} {g g' : Grammar}

/-! ## Statements -/

namespace Expr

theorem needsSemicolon_eq (e : Expr) :
    e.needsSemicolon =
      match e.macroDelimiter? with
      | some delimiter => decide (delimiter ≠ .brace)
      | none => !e.isBlockLike := by
  cases e <;> rfl

theorem Alike.needsSemicolon {e e' : Expr} (h : e.Alike e') :
    e'.needsSemicolon = e.needsSemicolon := by
  rw [needsSemicolon_eq, needsSemicolon_eq, h.delimiter, h.blockLike]

end Expr

namespace Stmt

/-- Statements after which the same may follow. -/
def Alike (stmt stmt' : Stmt) : Prop :=
  stmt'.mustBeLast = stmt.mustBeLast

/-- The same form, with the tokens that follow in their place. -/
def MacroForm.move (place : Place line) : MacroForm → MacroForm
  | .braced path tokens => .braced path (place.move tokens)
  | .item => .item
  | .other => .other

theorem keeps_macroForm (hline : Function.HasLeftInverse line) (close : Nat) :
    (inside close : Place line).Keeps
      (fun form form' => form' = form.move (inside close : Place line)) macroForm macroForm := by
  obtain ⟨back, hback⟩ := hline
  have hpath {line : Nat → Nat} (close : Nat) : (inside close : Place line).Keeps
      (fun read read' => read.1 = read'.1 ∧ read'.2 = (inside close : Place line).move read.2)
      (do return (← Path.parsePlain, ← look)) (do return (← Path.parsePlain, ← look)) :=
    Path.keeps_parsePlain.bind fun _ => .look fun _ => .pure ⟨rfl, rfl⟩
  refine .bindUpTo
    (.lookAhead (.attempt hback (fun close => (hpath close).discard) (hpath close))) ?_
  rintro (_ | ⟨path, tokens⟩) (_ | ⟨path', tokens'⟩) hread
  case none.none => exact .pure rfl
  case some.some =>
    obtain ⟨rfl, rfl⟩ : path = path' ∧ tokens' = (inside close : Place line).move tokens := by
      cases hread with
      | some h => exact h
    simp only [punct_move, skip_inside, ident_move, word_move, brace_inside]
    exact .ite (.ite (.pure rfl) (.ite (.pure rfl) (.pure rfl))) (.pure rfl)
  all_goals cases hread

section

variable (hg : Grammar.Keeps line g g')
include hg

theorem keeps_parseBinding :
    (inside close : Place line).Keeps Alike (parseBinding g) (parseBinding g') := by
  have hend : (inside close : Place line).Keeps Alike
      (do punct ";"; return .binding) (do punct ";"; return .binding) :=
    (Keeps.punct ";").seq (.pure rfl)
  refine (Keeps.word "let").seq (hg.pattern.seq ((Keeps.punct? ":").bind fun _ => ?_))
  refine .then_seq (hg.type true) ((Keeps.punct? "=").bind fun _ => .ite ?_ hend)
  refine (hg.expr true).bindUpTo fun e e' h => ?_
  rw [h.brace]
  refine .ite hend ((Keeps.word? "else").bind fun _ => .then_seq (keeps_parseBlock hg) hend)

omit hg in
@[simp] theorem startsItem_inside (tokens : List Token) :
    startsItem ((inside close : Place line).move tokens) = startsItem tokens := by
  simp [startsItem]

omit hg in
/-- What an expression at the start of a statement is made into. -/
theorem exists_stmt (e : Expr) (semicolon : Bool) :
    ∃ stmt,
      (match e with
      | .macroCall mac =>
        if semicolon || mac.delimiter = .brace then return .macroCall mac semicolon
        else return .expr e semicolon
      | _ => return .expr e semicolon : Parser Stmt) = pure stmt ∧
        stmt.mustBeLast = (!semicolon && e.needsSemicolon) := by
  cases e with
  | macroCall mac =>
    dsimp only
    split
    · exact ⟨_, rfl, by simp [mustBeLast, Expr.needsSemicolon]⟩
    · exact ⟨_, rfl, rfl⟩
  | _ => exact ⟨_, rfl, rfl⟩

theorem keeps_parseExpr :
    (inside close : Place line).Keeps Alike (parseExpr g) (parseExpr g') := by
  refine (Expr.keeps_parseEarly hg).bindUpTo fun e e' h => ?_
  refine (Keeps.punct? ";").bind fun semicolon => ?_
  obtain ⟨stmt, hstmt, hlast⟩ := exists_stmt e semicolon
  obtain ⟨stmt', hstmt', hlast'⟩ := exists_stmt e' semicolon
  have hkeeps : (inside close : Place line).Keeps Alike (pure stmt) (pure stmt') :=
    .pure (by rw [Alike, hlast, hlast', h.needsSemicolon])
  rw [← hstmt, ← hstmt'] at hkeeps
  exact hkeeps

theorem keeps_parse : (inside close : Place line).Keeps Alike (parse g) (parse g') := by
  refine (Attribute.keeps_parseOuter hg).bindUpTo fun _ _ _ => .look fun tokens => ?_
  simp -zeta only [word_move, startsItem_inside]
  refine (keeps_macroForm hg.lines close).bindUpTo ?_
  rintro form _ rfl
  have hitem (attributes attributes' : List Attribute) (isItem : Bool) :
      (inside close : Place line).Keeps Alike
      (if Ahead.word "let" tokens then parseBinding g
      else if isItem || startsItem tokens then do
        let _ ← Item.parseAfter g attributes
        return .item
      else parseExpr g)
      (if Ahead.word "let" tokens then parseBinding g'
      else if isItem || startsItem tokens then do
        let _ ← Item.parseAfter g' attributes'
        return .item
      else parseExpr g') := by
    refine .ite (keeps_parseBinding hg) (.ite ?_ (keeps_parseExpr hg))
    exact (Item.keeps_parseAfter hg _ _).seq (.pure rfl)
  cases form with
  | item => exact hitem _ _ true
  | other => exact hitem _ _ false
  | braced path rest =>
    refine (Keeps.continueAt rest).seq ((Keeps.punct "!").seq ?_)
    refine (keeps_parseMacroBody path).bindUpTo fun mac mac' h => ?_
    refine (Keeps.punct? ";").bind fun _ => ?_
    exact .pure (by simp [Alike, mustBeLast, h])

theorem keeps_parseAll :
    (inside close : Place line).Keeps Discarded (parseAll g) (parseAll g') := by
  refine .loopUpTo (T := Discarded) (fun _ _ _ => ?_) trivial
  refine (Keeps.punct? ";").bind fun _ => .ite (.again trivial) ?_
  refine Keeps.isEnd.bind fun _ => .ite (.done trivial) ?_
  refine (keeps_parse hg).bindUpTo fun stmt stmt' h => Keeps.isEnd.bind fun _ => ?_
  refine .ite (.done trivial) ?_
  rw [h]
  exact .then_seq (R := Eq) (.fail _) (.again trivial)

end

end Stmt

/-! ## Paths -/

/-- The words that may start a path. -/
def pathWords : List String :=
  ["super", "self", "crate", "try", "Self"]

theorem exists_ident_of_parseSegment {g : Grammar} {inExpr : Bool} {input rest : Input}
    {segment : PathSegment} (h : PathSegment.parse g inExpr input = .ok (segment, rest)) :
    ∃ ident line tokens, input.tokens = .ident ident line :: tokens ∧
      (ident.text ∈ pathWords ∨ Ahead.reserved.contains ident.text = false) := by
  rw [PathSegment.parse, look_bind] at h
  split at h
  next hwords =>
    obtain ⟨ident, next, hident, -⟩ := bind_eq_ok_iff.1 h
    obtain ⟨line, tokens, htokens, -⟩ := takeAnyIdent_eq_ok_iff.1 hident
    rw [htokens] at hwords
    refine ⟨ident, line, tokens, htokens, .inl ?_⟩
    simp only [Ahead.anyWord, Ahead.word, List.any_cons, List.any_nil, Bool.or_false,
      Bool.or_eq_true, decide_eq_true_eq] at hwords
    simp only [pathWords, List.mem_cons, List.not_mem_nil, or_false]
    tauto
  next =>
    dsimp only at h
    split at h
    next hself =>
      obtain ⟨ident, next, hident, -⟩ := bind_eq_ok_iff.1 h
      obtain ⟨line, tokens, htokens, -⟩ := takeAnyIdent_eq_ok_iff.1 hident
      rw [htokens] at hself
      refine ⟨ident, line, tokens, htokens, .inl ?_⟩
      rw [of_decide_eq_true hself]
      decide
    next =>
      obtain ⟨ident, next, hident, -⟩ := bind_eq_ok_iff.1 h
      obtain ⟨hreserved, line, tokens, htokens, -⟩ := takeIdent_eq_ok_iff.1 hident
      rw [htokens] at hreserved
      exact ⟨ident, line, tokens, htokens, .inr (by simpa [Ahead.ident] using hreserved)⟩

/-! ## Receivers -/

/-- A type does not start with dots, nor with a colon alone. -/
theorem mayStartType_of_parse {allowPlus : Bool} {input rest : Input} {type : Ty}
    (h : Ty.parse g allowPlus input = .ok (type, rest)) : MayStartType input.tokens := by
  obtain ⟨tokens, close, stray⟩ := input
  rcases tokens with _ | ⟨_ | ⟨c, joint, line⟩ | _ | _, tokens⟩
  case cons.punct =>
    by_cases hdot : c = '.'
    · subst hdot
      have hfail : Ty.parse g allowPlus ⟨.punct '.' joint line :: tokens, close, stray⟩ =
        fail "expected type" ⟨.punct '.' joint line :: tokens, close, stray⟩ := rfl
      rw [hfail] at h
      exact absurd h fail_ne_ok
    · refine ⟨by simp [Ahead.punct, Ahead.punctChars, hdot], fun hcolon => ?_⟩
      obtain rfl : c = ':' := of_decide_eq_true hcolon
      by_contra hsingle
      rw [Bool.not_eq_true] at hsingle
      obtain ⟨start, next, hstart, h⟩ := bind_eq_ok_iff.1 h
      obtain ⟨rfl, rfl⟩ := Prod.mk.inj (Except.ok.inj hstart)
      obtain ⟨binder, next, hbinder, h⟩ := bind_eq_ok_iff.1 h
      obtain ⟨rfl, rfl⟩ := Prod.mk.inj (Except.ok.inj hbinder)
      rw [look_bind, if_neg (by exact Bool.false_ne_true), if_neg (by exact Bool.false_ne_true),
        if_neg (by exact Bool.false_ne_true),
        if_neg (by rw [hsingle]; exact Bool.false_ne_true)] at h
      cases h
  all_goals exact ⟨rfl, fun hcolon => absurd hcolon Bool.false_ne_true⟩

/-- A path does not go on with three colons. -/
theorem parseMore_ne_ok {inExpr : Bool} {path path' : Path} {tokens : List Token}
    {first second third : Nat} {joint : Bool} {stray : Option Nat} {rest : Input} :
    path.parseMore g inExpr ⟨.punct ':' true first :: .punct ':' true second ::
      .punct ':' joint third :: tokens, close, stray⟩ ≠ .ok (path', rest) := by
  intro h
  obtain ⟨more, next, hmore, -⟩ := bind_eq_ok_iff.1 h
  cases many_of_manyWhile hmore with
  | stop htest => cases htest
  | more _ hsegment =>
    obtain ⟨u, next, hcolons, hsegment⟩ := bind_eq_ok_iff.1 hsegment
    obtain rfl := (punct_eq_ok_iff.1 hcolons).2
    obtain ⟨ident, line, tokens, htokens, -⟩ := exists_ident_of_parseSegment hsegment
    cases htokens

/-- A path that starts with `self` is the word and what follows after `::`. -/
theorem parsePath_of_self {inExpr : Bool} {ident : Ident} {line : Nat} {tokens : List Token}
    {stray : Option Nat} {path : Path} {rest : Input} (hname : ident.text = "self")
    (h : Path.parse g inExpr ⟨.ident ident line :: tokens, close, stray⟩ = .ok (path, rest)) :
    Path.parseMore g inExpr ⟨false, [⟨ident, .none⟩]⟩ ⟨tokens, close, stray⟩ =
      .ok (path, rest) := by
  have hword : Ahead.anyWord ["super", "self", "crate", "try"]
      (.ident ident line :: tokens) = true := by
    simp [Ahead.anyWord, Ahead.word, hname]
  have hsegment : PathSegment.parse g inExpr ⟨.ident ident line :: tokens, close, stray⟩ =
      .ok (⟨ident, .none⟩, ⟨tokens, close, stray⟩) := by
    rw [PathSegment.parse, look_bind, if_pos hword]
    rfl
  obtain ⟨leading, next, hleading, h⟩ := bind_eq_ok_iff.1 h
  obtain ⟨rfl, rfl⟩ := Prod.mk.inj (Except.ok.inj hleading)
  obtain ⟨segment, next, hread, h⟩ := bind_eq_ok_iff.1 h
  obtain ⟨rfl, rfl⟩ := Prod.mk.inj (Except.ok.inj (hsegment.symm.trans hread))
  exact h

/-- A word `self` and a colon start a path in a pattern only as `self::`. -/
theorem punct_separator_of_startsNamed {ident : Ident} {line : Nat} {colon : Token}
    {tokens : List Token} (hname : ident.text = "self")
    (h : Pattern.startsNamed (.ident ident line :: colon :: tokens) = true) :
    Ahead.punct "::" (colon :: tokens) = true := by
  simpa [Pattern.startsNamed, Ahead.ident, Ahead.word, Ahead.anyWord, Ahead.skip, Ahead.reserved,
    Ahead.punct, Ahead.punctChars, hname] using h

/-- A binding takes the words in front of the colon. -/
theorem parseBinding_of_self {tokens after : List Token} (h : SelfTokens tokens after) (close : Nat)
    (stray : Option Nat) :
    ∃ joint line, Pattern.parseBinding g ⟨tokens, close, stray⟩ =
      .ok (.other, ⟨.punct ':' joint line :: after, close, stray⟩) := by
  cases h with
  | plain hname line colon joint =>
    refine ⟨joint, colon, ?_⟩
    simp [Pattern.parseBinding, bind_apply, word?_apply, punct?_apply, look, takeAnyIdent,
      continueAt, pure_apply, hname, Ahead.word, Ahead.punct, Ahead.punctChars]
  | mutable hmark hname start line colon joint =>
    refine ⟨joint, colon, ?_⟩
    simp [Pattern.parseBinding, bind_apply, word?_apply, punct?_apply, look, takeAnyIdent,
      continueAt, pure_apply, hmark, hname, Ahead.word, Ahead.punct, Ahead.punctChars]

/-- Where `self` or `mut` comes first and no path, a binding is read. -/
theorem parsePattern_eq_parseBinding {ident : Ident} {line : Nat} {tokens : List Token}
    (hword : ident.text = "self" ∨ ident.text = "mut")
    (hnamed : Pattern.startsNamed (.ident ident line :: tokens) = false) (close : Nat)
    (stray : Option Nat) :
    Pattern.parse g ⟨.ident ident line :: tokens, close, stray⟩ =
      Pattern.parseBinding g ⟨.ident ident line :: tokens, close, stray⟩ := by
  rw [Pattern.parse, look_bind, if_neg (by simp [hnamed]), bind_apply, word?_apply]
  obtain hword | hword := hword
  all_goals
    simp [bind_apply, word?_apply, hword, Ahead.word, Ahead.anyWord, Ahead.punct, Ahead.punctChars,
      Ahead.literal, Ahead.literal?]

/-- A pattern that starts with `self` and a colon is the word. -/
theorem exists_colon_of_parsePattern {tokens after : List Token} {stray : Option Nat}
    {pattern : Pattern} {rest : Input} (hself : SelfTokens tokens after)
    (hafter : MayStartType after)
    (h : Pattern.parse g ⟨tokens, close, stray⟩ = .ok (pattern, rest)) :
    ∃ joint line, rest.tokens = .punct ':' joint line :: after := by
  obtain ⟨joint, line, hbinding⟩ := @parseBinding_of_self g _ _ hself close stray
  have hread (heq : Pattern.parse g ⟨tokens, close, stray⟩ =
      Pattern.parseBinding g ⟨tokens, close, stray⟩) :
      ∃ joint line, rest.tokens = .punct ':' joint line :: after := by
    obtain ⟨-, rfl⟩ := Prod.mk.inj (Except.ok.inj ((heq.trans hbinding).symm.trans h))
    exact ⟨joint, line, rfl⟩
  cases hself with
  | @plain ident hname line colon joint =>
    cases hnamed : Pattern.startsNamed (.ident ident line :: .punct ':' joint colon :: after) with
    | false => exact hread (parsePattern_eq_parseBinding (.inl hname) hnamed close stray)
    | true =>
      -- a path goes on after `self::`, but three colons follow
      rw [Pattern.parse, look_bind, if_pos (by exact hnamed)] at h
      obtain ⟨⟨_, path⟩, next, hqualified, -⟩ := bind_eq_ok_iff.1 h
      obtain ⟨angle, next', hangle, hqualified⟩ := bind_eq_ok_iff.1 hqualified
      obtain ⟨rfl, rfl⟩ := Prod.mk.inj (Except.ok.inj hangle)
      obtain ⟨path, next', hpath, -⟩ := bind_eq_ok_iff.1 hqualified
      have hmore := parsePath_of_self hname hpath
      obtain ⟨_, line', joint', rest', hcolons⟩ :=
        eq_of_punct_separator (punct_separator_of_startsNamed hname hnamed)
      obtain ⟨hcolon, rfl⟩ := List.cons.inj hcolons
      obtain ⟨-, rfl, -⟩ := Token.punct.inj hcolon
      obtain ⟨_, line'', joint'', rest'', hcolons⟩ := eq_of_punct_separator (hafter.2 rfl)
      obtain ⟨hcolon, rfl⟩ := List.cons.inj hcolons
      obtain ⟨-, rfl, -⟩ := Token.punct.inj hcolon
      exact absurd hmore parseMore_ne_ok
  | @mutable mark ident hmark hname start line colon joint =>
    have hnamed : Pattern.startsNamed (.ident mark start :: .ident ident line ::
        .punct ':' joint colon :: after) = false := by
      simp [Pattern.startsNamed, hmark, Ahead.ident, Ahead.reserved, Ahead.word, Ahead.anyWord,
        Ahead.punct, Ahead.punctChars]
    exact hread (parsePattern_eq_parseBinding (.inr hmark) hnamed close stray)

/-! ## The circle closed -/

/-- Rules that are not nested at all read nothing. -/
theorem Grammar.keeps_nested_zero (hline : Function.HasLeftInverse line) (depth : Nat) :
    Grammar.Keeps line (nested 0) (nested depth) where
  lines := hline
  receivers := {
    clear := fun _ _ _ _ _ _ h => absurd h fail_ne_ok
    mayStart := by
      cases depth with
      | zero => exact fun h => absurd h fail_ne_ok
      | succ depth => exact fun h => mayStartType_of_parse h
    pattern := fun _ _ h => absurd h fail_ne_ok }
  type _ := .fail _
  genericArgument := @fun _ => Keeps.fail _
  genericParam := @fun _ => KeepsBefore.fail _
  needsType _ := needsToken_fail _
  needsArgument := needsToken_fail _
  expr _ := .fail _
  early := @fun _ => Keeps.fail _
  unary _ := .fail _
  operators _ _ _ := .fail _
  pattern := @fun _ => Keeps.fail _
  statements := @fun _ => Keeps.fail _
  item := @fun _ => Keeps.fail _
  useTree _ := .fail _
  namedFields := @fun _ => Keeps.fail _

/-- Rules one level deeper. A type is read alike whatever closes the group that it stands in. -/
theorem Grammar.keeps_nested_succ {depth depth' : Nat}
    (hid : Grammar.Keeps id (nested depth) (nested depth))
    (hg : Grammar.Keeps line (nested depth) (nested depth')) :
    Grammar.Keeps line (nested (depth + 1)) (nested (depth' + 1)) where
  lines := hg.lines
  receivers := {
    clear := by
      intro close' tokens close stray type rest htype
      have hmoved :
          (inside close' : Place id).Moved ⟨tokens, close, stray⟩ ⟨tokens, close', none⟩ :=
        ⟨by rw [move_inside, Token.mapLines_id], fun _ => rfl, rfl⟩
      obtain ⟨type', rest', hread, -⟩ := Ty.keeps_parse hid true hmoved htype
      exact ⟨type', rest', hread⟩
    mayStart := mayStartType_of_parse
    pattern := exists_colon_of_parsePattern }
  type := Ty.keeps_parse hg
  genericArgument := @fun _ => keeps_parseGenericArgument hg
  genericParam := @fun _ => keeps_parseGenericParam hg
  needsType := needsToken_parseType _
  needsArgument := by
    rintro ⟨tokens, close, stray⟩ a rest rfl h
    exact (hg.needsType true).bind _ a rest rfl h
  expr := Expr.keeps_parse hg
  early := @fun _ => Expr.keeps_parseEarly hg
  unary := Expr.keeps_parseUnary hg
  operators := Expr.keeps_parseOperators hg
  pattern := @fun _ => Pattern.keeps_parse hg
  statements := @fun _ => Stmt.keeps_parseAll hg
  item := @fun _ => Item.keeps_parse hg
  useTree := UseTree.keeps_parse hg
  namedFields := @fun _ => keeps_parseNamedFields hg

/-- What is read with rules nested to some depth is read in a place with rules nested deeper. -/
theorem Grammar.keeps_nested (hline : Function.HasLeftInverse line) {depth depth' : Nat}
    (h : depth ≤ depth') : Grammar.Keeps line (nested depth) (nested depth') := by
  induction depth generalizing line depth' with
  | zero => exact keeps_nested_zero hline depth'
  | succ depth ih =>
    obtain ⟨depth', rfl⟩ : ∃ d, depth' = d + 1 := ⟨depth' - 1, by omega⟩
    -- the types of receivers are compared on their own lines
    exact keeps_nested_succ (ih ⟨id, fun _ => rfl⟩ (Nat.le_refl depth)) (ih hline (by omega))

/-! ## Paths as types -/

/-- Where a path can be read no other type can, unless the path starts with a word that is none. -/
theorem startsNamed_of_parsePath {g : Grammar} {tokens : List Token} {close : Nat}
    {stray : Option Nat} {path : Path} {rest : Input}
    (h : Path.parse g false ⟨tokens, close, stray⟩ = .ok (path, rest))
    (htry : Ahead.word "try" tokens = false) : StartsNamed tokens := by
  obtain ⟨leading, next, hleading, h⟩ := bind_eq_ok_iff.1 h
  obtain ⟨segment, after, hsegment, -⟩ := bind_eq_ok_iff.1 h
  rw [punct?_apply] at hleading
  cases hcolons : Ahead.punct "::" tokens with
  | true =>
    obtain ⟨first, second, joint, more, rfl⟩ := eq_of_punct_separator hcolons
    exact ⟨rfl, rfl, rfl, rfl, .inr hcolons⟩
  | false =>
    rw [hcolons] at hleading
    obtain ⟨-, rfl⟩ := Prod.mk.inj (Except.ok.inj hleading)
    obtain ⟨ident, line, more, rfl, hword⟩ := exists_ident_of_parseSegment hsegment
    have hne : ident.text ≠ "try" := of_decide_eq_false htry
    have hother : ∀ spelling ∈ ["for", "fn", "unsafe", "extern"], ident.text ≠ spelling := by
      have hnone : ∀ spelling ∈ ["for", "fn", "unsafe", "extern"], spelling ∉ pathWords ∧
          Ahead.reserved.contains spelling = true := by decide
      rintro spelling hmem rfl
      obtain ⟨hpath, hreserved⟩ := hnone _ hmem
      obtain hword | hword := hword
      · exact hpath hword
      · rw [hreserved] at hword
        cases hword
    simp only [List.forall_mem_cons] at hother
    refine ⟨decide_eq_false hother.1, ?_, rfl, rfl, .inl ?_⟩
    · simp [Ahead.anyWord, Ahead.word, hother]
    · obtain hword | hword := hword
      · simp only [pathWords, List.mem_cons, List.not_mem_nil, or_false] at hword
        simp only [Ty.startsPath, Ahead.anyWord, Ahead.word, List.any_cons, List.any_nil,
          Bool.or_false, Bool.or_eq_true, decide_eq_true_eq]
        tauto
      · rw [Ty.startsPath, Ahead.ident, hword]
        rfl

/-- A path that is read alone is read where a type stands. -/
theorem parseType_move (place : Place line) (hline : Function.HasLeftInverse line)
    {tokens : List Token} {path : Path} {depth depth' start end' : Nat}
    (h : Path.parse (Grammar.nested depth) false ⟨tokens, start, none⟩ =
      .ok (path, ⟨[], end', none⟩))
    (htry : Ahead.word "try" tokens = false) (hdepth : depth ≤ depth')
    (hrest : EndsType (place.move [])) (allowPlus : Bool) :
    Ty.parse (Grammar.nested depth') allowPlus ⟨place.move tokens, place.outer, none⟩ =
      .ok (.named path, ⟨place.move [], place.outer, none⟩) := by
  have hmoved : place.Moved ⟨tokens, start, none⟩ ⟨place.move tokens, place.outer, none⟩ :=
    ⟨rfl, fun _ => rfl, rfl⟩
  obtain ⟨_, ⟨rest, close, stray⟩, hpath, rfl, hafter⟩ :=
    keeps_parsePath (Grammar.keeps_nested hline hdepth) false hmoved h
  obtain rfl : rest = place.move [] := hafter.tokens
  obtain rfl : stray = none := hafter.stray rfl
  obtain rfl : close = place.outer := hafter.close
  have hstart := startsNamed_of_parsePath h htry
  refine parseType_of_parsePath ⟨?_, ?_, ?_, ?_, ?_⟩ hpath hrest allowPlus
  · rw [word_move, hstart.binder]
  · rw [anyWord_move, hstart.function]
  · rw [paren_move, hstart.parenthesis]
  · rw [punct_move, hstart.angle]
  · rw [Ty.startsPath_move, punct_move]
    exact hstart.path

end JobRoster.Syntax
