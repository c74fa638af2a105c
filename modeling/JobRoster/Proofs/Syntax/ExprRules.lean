import JobRoster.Proofs.Syntax.TypeRules
import JobRoster.Syntax.Grammar.Expr

/-!
# Expressions in another place

The rules for patterns and expressions read inside of a group in a place what they read alone, up to
lines. Nothing of a tree but what the rules themselves ask it decides how the text after it is read.
-/

namespace JobRoster.Syntax

open Syntax.Parser Place

variable {line : Nat → Nat} {close : Nat} {g g' : Grammar}

/-! ## Patterns -/

theorem keeps_parseDots : (inside close : Place line).Keeps Eq parseDots parseDots := by
  refine (Keeps.punct? "..=").bind fun _ => .ite (.pure rfl) ?_
  refine (Keeps.punct? "...").bind fun _ => .ite (.pure rfl) ?_
  exact (Keeps.punct "..").seq (.pure rfl)

@[simp] theorem startsAlternative_inside (tokens : List Token) :
    startsAlternative ((inside close : Place line).move tokens) = startsAlternative tokens := by
  simp [startsAlternative]

theorem keeps_parseMember : (inside close : Place line).Keeps Eq parseMember parseMember := by
  refine .look fun tokens => ?_
  simp only [ident_move, literal?_move]
  refine .ite (Keeps.takeIdent.seq (.pure rfl)) ?_
  rcases Ahead.literal? tokens with _ | ⟨_ | _ | ⟨digits, suffix⟩ | _, rest⟩
  case some.int => exact .ite ((Keeps.continueAt rest).seq (.pure rfl)) (.fail _)
  all_goals exact .fail _

section

variable (hg : Grammar.Keeps line g g')
include hg

namespace Pattern

theorem keeps_parseAlternatives : (inside close : Place line).Keeps Alike
    (parseAlternatives g) (parseAlternatives g') := by
  refine (Keeps.punct? "|").bind fun leading => hg.pattern.bindUpTo fun first first' hfirst => ?_
  refine .bindUpTo (.manyWhile startsAlternative_inside ((Keeps.punct "|").seq hg.pattern)) ?_
  intro more more' hmore
  refine .pure ?_
  cases hmore with
  | nil => cases leading <;> [exact hfirst; exact rfl]
  | cons => cases leading <;> rfl

theorem keeps_parseRangeEnd? : (inside close : Place line).Keeps Eq
    (parseRangeEnd? g) (parseRangeEnd? g') := by
  refine .look fun tokens => ?_
  simp only [isEmpty_inside, punct_move, word_move, literal_move, Ty.startsPath_move]
  refine .ite (.pure rfl) (.ite (Keeps.takeLiteral.seq (.pure rfl)) (.ite ?_ ?_))
  · exact (keeps_parseQualified hg true).seq (.pure rfl)
  · refine (Keeps.word? "const").bind fun _ => .ite ?_ (.fail _)
    exact (keeps_parseBody hg).seq (.pure rfl)

theorem keeps_parseRangeAfter : (inside close : Place line).Keeps Alike
    (parseRangeAfter g) (parseRangeAfter g') := by
  refine .here fun _ _ => keeps_parseDots.bind fun closed => ?_
  refine (keeps_parseRangeEnd? hg).bind fun bounded => .then_seq (R := Eq) (.fail _) ?_
  exact .pure (by cases bounded <;> rfl)

theorem keeps_parseLiteral :
    (inside close : Place line).Keeps Alike (parseLiteral g) (parseLiteral g') := by
  refine (keeps_parseRangeEnd? hg).seq (.look fun tokens => ?_)
  rw [punct_move]
  exact .ite (keeps_parseRangeAfter hg) (.pure rfl)

theorem keeps_parseField :
    (inside close : Place line).Keeps Eq (parseField g) (parseField g') := by
  refine (Keeps.word? "box").bind fun _ => (Keeps.word? "ref").bind fun _ =>
    (Keeps.word? "mut").bind fun _ => .ite (Keeps.takeIdent.seq (.pure rfl)) ?_
  refine keeps_parseMember.bind fun named => .look fun tokens => ?_
  rw [punct_move]
  exact .ite ((Keeps.punct ":").seq ((keeps_parseAlternatives hg).seq (.pure rfl))) (.pure rfl)

theorem keeps_parseFields :
    (inside close : Place line).Keeps Eq (parseFields g) (parseFields g') := by
  refine .loop (fun _ => Keeps.isEnd.bind fun _ => .ite (.done rfl) ?_) ()
  refine (Attribute.keeps_parseOuter hg).seq ((Keeps.punct? "..").bind fun _ => .ite (.done rfl) ?_)
  refine (keeps_parseField hg).seq (Keeps.isEnd.bind fun _ => .ite (.done rfl) ?_)
  exact (Keeps.punct ",").seq (.again rfl)

theorem keeps_parseNamed :
    (inside close : Place line).Keeps Alike (parseNamed g) (parseNamed g') := by
  refine (keeps_parseQualified hg true).bind fun read => .look fun tokens => ?_
  simp only [punct_move, brace_inside, paren_move]
  refine .ite ((Keeps.punct "!").seq ((keeps_parseMacroBody _).seq (.pure rfl))) ?_
  refine .ite ?_ (.ite ?_ ?_)
  · exact .seq (R := Eq) (.inGroup .brace fun _ => keeps_parseFields hg) (.pure rfl)
  · refine .seq (.inGroup .paren fun _ => .commaList (keeps_parseAlternatives hg)) (.pure rfl)
  · exact .ite (keeps_parseRangeAfter hg) (.pure rfl)

theorem keeps_parseBinding :
    (inside close : Place line).Keeps Alike (parseBinding g) (parseBinding g') := by
  refine (Keeps.word? "ref").seq ((Keeps.word? "mut").seq (.look fun tokens => ?_))
  rw [word_move]
  refine .ite (Keeps.takeAnyIdent.seq ?after) (Keeps.takeIdent.seq ?after)
  exact (Keeps.punct? "@").bind fun _ => .ite (hg.pattern.seq (.pure rfl)) (.pure rfl)

theorem keeps_parseElement :
    (inside close : Place line).Keeps Eq (parseElement g) (parseElement g') := by
  refine (keeps_parseAlternatives hg).bindUpTo fun pattern pattern' h => ?_
  cases pattern with
  | openRange => exact .failAt _ _
  | other =>
    cases pattern' with
    | openRange => cases h
    | other => exact .pure rfl

theorem keeps_parseLeadingDots :
    (inside close : Place line).Keeps Alike (parseLeadingDots g) (parseLeadingDots g') := by
  refine .here fun _ _ => (Keeps.punct? "..=").bind fun closed => ?_
  refine .else_seq (.punct "..") ((keeps_parseRangeEnd? hg).bind fun _ => .ite (.pure rfl) ?_)
  exact .then_seq (R := Eq) (.fail _) (.pure rfl)

omit hg in
@[simp] theorem startsNamed_inside (tokens : List Token) :
    startsNamed ((inside close : Place line).move tokens) = startsNamed tokens := by
  simp [startsNamed]

theorem keeps_parse :
    (inside close : Place line).Keeps Alike (Pattern.parse g) (Pattern.parse g') := by
  refine .look fun tokens => ?_
  simp only [startsNamed_inside, punct_move, literal_move, word_move, anyWord_move, ident_move,
    paren_move, bracket_move]
  refine .ite (keeps_parseNamed hg) ((Keeps.word? "_").bind fun _ => .ite (.pure rfl) ?_)
  refine (Keeps.word? "box").bind fun _ => .ite (hg.pattern.seq (.pure rfl)) ?_
  refine .ite (keeps_parseLiteral hg) (.ite (keeps_parseBinding hg) ?_)
  refine (Keeps.punct? "&").bind fun _ => .ite ?_ (.ite ?_ (.ite ?_ ?_))
  · exact (Keeps.word? "mut").seq (hg.pattern.seq (.pure rfl))
  · exact .seq (.inGroup .paren fun _ => .commaList (keeps_parseAlternatives hg)) (.pure rfl)
  · exact .seq (.inGroup .bracket fun _ => .commaList (keeps_parseElement hg)) (.pure rfl)
  · exact .ite (keeps_parseLeadingDots hg) (.fail _)

end Pattern

/-! ## Operators -/

omit hg in
@[simp] theorem binaryOperator?_inside (tokens : List Token) :
    binaryOperator? ((inside close : Place line).move tokens) = binaryOperator? tokens := by
  simp [binaryOperator?]

omit hg in
@[simp] theorem startsAssign_inside (tokens : List Token) :
    startsAssign ((inside close : Place line).move tokens) = startsAssign tokens := by
  simp [startsAssign]

omit hg in
@[simp] theorem nextPrecedence_inside (tokens : List Token) :
    nextPrecedence ((inside close : Place line).move tokens) = nextPrecedence tokens := by
  simp [nextPrecedence]

namespace Expr

omit hg in
theorem exists_of_isComparison {e : Expr} (h : e.isComparison = true) :
    ∃ left right, e = .binary .compare left right := by
  unfold isComparison at h
  split at h
  · exact ⟨_, _, rfl⟩
  · cases h

omit hg in
theorem Alike.binary {left left' right right' : Expr} (precedence : Precedence)
    (h : right.Alike right') :
    (Expr.binary precedence left right).Alike (.binary precedence left' right') :=
  ⟨rfl, rfl, h.brace, by cases precedence <;> rfl, rfl⟩

omit hg in
theorem Alike.macroCall {mac mac' : MacroCall} (h : mac'.delimiter = mac.delimiter) :
    (Expr.macroCall mac).Alike (.macroCall mac') :=
  ⟨rfl, rfl, by rw [endsInBrace, endsInBrace, h], rfl, by rw [macroDelimiter?, macroDelimiter?, h]⟩

omit hg in
theorem Alike.leading {operand operand' : Expr} (h : operand.Alike operand') :
    (Expr.leading operand).Alike (.leading operand') :=
  ⟨rfl, rfl, h.brace, rfl, rfl⟩

theorem keeps_parseRight (allowStruct : Bool) (precedence : Precedence) :
    (inside close : Place line).Keeps Alike (parseRight g allowStruct precedence)
      (parseRight g' allowStruct precedence) := by
  refine (hg.unary allowStruct).bindUpTo fun first first' hfirst => .loopUpTo (T := Alike) ?_ hfirst
  -- whether a turn has read anything is told by how many tokens are left
  refine fun right right' hright => .look fun tokens => ?_
  rw [nextPrecedence_inside, length_inside]
  refine .ite ((hg.operators hright _ _).bindUpTo fun more more' hmore => .look fun tokens => ?_)
    (.done hright)
  rw [length_inside]
  exact .ite (.done hmore) (.again hmore)

omit hg in
@[simp] theorem endsRange_inside (allowStruct : Bool) (tokens : List Token) :
    endsRange allowStruct ((inside close : Place line).move tokens) =
      endsRange allowStruct tokens := by
  simp [endsRange]

theorem keeps_parseRangeAfter (allowStruct : Bool) : (inside close : Place line).Keeps Alike
    (parseRangeAfter g allowStruct) (parseRangeAfter g' allowStruct) := by
  have hupper : (inside close : Place line).Keeps Alike
      (do return .range (some (← parseRight g allowStruct .range)))
      (do return .range (some (← parseRight g' allowStruct .range))) :=
    (keeps_parseRight hg allowStruct .range).bindUpTo fun _ _ h =>
      .pure ⟨rfl, rfl, h.brace, rfl, rfl⟩
  refine (Keeps.punct? "..=").bind fun closed => ?_
  have hend : (inside close : Place line).Keeps Alike
      (do
        if !closed && endsRange allowStruct (← look) then return .range none
        return .range (some (← parseRight g allowStruct .range)))
      (do
        if !closed && endsRange allowStruct (← look) then return .range none
        return .range (some (← parseRight g' allowStruct .range))) := by
    refine .look fun tokens => ?_
    rw [endsRange_inside]
    exact .ite (.pure (.refl _)) hupper
  refine .ite hend (.look fun tokens => ?_)
  rw [punct_move]
  exact .then_seq (R := Eq) (.fail _) ((Keeps.punct "..").seq hend)

omit hg in
theorem keeps_checkAfterCast :
    (inside close : Place line).Keeps Eq checkAfterCast checkAfterCast := by
  refine .look fun tokens => ?_
  simp only [punct_move, bracket_move, paren_move]
  exact .ite (.fail _) (.pure rfl)

theorem keeps_parseOperators {left left' : Expr} (h : left.Alike left') (allowStruct : Bool)
    (atLeast : Precedence) : (inside close : Place line).Keeps Alike
      (parseOperators g left allowStruct atLeast)
      (parseOperators g' left' allowStruct atLeast) := by
  refine .loopUpTo (T := Alike) (fun left left' h => ?_) h
  rw [h.range]
  refine .ite (.done h) (.look fun tokens => ?_)
  simp only [binaryOperator?_inside, startsAssign_inside, punct_move, word_move]
  rcases binaryOperator? tokens with _ | ⟨spelling, precedence⟩
  · refine .ite ?_ (.ite ?_ (.ite ?_ (.done h)))
    · refine (Keeps.punct "=").seq ((keeps_parseRight hg _ _).bindUpTo fun _ _ hvalue => ?_)
      exact .again ⟨rfl, rfl, hvalue.brace, rfl, rfl⟩
    · exact (keeps_parseRangeAfter hg _).bindUpTo fun _ _ hrange => .again hrange
    · refine (Keeps.word "as").seq ((hg.type false).bind fun _ => keeps_checkAfterCast.seq ?_)
      exact .again (.refl _)
  · refine .ite ?_ (.done h)
    have hnext : (inside close : Place line).Keeps (Sum.LiftRel Alike Alike)
        (do
          punct spelling
          return .inl (.binary precedence left (← parseRight g allowStruct precedence)))
        (do
          punct spelling
          return .inl (.binary precedence left' (← parseRight g' allowStruct precedence))) :=
      (Keeps.punct spelling).seq ((keeps_parseRight hg _ _).bindUpTo fun _ _ hright =>
        .again (.binary precedence hright))
    -- a comparison of a comparison is an error, and both trees are comparisons or none is
    split
    · exact .fail _
    next hother =>
      split
      next =>
        obtain ⟨first, second, heq⟩ := exists_of_isComparison h.comparison.symm
        exact absurd heq (hother first second rfl)
      next => exact hnext

omit hg in
@[simp] theorem starts_inside (tokens : List Token) :
    starts ((inside close : Place line).move tokens) = starts tokens := by
  simp [starts]

/-! ## Control flow -/

theorem keeps_parseIf : (inside close : Place line).Keeps Alike (parseIf g) (parseIf g') := by
  refine .seq (R := Eq) (.loop (fun _ => (Keeps.word "if").seq ?_) ()) (.pure (.refl _))
  refine (hg.expr false).seq ((keeps_parseBlock hg).seq ((Keeps.word? "else").bind fun _ => ?_))
  refine .ite (.look fun tokens => ?_) (.done rfl)
  rw [word_move, brace_inside]
  exact .ite (.again rfl) (.ite ((keeps_parseBlock hg).seq (.done rfl)) (.fail _))

omit hg in
theorem keeps_parseLabel? :
    (inside close : Place line).Keeps Eq parseLabel? parseLabel? :=
  Keeps.takeLifetime?.bind fun _ => .ite ((Keeps.punct ":").seq (.pure rfl)) (.pure rfl)

theorem keeps_parseWhile : (inside close : Place line).Keeps Alike (parseWhile g) (parseWhile g') :=
  (Keeps.word "while").seq ((hg.expr false).seq ((keeps_parseBody hg).seq (.pure (.refl _))))

theorem keeps_parseFor : (inside close : Place line).Keeps Alike (parseFor g) (parseFor g') := by
  refine (Keeps.word "for").seq ((Pattern.keeps_parseAlternatives hg).seq ?_)
  exact (Keeps.word "in").seq <| (hg.expr false).seq ((keeps_parseBody hg).seq (.pure (.refl _)))

theorem keeps_parseWordBody (spelling : String) : (inside close : Place line).Keeps Alike
    (parseWordBody g spelling) (parseWordBody g' spelling) :=
  (Keeps.word spelling).seq ((keeps_parseBody hg).seq (.pure (.refl _)))

theorem keeps_parseLoop : (inside close : Place line).Keeps Alike (parseLoop g) (parseLoop g') :=
  keeps_parseWordBody hg "loop"

theorem keeps_parseBraces :
    (inside close : Place line).Keeps Alike (parseBraces g) (parseBraces g') :=
  (keeps_parseBody hg).seq (.pure (.refl _))

theorem keeps_parseTry : (inside close : Place line).Keeps Alike (parseTry g) (parseTry g') :=
  (Keeps.word "try").seq ((keeps_parseBlock hg).seq (.pure (.refl _)))

theorem keeps_parseLabeled :
    (inside close : Place line).Keeps Alike (parseLabeled g) (parseLabeled g') := by
  refine keeps_parseLabel?.seq (.look fun tokens => ?_)
  simp only [word_move, brace_inside]
  refine .ite (keeps_parseWhile hg) (.ite (keeps_parseFor hg) (.ite (keeps_parseLoop hg) ?_))
  exact .ite (keeps_parseBraces hg) (.fail _)

/-! ## Operands -/

theorem keeps_parseFieldValue :
    (inside close : Place line).Keeps Eq (parseFieldValue g) (parseFieldValue g') := by
  refine (Attribute.keeps_parseOuter hg).seq ?_
  refine keeps_parseMember.bind fun _ => .look fun tokens => ?_
  rw [punct_move]
  exact .ite ((Keeps.punct ":").seq ((hg.expr true).seq (.pure rfl))) (.pure rfl)

theorem keeps_parseStructFields :
    (inside close : Place line).Keeps Eq (parseStructFields g) (parseStructFields g') := by
  refine .loop (fun _ => Keeps.isEnd.bind fun _ => .ite (.done rfl) ?_) ()
  refine (Keeps.punct? "..").bind fun _ => .ite (Keeps.isEnd.bind fun _ => ?_) ?_
  · exact .else_seq (hg.expr true) (.done rfl)
  · refine (keeps_parseFieldValue hg).seq (Keeps.isEnd.bind fun _ => .ite (.done rfl) ?_)
    exact (Keeps.punct ",").seq (.again rfl)

theorem keeps_parseNamed (allowStruct : Bool) : (inside close : Place line).Keeps Alike
    (parseNamed g allowStruct) (parseNamed g' allowStruct) := by
  refine (keeps_parseQualified hg true).bind fun read => .look fun tokens => ?_
  simp only [punct_move, brace_inside]
  refine .ite ((Keeps.punct "!").seq ((keeps_parseMacroBody _).bindUpTo fun _ _ hmac => ?_)) ?_
  · exact .pure (.macroCall hmac)
  · refine .ite (.seq (R := Eq) (.inGroup .brace fun _ => ?_) (.pure (.refl _))) (.pure (.refl _))
    exact keeps_parseStructFields hg

theorem keeps_parseParen :
    (inside close : Place line).Keeps Alike (parseParen g) (parseParen g') := by
  refine .inGroup .paren fun _ => Keeps.isEnd.bind fun _ => .ite (.pure (.refl _)) ?_
  refine (hg.expr true).bindUpTo fun first first' _ => Keeps.isEnd.bind fun _ => .ite ?_ ?_
  · exact .pure ⟨rfl, rfl, rfl, rfl, rfl⟩
  · exact (Keeps.punct ",").seq ((Keeps.commaList (hg.expr true)).seq (.pure (.refl _)))

theorem keeps_parseArray :
    (inside close : Place line).Keeps Alike (parseArray g) (parseArray g') := by
  refine .inGroup .bracket fun _ => Keeps.isEnd.bind fun _ => .ite (.pure (.refl _)) ?_
  refine (hg.expr true).seq ((Keeps.punct? ",").bind fun _ => .ite ?_ ?_)
  · exact (Keeps.commaList (hg.expr true)).seq (.pure (.refl _))
  · refine (Keeps.punct? ";").bind fun _ => .ite ((hg.expr true).seq (.pure (.refl _))) ?_
    exact Keeps.isEnd.bind fun _ => .else_seq (R := Eq) (.fail _) (.pure (.refl _))

theorem keeps_parseClosureArgument :
    (inside close : Place line).Keeps Eq (parseClosureArgument g) (parseClosureArgument g') := by
  refine (Attribute.keeps_parseOuter hg).seq (hg.pattern.seq ((Keeps.punct? ":").bind fun _ => ?_))
  exact .ite ((hg.type true).seq (.pure rfl)) (.pure rfl)

theorem keeps_parseClosure (allowStruct : Bool) : (inside close : Place line).Keeps Alike
    (parseClosure g allowStruct) (parseClosure g' allowStruct) := by
  refine (Bound.keeps_parseBinder? hg).seq ((Keeps.word? "const").seq ?_)
  refine (Keeps.word? "static").seq ((Keeps.word? "async").seq ((Keeps.word? "move").seq ?_))
  refine (Keeps.punct "|").seq ?_
  refine .seq (.separatedUntil_inside (punct_move "|") "," (keeps_parseClosureArgument hg)) ?_
  refine (Keeps.punct "|").seq ((Keeps.punct? "->").bind fun _ => ?_)
  refine .ite ((hg.type true).seq ((keeps_parseBlock hg).seq (.pure (.refl _)))) ?_
  exact (hg.expr allowStruct).bindUpTo fun _ _ h => .pure (.leading h)

theorem keeps_parseJump (spelling : String) : (inside close : Place line).Keeps Alike
    (parseJump g spelling) (parseJump g' spelling) := by
  refine (Keeps.word spelling).seq (.look fun tokens => ?_)
  rw [starts_inside]
  exact .ite ((hg.expr true).bindUpTo fun _ _ h => .pure (.leading h)) (.pure (.refl _))

theorem keeps_parseBreak (allowStruct : Bool) : (inside close : Place line).Keeps Alike
    (parseBreak g allowStruct) (parseBreak g' allowStruct) := by
  refine (Keeps.word "break").seq (.here fun _ _ => .look fun tokens => ?_)
  simp only [lifetime_move, skip_inside, punct_move]
  refine .ite ((hg.expr true).seq (.seq (R := Eq) (.failAt _ _) ?after)) ?after
  refine Keeps.takeLifetime?.seq (.look fun tokens => ?_)
  rw [starts_inside, brace_inside]
  exact .ite ((hg.expr true).bindUpTo fun _ _ h => .pure (.leading h)) (.pure (.refl _))

theorem keeps_parseLet (allowStruct : Bool) : (inside close : Place line).Keeps Alike
    (parseLet g allowStruct) (parseLet g' allowStruct) := by
  refine (Keeps.word "let").seq ((Pattern.keeps_parseAlternatives hg).seq ?_)
  refine (Keeps.punct "=").seq ?_
  refine (hg.unary allowStruct).bindUpTo fun first first' hfirst => ?_
  exact (hg.operators hfirst allowStruct .compare).bindUpTo fun _ _ h => .pure (.leading h)

theorem keeps_parseArm : (inside close : Place line).Keeps Eq (parseArm g) (parseArm g') := by
  refine (Attribute.keeps_parseOuter hg).seq ((Pattern.keeps_parseAlternatives hg).seq ?_)
  refine (Keeps.word? "if").bind fun _ => .then_seq (hg.expr true) ((Keeps.punct "=>").seq ?_)
  refine hg.early.bindUpTo fun e e' h => Keeps.isEnd.bind fun _ => ?_
  -- whether a comma must follow depends on the form of the body alone
  rw [h.blockLike]
  exact .ite (.punct ",") ((Keeps.punct? ",").seq (.pure rfl))

theorem keeps_parseMatch :
    (inside close : Place line).Keeps Alike (parseMatch g) (parseMatch g') := by
  refine (Keeps.word "match").seq ((hg.expr false).seq (.seq (R := Discarded) ?_ (.pure (.refl _))))
  refine .inGroup .brace fun _ => (Attribute.keeps_parseInner hg).seq ?_
  exact (Keeps.untilEnd (keeps_parseArm hg)).last

theorem keeps_parseAsync : (inside close : Place line).Keeps Alike (parseAsync g) (parseAsync g') :=
  (Keeps.word "async").seq ((Keeps.word? "move").seq ((keeps_parseBlock hg).seq (.pure (.refl _))))

omit hg in
theorem keeps_parseBuiltin : (inside close : Place line).Keeps Alike parseBuiltin parseBuiltin := by
  refine (Keeps.word "builtin").seq ((Keeps.punct "#").seq (Keeps.takeIdent.seq ?_))
  exact .seq (R := Eq) (.inGroup .paren fun _ => .continueAt []) (.pure (.refl _))

omit hg in
@[simp] theorem startsClosure_inside (tokens : List Token) :
    startsClosure ((inside close : Place line).move tokens) = startsClosure tokens := by
  simp [startsClosure]

omit hg in
@[simp] theorem startsNamed_inside (tokens : List Token) :
    startsNamed ((inside close : Place line).move tokens) = startsNamed tokens := by
  simp [startsNamed]

theorem keeps_parseAtom (allowStruct : Bool) : (inside close : Place line).Keeps Alike
    (parseAtom g allowStruct) (parseAtom g' allowStruct) := by
  refine .look fun tokens => ?_
  simp only [literal_move, word_move, brace_inside, skip_inside, startsClosure_inside, punct_move,
    startsNamed_inside, paren_move, bracket_move, lifetime_move]
  refine .ite (Keeps.takeLiteral.bind fun _ => .pure (.refl _)) ?_
  refine .ite (keeps_parseAsync hg) (.ite (keeps_parseTry hg) ?_)
  refine .ite (keeps_parseClosure hg allowStruct) (.ite keeps_parseBuiltin ?_)
  refine .ite (keeps_parseNamed hg allowStruct) (.ite (keeps_parseParen hg) ?_)
  refine .ite (keeps_parseBreak hg allowStruct) ((Keeps.word? "continue").bind fun _ => .ite ?_ ?_)
  · exact Keeps.takeLifetime?.seq (.pure (.refl _))
  refine .ite (keeps_parseJump hg "return") ((Keeps.word? "become").bind fun _ => .ite ?_ ?_)
  · exact (hg.expr true).seq (.pure (.refl _))
  refine .ite (keeps_parseArray hg) (.ite (keeps_parseLet hg allowStruct) ?_)
  refine .ite (keeps_parseIf hg) (.ite (keeps_parseWhile hg) (.ite (keeps_parseFor hg) ?_))
  refine .ite (keeps_parseLoop hg) (.ite (keeps_parseMatch hg) ?_)
  refine .ite (keeps_parseJump hg "yield") ?_
  refine .ite (keeps_parseWordBody hg "unsafe") (.ite (keeps_parseWordBody hg "const") ?_)
  refine .ite (keeps_parseBraces hg) (.ite (keeps_parseRangeAfter hg allowStruct) ?_)
  refine (Keeps.word? "_").bind fun _ => .ite (.pure (.refl _)) ?_
  exact .ite (keeps_parseLabeled hg) (.fail _)

/-! ## What trails an operand -/

omit hg in
theorem isEmpty_eq_of_forall₂ {α : Type} {R : α → α → Prop} {as as' : List α}
    (h : List.Forall₂ R as as') : as'.isEmpty = as.isEmpty := by
  cases h <;> rfl

omit hg in
theorem Alike.foldl_field {α : Type} {object object' : Expr} (h : object.Alike object')
    (parts : List α) :
    (parts.foldl (fun object _ => Expr.field object) object).Alike
      (parts.foldl (fun object _ => Expr.field object) object') := by
  induction parts generalizing object object' with
  | nil => exact h
  | cons part parts ih => exact ih ⟨rfl, rfl, rfl, rfl, rfl⟩

omit hg in
theorem keeps_parseFloatFields (spelling : String) {object object' : Expr}
    (h : object.Alike object') :
    (inside close : Place line).Keeps (fun read read' => read.1.Alike read'.1 ∧ read.2 = read'.2)
      (parseFloatFields spelling object) (parseFloatFields spelling object') := by
  refine .else_seq (R := Eq) (.fail _) (.look fun tokens => ?_)
  rw [drop_inside]
  exact (Keeps.continueAt _).seq (.pure ⟨h.foldl_field _, rfl⟩)

theorem keeps_parseAfterPoint {object object' : Expr} : (inside close : Place line).Keeps Alike
    (parseAfterPoint g object) (parseAfterPoint g' object') := by
  have hmember : (inside close : Place line).Keeps Alike
      (do
        let _ ← parseMember
        return .field object)
      (do
        let _ ← parseMember
        return .field object') := keeps_parseMember.seq (.pure ⟨rfl, rfl, rfl, rfl, rfl⟩)
  refine (Keeps.word? "await").bind fun _ => .ite (.pure (.refl _)) (.look fun tokens => ?_)
  rcases tokens with _ | ⟨⟨method, start⟩ | _, tokens⟩
  case cons.ident =>
    refine .ite (Keeps.takeIdent.seq (.look fun tokens => ?_)) (.fail _)
    dsimp only
    rw [punct_move]
    have harguments : (inside close : Place line).Keeps Alike
        (do
          if Ahead.punct "::" tokens || Ahead.group .paren (← look) then
            return .methodCall object method (← inGroup .paren (commaList (g (.expr true))))
          return .field object)
        (do
          if Ahead.punct "::" tokens || Ahead.group .paren (← look) then
            return .methodCall object' method (← inGroup .paren (commaList (g' (.expr true))))
          return .field object') := by
      refine .look fun tokens => ?_
      rw [paren_move]
      refine .ite (.bindUpTo (.inGroup .paren fun _ => .commaList (hg.expr true)) fun _ _ _ => ?_) ?_
      all_goals exact .pure ⟨rfl, rfl, rfl, rfl, rfl⟩
    exact .ite ((Keeps.punct "::").seq ((keeps_parseAngled hg).seq harguments)) harguments
  all_goals exact hmember

theorem keeps_parseTrailers {first first' : Expr} (h : first.Alike first') :
    (inside close : Place line).Keeps Alike (parseTrailers g first) (parseTrailers g' first') := by
  refine .loopUpTo (T := Alike) (fun e e' h => .look fun tokens => ?_) h
  simp only [paren_move, bracket_move, punct_move, h.range]
  refine .ite ?_ (.ite ?_ (.ite ?_ (.ite ?_ (.done h))))
  · refine .bindUpTo (.inGroup .paren fun _ => .commaList (hg.expr true)) fun _ _ _ => ?_
    exact .again ⟨rfl, rfl, rfl, rfl, rfl⟩
  · refine .bindUpTo (.inGroup .bracket fun _ => hg.expr true) fun _ _ _ => ?_
    exact .again ⟨rfl, rfl, rfl, rfl, rfl⟩
  · refine (Keeps.punct ".").seq (.look fun tokens => ?_)
    have hpoint : (inside close : Place line).Keeps (Sum.LiftRel Alike Alike)
        (do return .inl (← parseAfterPoint g e)) (do return .inl (← parseAfterPoint g' e')) :=
      (keeps_parseAfterPoint hg).bindUpTo fun _ _ h => .again h
    rcases tokens with _ | ⟨_ | _ | ⟨_ | _ | _ | _, _⟩ | _, tokens⟩
    case cons.literal.float =>
      refine (keeps_parseFloatFields _ h).bindUpTo fun read read' hread => ?_
      rw [hread.2]
      refine .ite ?_ (.again hread.1)
      exact (keeps_parseAfterPoint hg).bindUpTo fun _ _ h => .again h
    all_goals exact hpoint
  · exact (Keeps.punct "?").seq (.again (.refl _))

theorem keeps_parseUnary (allowStruct : Bool) : (inside close : Place line).Keeps Alike
    (parseUnary g allowStruct) (parseUnary g' allowStruct) := by
  have hleading : (inside close : Place line).Keeps Alike
      (do return .leading (← g (.unary allowStruct)))
      (do return .leading (← g' (.unary allowStruct))) :=
    (hg.unary allowStruct).bindUpTo fun _ _ h => .pure (.leading h)
  refine (Attribute.keeps_parseOuter hg).bindUpTo fun attributes attributes' hattributes => ?_
  refine .look fun tokens => (Keeps.punct? "&").bind fun _ => .ite (.look fun second => ?_) ?_
  · simp only [word_move, skip_inside, anyWord_move]
    refine .ite ((Keeps.word "raw").seq ((Keeps.word? "mut").bind fun _ => ?_)) ?_
    · exact .ite hleading ((Keeps.word "const").seq hleading)
    · refine (Keeps.word? "mut").seq ((hg.unary allowStruct).bindUpTo fun _ _ h => ?_)
      exact .pure ⟨rfl, rfl, h.brace, rfl, rfl⟩
  · simp only [punct_move, drop_inside]
    refine .ite ((Keeps.continueAt _).seq hleading) (.here fun _ _ => ?_)
    refine (keeps_parseAtom hg allowStruct).bindUpTo fun e e' h => ?_
    refine (keeps_parseTrailers hg h).bindUpTo fun e e' h => ?_
    rw [h.range, isEmpty_eq_of_forall₂ hattributes]
    exact .then_seq (R := Eq) (.failAt _ _) (.pure h)

/-! ## Whole expressions -/

theorem keeps_parse (allowStruct : Bool) : (inside close : Place line).Keeps Alike
    (Expr.parse g allowStruct) (Expr.parse g' allowStruct) :=
  (keeps_parseUnary hg allowStruct).bindUpTo fun _ _ h => keeps_parseOperators hg h _ _

theorem keeps_parseEarlyAtom :
    (inside close : Place line).Keeps Alike (parseEarlyAtom g) (parseEarlyAtom g') := by
  refine .look fun tokens => ?_
  simp only [word_move, skip_inside, startsGenerics_inside, brace_inside, lifetime_move]
  refine .ite (keeps_parseIf hg) (.ite (keeps_parseWhile hg) (.ite (keeps_parseFor hg) ?_))
  refine .ite (keeps_parseLoop hg) (.ite (keeps_parseMatch hg) (.ite (keeps_parseTry hg) ?_))
  refine .ite (keeps_parseWordBody hg "unsafe") (.ite (keeps_parseWordBody hg "const") ?_)
  exact .ite (keeps_parseBraces hg) (.ite (keeps_parseLabeled hg) (keeps_parseUnary hg true))

theorem keeps_parseEarly :
    (inside close : Place line).Keeps Alike (parseEarly g) (parseEarly g') := by
  refine (Attribute.keeps_parseOuter hg).seq ((keeps_parseEarlyAtom hg).bindUpTo fun e e' h => ?_)
  refine .look fun tokens => ?_
  simp only [h.blockLike, punct_move]
  refine .ite (hg.operators h true .jump) (.ite ?_ (.pure h))
  exact (keeps_parseTrailers hg h).bindUpTo fun _ _ h => hg.operators h true .jump

end Expr

end

end JobRoster.Syntax
