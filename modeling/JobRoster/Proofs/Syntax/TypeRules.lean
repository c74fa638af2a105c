import JobRoster.Proofs.Syntax.Moving
import JobRoster.Syntax.Grammar.Ty

/-!
# Types in another place

The rules for attributes, paths, bounds and types read in a place what they read alone. What a rule
refers to is read so by a grammar that is assumed to; the circle is closed where all rules are known.
-/

namespace JobRoster.Syntax

open Syntax.Parser Place

/-! ## Trees up to lines -/

namespace Expr

def isComparison : Expr → Bool
  | .binary .compare _ _ => true
  | _ => false

def macroDelimiter? : Expr → Option Delimiter
  | .macroCall mac => some mac.delimiter
  | _ => none

/-- Expressions that decide alike how the text after them is read. -/
structure Alike (e e' : Expr) : Prop where
  range : e'.isRange = e.isRange
  blockLike : e'.isBlockLike = e.isBlockLike
  brace : e'.endsInBrace = e.endsInBrace
  comparison : e'.isComparison = e.isComparison
  delimiter : e'.macroDelimiter? = e.macroDelimiter?

theorem Alike.refl (e : Expr) : e.Alike e :=
  ⟨rfl, rfl, rfl, rfl, rfl⟩

end Expr

def Pattern.isOpenRange : Pattern → Bool
  | .openRange _ => true
  | .other => false

/-- Patterns that are told apart or not, whatever their lines. -/
def Pattern.Alike (pattern pattern' : Pattern) : Prop :=
  pattern'.isOpenRange = pattern.isOpenRange

/-! ## Grammars -/

/-- `self` and a colon at the start, as where a receiver has a type, and what follows them. -/
inductive SelfTokens : List Token → List Token → Prop
  | plain {ident : Ident} (h : ident.text = "self") (line colon : Nat) (joint : Bool)
      (rest : List Token) : SelfTokens (.ident ident line :: .punct ':' joint colon :: rest) rest
  | mutable {mark ident : Ident} (hmark : mark.text = "mut") (h : ident.text = "self")
      (start line colon : Nat) (joint : Bool) (rest : List Token) :
      SelfTokens (.ident mark start :: .ident ident line :: .punct ':' joint colon :: rest) rest

/-- Whether a type may start here, as far as dots and colons tell. -/
def MayStartType (tokens : List Token) : Prop :=
  Ahead.punct "..." tokens = false ∧
    (Ahead.punct ":" tokens = true → Ahead.punct "::" tokens = true)

/-- What keeps a receiver that only `g'` can read from being a parameter for `g`: its name is a
    pattern, and its type is read from the same tokens either way. -/
structure Grammar.ReadsReceivers (g g' : Grammar) : Prop where
  clear (close' : Nat) {tokens : List Token} {close : Nat} {stray : Option Nat} {type : Ty}
    {rest : Input} (h : g (.type true) ⟨tokens, close, stray⟩ = .ok (type, rest)) :
    ∃ type rest, g (.type true) ⟨tokens, close', none⟩ = .ok (type, rest)
  mayStart {input rest : Input} {type : Ty} (h : g' (.type true) input = .ok (type, rest)) :
    MayStartType input.tokens
  pattern {tokens after : List Token} {close : Nat} {stray : Option Nat} {pattern : Pattern}
    {rest : Input} (hself : SelfTokens tokens after) (hafter : MayStartType after)
    (h : g .pattern ⟨tokens, close, stray⟩ = .ok (pattern, rest)) :
    ∃ joint line, rest.tokens = .punct ':' joint line :: after

/-- One grammar reads in a place what another one reads alone. Only types, and what they are made
    of, have to be read in front of a group. -/
structure Grammar.Keeps (line : Nat → Nat) (g g' : Grammar) : Prop where
  lines : Function.HasLeftInverse line
  receivers : g.ReadsReceivers g'
  type {place : Place line} (allowPlus : Bool) :
    place.Keeps Eq (g (.type allowPlus)) (g' (.type allowPlus))
  genericArgument {place : Place line} :
    place.Keeps Eq (g .genericArgument) (g' .genericArgument)
  genericParam {place : Place line} : place.KeepsBefore (g .genericParam) (g' .genericParam)
  needsType (allowPlus : Bool) : NeedsToken (g (.type allowPlus))
  needsArgument : NeedsToken (g .genericArgument)
  expr {close : Nat} (allowStruct : Bool) : (inside close : Place line).Keeps Expr.Alike
    (g (.expr allowStruct)) (g' (.expr allowStruct))
  early {close : Nat} : (inside close : Place line).Keeps Expr.Alike (g .early) (g' .early)
  unary {close : Nat} (allowStruct : Bool) : (inside close : Place line).Keeps Expr.Alike
    (g (.unary allowStruct)) (g' (.unary allowStruct))
  operators {close : Nat} {left left' : Expr} (h : left.Alike left') (allowStruct : Bool)
    (atLeast : Precedence) : (inside close : Place line).Keeps Expr.Alike
      (g (.operators left allowStruct atLeast)) (g' (.operators left' allowStruct atLeast))
  pattern {close : Nat} :
    (inside close : Place line).Keeps Pattern.Alike (g .pattern) (g' .pattern)
  statements {close : Nat} :
    (inside close : Place line).Keeps Discarded (g .statements) (g' .statements)
  item {close : Nat} : (inside close : Place line).Keeps Discarded (g .item) (g' .item)
  useTree {close : Nat} (allowCrateRoot : Bool) : (inside close : Place line).Keeps Discarded
    (g (.useTree allowCrateRoot)) (g' (.useTree allowCrateRoot))
  namedFields {close : Nat} :
    (inside close : Place line).Keeps Eq (g .namedFields) (g' .namedFields)

variable {line : Nat → Nat} {place : Place line} {close : Nat} {g g' : Grammar}

/-! ## Attributes -/

theorem Path.keeps_parsePlain : place.Keeps Eq parsePlain parsePlain := by
  refine (Keeps.punct? "::").bind fun _ => .bind (.loop (fun done => .look fun tokens => ?_) []) ?_
  · simp only [ident_move, anyWord_move]
    refine .ite (Keeps.takeAnyIdent.bind fun _ => (Keeps.punct? "::").bind fun _ => ?_) (.fail _)
    exact .ite (.again rfl) (.done rfl)
  · exact fun _ => .pure rfl

theorem Path.keeps_parseWord : place.Keeps Eq parseWord parseWord :=
  Keeps.takeAnyIdent.bind fun _ => .pure rfl

section

variable (hg : Grammar.Keeps line g g')
include hg

namespace Attribute

theorem keeps_parseValue :
    (inside close : Place line).Keeps Expr.Alike (parseValue g) (parseValue g') := by
  refine .look fun tokens => ?_
  have hrest : (inside close : Place line).Keeps Expr.Alike
      (if Ahead.punct "#" tokens && Ahead.group .bracket (Ahead.skip tokens) then
        fail "unexpected attribute inside of attribute"
      else g (.expr true))
      (if Ahead.punct "#" tokens && Ahead.group .bracket (Ahead.skip tokens) then
        fail "unexpected attribute inside of attribute"
      else g' (.expr true)) := .ite (.fail _) (hg.expr true)
  simp only [literal?_move, punct_move, skip_inside, bracket_move]
  -- a literal is the value only where nothing follows it
  rcases Ahead.literal? tokens with _ | ⟨value, _ | ⟨token, rest⟩⟩
  · exact hrest
  · exact (Keeps.continueAt []).seq (.pure (.refl _))
  · exact hrest

theorem keeps_parseContent :
    (inside close : Place line).Keeps Discarded (parseContent g) (parseContent g') := by
  refine .look fun tokens => ?_
  rw [word_move]
  refine .ite (Path.keeps_parseWord.bind ?after) (Path.keeps_parsePlain.bind ?after)
  refine fun path => .look fun tokens => ?_
  have hrest : (inside close : Place line).Keeps Discarded
      (do
        if ← punct? "=" then return (⟨path, .value (← parseValue g)⟩ : Attribute)
        else return ⟨path, .word⟩)
      (do
        if ← punct? "=" then return ⟨path, .value (← parseValue g')⟩
        else return ⟨path, .word⟩) :=
    (Keeps.punct? "=").bind fun _ => .ite (keeps_parseValue hg).last (.pure trivial)
  rcases tokens with _ | ⟨_ | _, tokens⟩
  case cons.group => exact (Keeps.continueAt tokens).seq (.pure trivial)
  all_goals exact hrest

theorem keeps_parseOuter :
    place.Keeps (List.Forall₂ Discarded) (parseOuter g) (parseOuter g') := by
  refine .manyWhile (punct_move "#") ?_
  exact (Keeps.punct "#").seq (.inGroup .bracket fun _ => keeps_parseContent hg)

theorem keeps_parseInner : (inside close : Place line).Keeps Discarded
    (parseInner g) (parseInner g') := by
  refine .discard (.manyWhile (R := Discarded) (fun tokens => by simp) ?_)
  refine (Keeps.punct "#").seq ((Keeps.punct "!").seq ?_)
  exact .inGroup .bracket fun _ => keeps_parseContent hg

end Attribute

theorem keeps_parseBody : place.Keeps Discarded (parseBody g) (parseBody g') :=
  .inGroup .brace fun _ => (Attribute.keeps_parseInner hg).bindUpTo fun _ _ _ => hg.statements.last

theorem keeps_parseBlock : place.Keeps Discarded (parseBlock g) (parseBlock g') :=
  .inGroup .brace fun _ => hg.statements

omit hg in
/-- The delimiter of a macro call. -/
theorem keeps_parseMacroBody (path : Path) :
    place.Keeps (fun mac mac' => mac'.delimiter = mac.delimiter) (parseMacroBody path)
      (parseMacroBody path) :=
  Keeps.anyGroup.bindUpTo fun _ _ h => .pure h

end

section

variable (hg : Grammar.Keeps line g g')
include hg

/-! ## Paths -/

theorem keeps_parseAngled : place.Keeps Eq (parseAngled g) (parseAngled g') := by
  refine (Keeps.punct "<").seq (.seq (.separatedUntil (punct_move ">") rfl rfl ?_) (.punct ">"))
  exact .of_keeps hg.genericArgument hg.needsArgument.leavesNothing

theorem keeps_parseSegment (inExpr : Bool) :
    place.Keeps Eq (PathSegment.parse g inExpr) (PathSegment.parse g' inExpr) := by
  refine .look fun tokens => ?_
  simp only [anyWord_move, word_move]
  refine .ite (.bind .takeAnyIdent fun _ => .pure rfl) ?_
  refine .ite (.bind .takeAnyIdent ?after) (.bind .takeIdent ?after)
  refine fun ident => .look fun tokens => ?_
  simp only [punct_move, punct_drop_move]
  exact .ite ((Keeps.punct? "::").seq ((keeps_parseAngled hg).seq (.pure rfl))) (.pure rfl)

theorem keeps_parseMore (inExpr : Bool) (path : Path) :
    place.Keeps Eq (path.parseMore g inExpr) (path.parseMore g' inExpr) := by
  refine .bind (.manyWhile_eq (fun tokens => ?_) ?_) fun _ => .pure rfl
  · rw [punct_move, paren_drop_move]
  · exact (Keeps.punct "::").seq (keeps_parseSegment hg inExpr)

theorem keeps_parsePath (inExpr : Bool) :
    place.Keeps Eq (Path.parse g inExpr) (Path.parse g' inExpr) :=
  (Keeps.punct? "::").bind fun _ => (keeps_parseSegment hg inExpr).bind fun _ =>
    keeps_parseMore hg inExpr _

theorem keeps_parseQualified (inExpr : Bool) :
    place.Keeps Eq (Path.parseQualified g inExpr) (Path.parseQualified g' inExpr) := by
  refine (Keeps.punct? "<").bind fun _ => ?_
  refine .ite ?_ ((keeps_parsePath hg inExpr).bind fun _ => .pure rfl)
  refine (hg.type true).seq ((Keeps.word? "as").bind fun _ => ?_)
  refine .then_seq (keeps_parsePath hg false) ?_
  refine (Keeps.punct ">").seq ((Keeps.punct "::").seq ?_)
  refine .bind (.loop (fun done => ?_) []) fun _ => .pure rfl
  refine (keeps_parseSegment hg inExpr).bind fun _ => (Keeps.punct? "::").bind fun _ => ?_
  exact .ite (.again rfl) (.done rfl)

theorem keeps_parseResult? (allowPlus : Bool) :
    place.Keeps Eq (parseResult? g allowPlus) (parseResult? g' allowPlus) :=
  (Keeps.punct? "->").bind fun _ => .ite ((hg.type allowPlus).bind fun _ => .pure rfl) (.pure rfl)

theorem keeps_parseCallArguments (path : Path) :
    place.Keeps Eq (path.parseCallArguments g) (path.parseCallArguments g') := by
  refine .look fun tokens => ?_
  simp only [paren_move, punct_move, paren_drop_move]
  split
  · refine .ite ((Keeps.punct? "::").seq ?_) (.pure rfl)
    refine .seq (.inGroup .paren fun _ => .commaList (hg.type true)) ?_
    exact (keeps_parseResult? hg false).bind fun _ => .pure rfl
  · exact .pure rfl

/-! ## Bounds -/

namespace Bound

theorem keeps_parseBinder? : place.Keeps Eq (parseBinder? g) (parseBinder? g') := by
  refine (Keeps.word? "for").bind fun _ => .ite ?_ (.pure rfl)
  refine (Keeps.punct "<").seq (.seq (.separatedUntil (punct_move ">") rfl rfl hg.genericParam) ?_)
  exact (Keeps.punct ">").seq (.pure rfl)

theorem keeps_parseTrait (rules : BoundRules) :
    place.Keeps Eq (parseTrait g rules) (parseTrait g' rules) := by
  refine (keeps_parseBinder? hg).bind fun bound => .here fun line line' => .look fun tokens => ?_
  rw [bracket_move]
  refine .ite (.seq (.inGroup .bracket fun _ => .word "const") (.bind (.pure rfl) ?bound))
    (.bind (.word? _) ?bound)
  refine fun isConst => .then_seq (R := Eq) (.failAt _ _) ?_
  refine .here fun _ _ => (Keeps.punct? "?").bind fun optional => ?_
  refine .ite (.bind (keeps_parseBinder? hg) ?path) (.bind (.pure rfl) ?path)
  refine fun bound => (keeps_parsePath hg false).bind fun path => ?_
  refine (keeps_parseCallArguments hg path).bind fun read => ?_
  exact .then_seq (R := Eq) (.failAt _ _) (.pure rfl)

omit hg in
theorem keeps_parseCapture : place.Keeps Eq parseCapture parseCapture := by
  refine (Keeps.punct "<").seq (.seq (.separatedUntil (punct_move ">") rfl rfl ?_) (.punct ">"))
  refine .look (needsToken_fail _).leavesNothing fun tokens _ => ?_
  simp only [lifetime_move, ident_move, word_move]
  refine .ite (.of_needsToken .takeLifetime needsToken_takeLifetime) (.ite ?_ (.fail _))
  exact (KeepsBefore.of_needsToken .takeAnyIdent needsToken_takeAnyIdent).bind fun _ => .pure _

theorem keeps_parse (rules : BoundRules) : place.Keeps Eq (parse g rules) (parse g' rules) := by
  refine .look fun tokens => ?_
  simp only [lifetime_move, word_move, paren_move]
  refine .ite (Keeps.takeLifetime.seq (.pure rfl)) (.ite ?_ ?_)
  · refine .here fun _ _ => (Keeps.word "use").seq (keeps_parseCapture.seq ?_)
    exact .else_seq (R := Eq) (.failAt _ _) (.pure rfl)
  · exact .ite (.inGroup .paren fun _ => keeps_parseTrait hg rules) (keeps_parseTrait hg rules)

omit hg in
@[simp] theorem starts_move (rules : BoundRules) (tokens : List Token) :
    starts rules (place.move tokens) = starts rules tokens := by
  simp [starts]

theorem keeps_parseMore (rules : BoundRules) (first : List Bound) :
    place.Keeps Eq (parseMore g rules first) (parseMore g' rules first) := by
  refine .loop (fun done => (Keeps.punct? "+").bind fun _ => ?_) _
  refine .ite (.look fun tokens => ?_) (.done rfl)
  rw [starts_move]
  exact .ite ((keeps_parse hg rules).bind fun _ => .again rfl) (.done rfl)

theorem keeps_parseSum (rules : BoundRules) (allowPlus : Bool) :
    place.Keeps Eq (parseSum g rules allowPlus) (parseSum g' rules allowPlus) :=
  (keeps_parse hg rules).bind fun _ => .ite (keeps_parseMore hg rules _) (.pure rfl)

end Bound

/-! ## Generic arguments -/

theorem keeps_parseConst : place.Keeps Eq (parseConst g) (parseConst g') := by
  refine .look_before (fun _ _ _ _ h => fail_ne_ok h) fun tokens htokens => ?_
  simp only [literal_move, ident_move, brace_move htokens]
  refine .ite (Keeps.takeLiteral.seq (.pure rfl)) ?_
  refine .ite (Keeps.takeIdent.seq (.pure rfl)) (.ite ?_ (.fail _))
  exact (keeps_parseBody hg).seq (.pure rfl)

/-- What is a constant or a type. -/
theorem keeps_constOrType : place.Keeps Eq
    (do if startsConst (← look) then parseConst g else let _ ← g (.type true))
    (do if startsConst (← look) then parseConst g' else let _ ← g' (.type true)) := by
  -- a group in braces would be read as a constant, but something has to come before it
  have hnil : NeedsToken (do let _ ← g (.type true) : Parser Unit) := (hg.needsType true).bind
  refine .look_before (fun input a rest hempty => hnil input a rest hempty) fun tokens htokens => ?_
  simp only [startsConst, literal_move, brace_move htokens]
  exact .ite (keeps_parseConst hg) ((hg.type true).seq (.pure rfl))

theorem keeps_parseGenericArgument :
    place.Keeps Eq (parseGenericArgument g) (parseGenericArgument g') := by
  refine .look_before ?_ fun tokens htokens => ?_
  · intro input a rest hempty h
    exact (hg.needsType true).bind input a rest hempty h
  · simp only [lifetime_move, punct_skip_move, startsConst, literal_move, brace_move htokens]
    refine .ite .takeLifetime (.ite (keeps_parseConst hg) ?_)
    refine (hg.type true).bind fun type => .ite ?_ (.pure rfl)
    refine (Keeps.punct? "=").bind fun _ => .ite (keeps_constOrType hg) ?_
    refine (Keeps.punct? ":").bind fun _ => .ite (.separatedUnless (fun _ => ?_) _ ?_) (.pure rfl)
    · simp only [punct_move]
    · exact (Bound.keeps_parse hg .param).seq (.pure rfl)

/-! ## Types -/

namespace Ty

omit hg in
theorem keeps_parseAbi? : place.Keeps Eq parseAbi? parseAbi? := by
  refine (Keeps.word? "extern").bind fun _ => .ite (.look fun tokens => ?_) (.pure rfl)
  rw [stringLiteral_move]
  exact .then_seq .takeLiteral (.pure rfl)

theorem keeps_parseFunctionArgument (first : Bool) : (inside close : Place line).Keeps Eq
    (parseFunctionArgument g first) (parseFunctionArgument g' first) := by
  have htype : (inside close : Place line).Keeps Eq (do let _ ← g (.type true) : Parser Unit)
      (do let _ ← g' (.type true)) := (hg.type true).seq (.pure rfl)
  refine .look fun tokens => ?_
  simp only [word_move, skip_inside]
  refine .then_seq (.word "mut") (.look fun tokens => ?_)
  simp only [ident_move, word_move, punct_move, skip_inside]
  refine .ite (Keeps.takeAnyIdent.seq ((Keeps.punct ":").seq htype)) ?_
  exact .ite (.word "self") htype

theorem keeps_parseFunctionArguments : (inside close : Place line).Keeps Eq
    (parseFunctionArguments g) (parseFunctionArguments g') := by
  refine .loop (fun first => Keeps.isEnd.bind fun _ => .ite (.done rfl) ?_) true
  refine (Attribute.keeps_parseOuter hg).seq (.look fun tokens => ?_)
  simp only [startsVariadic, identOrWord_move, ident_move, word_move, punct_move, skip_inside]
  refine .ite (.ite (Keeps.takeAnyIdent.seq ((Keeps.punct ":").seq ?dots)) ?dots) ?_
  · exact (Keeps.punct "...").seq ((Keeps.punct? ",").seq (.done rfl))
  · refine (keeps_parseFunctionArgument hg first).seq (Keeps.isEnd.bind fun _ => ?_)
    exact .ite (.done rfl) ((Keeps.punct ",").seq (.again rfl))

theorem keeps_parseFunction : place.Keeps Eq (parseFunction g) (parseFunction g') := by
  refine (Keeps.word? "unsafe").seq (keeps_parseAbi?.seq ((Keeps.word "fn").seq ?_))
  refine .seq (.inGroup .paren fun _ => keeps_parseFunctionArguments hg) ?_
  exact (keeps_parseResult? hg false).bind fun _ => .pure rfl

theorem keeps_parseObject (line line' : Nat) (allowPlus : Bool) :
    place.Keeps Eq (parseObject g line allowPlus) (parseObject g' line' allowPlus) := by
  refine (Bound.keeps_parseSum hg .object allowPlus).bind fun read => ?_
  exact .else_seq (R := Eq) (.failAt _ _) (.pure rfl)

theorem keeps_parseSumAfter (first : Bool) :
    place.Keeps Eq (parseSumAfter g first) (parseSumAfter g' first) := by
  refine .bind (.manyWhile_eq (punct_move "+") ?_) fun _ => .pure rfl
  exact (Keeps.punct "+").seq (Bound.keeps_parse hg .object)

theorem keeps_parseParenthesized : (inside close : Place line).Keeps Eq
    (parseParenthesized g) (parseParenthesized g') := by
  refine .look fun tokens => ?_
  simp only [isEmpty_inside, lifetime_move, punct_move]
  refine .ite (.pure rfl) (.ite (.here fun _ _ => ?_) (.ite ?_ ?_))
  · exact (keeps_parseObject hg _ _ true).seq (.pure rfl)
  · exact (Bound.keeps_parseTrait hg .object).bind fun _ => .pure rfl
  · refine (hg.type true).bind fun _ => (Keeps.punct? ",").bind fun _ => .ite ?_ (.pure rfl)
    exact (Keeps.commaList (hg.type true)).seq (.pure rfl)

theorem keeps_parseParen (allowPlus : Bool) :
    place.Keeps Eq (parseParen g allowPlus) (parseParen g' allowPlus) := by
  refine .bind (.inGroup .paren fun _ => keeps_parseParenthesized hg) fun content => ?_
  -- more bounds may follow some of the forms, whatever they hold
  rcases content with _ | _ | _ | first
  case type =>
    refine .look fun tokens => ?_
    rw [punct_move]
    refine .ite ?_ (.pure rfl)
    rcases first with _ | _ | ⟨_ | _, _⟩ | _
    all_goals first | exact keeps_parseSumAfter hg _ | exact .pure rfl
  all_goals first | exact keeps_parseSumAfter hg _ | exact .pure rfl

omit hg in
@[simp] theorem startsPath_move (tokens : List Token) :
    startsPath (place.move tokens) = startsPath tokens := by
  simp [startsPath]

theorem keeps_parsePath : place.Keeps Eq (parsePath g) (parsePath g') := by
  refine (keeps_parseQualified hg false).bind fun read => ?_
  refine (keeps_parseCallArguments hg read.2).bind fun called => ?_
  obtain ⟨path, _ | _ | _ | _⟩ := called
  all_goals
    first | exact .pure rfl | exact (keeps_parseMore hg false path).bind fun _ => .pure rfl

theorem keeps_parseNamed (binder allowPlus : Bool) :
    place.Keeps Eq (parseNamed g binder allowPlus) (parseNamed g' binder allowPlus) := by
  refine (keeps_parsePath hg).bind fun read => .ite (.pure rfl) (.look fun tokens => ?_)
  simp only [punct_move]
  refine .ite ((Keeps.punct "!").seq ((keeps_parseMacroBody _).bindUpTo fun mac mac' h => ?_)) ?_
  · exact .pure (by rw [h])
  · refine .ite (.ite ?_ (.bind (.pure rfl) fun _ => .pure rfl)) (.pure rfl)
    exact (Bound.keeps_parseMore hg .object _).bind fun _ => .pure rfl

theorem keeps_parse (allowPlus : Bool) :
    place.Keeps Eq (Ty.parse g allowPlus) (Ty.parse g' allowPlus) := by
  refine .here fun line line' => (Bound.keeps_parseBinder? hg).bind fun binder => ?_
  refine .look fun tokens => ?_
  simp only [startsPath_move, anyWord_move, word_move, paren_move, punct_move, bracket_move,
    lifetime_move]
  refine .ite (.fail _) (.ite (keeps_parseParen hg allowPlus) ?_)
  refine .ite (keeps_parseFunction hg) (.ite (keeps_parseNamed hg binder allowPlus) ?_)
  refine (Keeps.word? "dyn").bind fun _ => .ite ?dyn (.ite ?bracket ?_)
  case dyn =>
    refine (Keeps.punct? "*").seq ?_
    exact (keeps_parseObject hg line line' allowPlus).bind fun _ => .pure rfl
  case bracket =>
    refine .seq (R := Eq) (.inGroup .bracket fun _ => (hg.type true).seq ?_) (.pure rfl)
    exact (Keeps.punct? ";").bind fun _ => .ite ((hg.expr true).seq (.pure rfl)) (.pure rfl)
  refine (Keeps.punct? "*").bind fun _ => .ite ?_ ?_
  · have hpointee : place.Keeps Eq (do return other (← g (.type false)).endsInBrace)
        (do return other (← g' (.type false)).endsInBrace) := (hg.type false).bind fun _ => .pure rfl
    refine (Keeps.word? "const").bind fun _ => .ite hpointee ?_
    exact (Keeps.word? "mut").bind fun _ => .else_seq (R := Eq) (.fail _) hpointee
  refine (Keeps.punct? "&").bind fun _ => .ite ?_ ?_
  · refine Keeps.takeLifetime?.seq ((Keeps.word? "mut").seq ?_)
    exact (hg.type false).bind fun _ => .pure rfl
  refine .ite ((Keeps.punct "!").seq (.pure rfl)) ?_
  refine (Keeps.word? "impl").bind fun _ => .ite ?_ ?_
  · refine (Bound.keeps_parseSum hg .impl allowPlus).bind fun _ => ?_
    exact .else_seq (R := Eq) (.failAt _ _) (.pure rfl)
  refine (Keeps.word? "_").bind fun _ => .ite (.pure rfl) (.ite ?_ (.fail _))
  exact (keeps_parseObject hg line line' allowPlus).bind fun _ => .pure rfl

end Ty

/-! ## Generic parameters -/

omit hg in
theorem endsParamBounds_move {tokens : List Token} (h : place.Hidden tokens) :
    endsParamBounds (place.move tokens) = endsParamBounds tokens := by
  simp only [endsParamBounds, isEmpty_move h, punct_move]

omit hg in
theorem keeps_parseLifetimeBounds {stop : List Token → Bool} (hnil : stop [] = true)
    (hstop : ∀ tokens, place.Hidden tokens → stop (place.move tokens) = stop tokens) :
    place.KeepsBefore (parseLifetimeBounds stop) (parseLifetimeBounds stop) :=
  .separatedUnless hstop hnil "+" (.of_needsToken .takeLifetime needsToken_takeLifetime)

omit hg in
theorem needsToken_parseBound (g : Grammar) (rules : BoundRules) :
    NeedsToken (Bound.parse g rules) := by
  rintro ⟨tokens, close, stray⟩ a rest rfl h
  cases h

omit hg in
theorem needsToken_parseType (g : Grammar) (allowPlus : Bool) :
    NeedsToken (Ty.parse g allowPlus) := by
  rintro ⟨tokens, close, stray⟩ a rest rfl h
  cases h

theorem keeps_parseTypeBounds {stop : List Token → Bool} (hnil : stop [] = true)
    (hstop : ∀ tokens, place.Hidden tokens → stop (place.move tokens) = stop tokens) :
    place.KeepsBefore (parseTypeBounds g stop) (parseTypeBounds g' stop) := by
  refine .separatedUnless hstop hnil "+" ?_
  exact (KeepsBefore.of_needsToken (Bound.keeps_parse hg .param) (needsToken_parseBound g _)).bind
    fun _ => .pure _

theorem keepsBefore_type (allowPlus : Bool) :
    place.KeepsBefore (g (.type allowPlus)) (g' (.type allowPlus)) :=
  .of_needsToken (hg.type allowPlus) (hg.needsType allowPlus)

theorem keeps_parseGenericParamContent :
    place.KeepsBefore (parseGenericParamContent g) (parseGenericParamContent g') := by
  refine .look ?_ fun tokens _ => ?_
  · rintro ⟨tokens, close, stray⟩ a rest rfl h
    cases h
  simp only [lifetime_move, ident_move]
  refine .ite ?_ (.ite ?_ ?_)
  · refine (KeepsBefore.of_needsToken .takeLifetime needsToken_takeLifetime).bind fun _ => ?_
    refine (KeepsBefore.punct? ":").bind fun _ => .ite ?_ (.pure _)
    exact keeps_parseLifetimeBounds rfl fun tokens => endsParamBounds_move
  · refine (KeepsBefore.of_needsToken .takeIdent needsToken_takeIdent).bind fun _ => ?_
    refine (KeepsBefore.punct? ":").bind fun _ => .then_seq ?_ ?_
    -- bounds may end where nothing follows, and then what stands behind could be looked at
    · refine keeps_parseTypeBounds hg rfl fun tokens htokens => ?_
      rw [endsParamBounds_move htokens, punct_move]
    · exact (KeepsBefore.punct? "=").bind fun _ =>
        .ite ((keepsBefore_type hg true).bind fun _ => .pure _) (.pure _)
  · refine (KeepsBefore.word? "const").bind fun _ => .ite ?_ (.fail _)
    refine (KeepsBefore.of_needsToken .takeIdent needsToken_takeIdent).bind fun _ => ?_
    refine (KeepsBefore.of_needsToken (.punct ":") (needsToken_punct rfl)).bind fun _ => ?_
    refine (keepsBefore_type hg true).bind fun _ => (KeepsBefore.punct? "=").bind fun _ => ?_
    refine .ite (.of_needsToken (keeps_parseConst hg) ?_) (.pure _)
    rintro ⟨tokens, close, stray⟩ a rest rfl h
    cases h

theorem keeps_parseGenericParam :
    place.KeepsBefore (parseGenericParam g) (parseGenericParam g') := by
  refine .seq (Attribute.keeps_parseOuter hg) ?_ (keeps_parseGenericParamContent hg)
  rintro ⟨tokens, close, stray⟩ a rest rfl h
  obtain ⟨-, rfl⟩ := Prod.mk.inj (Except.ok.inj h)
  rfl

theorem keeps_parseGenerics? : (inside close : Place line).Keeps Eq
    (parseGenerics? g) (parseGenerics? g') := by
  refine (Keeps.punct? "<").bind fun _ => .ite ?_ (.pure rfl)
  refine .bind (.loop (fun count => .look fun tokens => ?_) 0) fun _ =>
    (Keeps.punct ">").seq (.pure rfl)
  rw [punct_move]
  refine .ite (.done rfl) ((Attribute.keeps_parseOuter hg).seq ((Keeps.word? "_").bind fun _ => ?_))
  refine .else_seq (keeps_parseGenericParamContent hg).keeps_inside (.look fun tokens => ?_)
  rw [punct_move]
  exact .ite (.done rfl) ((Keeps.punct ",").seq (.again rfl))

omit hg in
@[simp] theorem startsGenerics_inside (tokens : List Token) :
    startsGenerics ((inside close : Place line).move tokens) = startsGenerics tokens := by
  simp [startsGenerics]

omit hg in
@[simp] theorem endsWhere_inside (tokens : List Token) :
    endsWhere ((inside close : Place line).move tokens) = endsWhere tokens := by
  simp [endsWhere]

theorem keeps_parsePredicate :
    (inside close : Place line).Keeps Eq (parsePredicate g) (parsePredicate g') := by
  refine .look fun tokens => ?_
  simp only [lifetime_move, skip_inside, punct_move]
  refine .ite (Keeps.takeLifetime.seq ((Keeps.punct ":").seq ?_)) ?_
  · refine (keeps_parseLifetimeBounds rfl fun tokens _ => ?_).keeps_inside
    rw [endsWhere_inside, punct_move]
  · refine (Bound.keeps_parseBinder? hg).seq ((hg.type true).seq ((Keeps.punct ":").seq ?_))
    exact (keeps_parseTypeBounds hg rfl fun tokens _ => endsWhere_inside tokens).keeps_inside

theorem keeps_parseWhere? :
    (inside close : Place line).Keeps Eq (parseWhere? g) (parseWhere? g') := by
  refine (Keeps.word? "where").bind fun _ => .ite (.look fun tokens => ?_) (.pure rfl)
  rw [startsGenerics_inside]
  refine .then_seq (R := Eq) (.fail _) ?_
  refine .seq (.separatedUnless (fun tokens => ?_) "," ?_) (.pure rfl)
  · exact endsWhere_inside tokens
  · exact keeps_parsePredicate hg

end

end JobRoster.Syntax
