import JobRoster.Proofs.Syntax.Composing
import JobRoster.Proofs.Syntax.ExprRules
import JobRoster.Syntax.Grammar.Item

/-!
# Items in another place

The rules for items read inside of a group in a place what they read alone. What an item is kept as
does not matter there: a type holds items only in the blocks of its constants.
-/

namespace JobRoster.Syntax

open Syntax.Parser Place

variable {line : Nat → Nat} {close : Nat} {g g' : Grammar}

/-! ## Visibility -/

theorem keeps_parseRestriction (close : Nat) :
    (inside close : Place line).Keeps Eq parseRestriction parseRestriction := by
  refine (Keeps.word? "in").bind fun _ => .ite (Path.keeps_parsePlain.bind fun _ => .pure rfl) ?_
  refine .look fun tokens => ?_
  rw [anyWord_move]
  refine .ite (Path.keeps_parseWord.bind fun _ => Keeps.isEnd.bind fun _ => ?_) (.failAt _ _)
  exact .ite (.pure rfl) (.failAt _ _)

@[simp] theorem startsInPath_inside (tokens : List Token) :
    startsInPath ((inside close : Place line).move tokens) = startsInPath tokens := by
  rcases tokens with _ | ⟨_ | _ | _ | ⟨_ | _, content, start, close⟩, tokens⟩
  case cons.group.paren =>
    have hword := @word_move line (inside close) "in" content
    rw [move_inside] at hword
    exact hword
  all_goals rfl

theorem Visibility.keeps_parse (hline : Function.HasLeftInverse line) :
    (inside close : Place line).Keeps Eq Visibility.parse Visibility.parse := by
  obtain ⟨back, hback⟩ := hline
  refine (Keeps.word? "pub").bind fun _ => .ite (.look fun tokens => ?_) (.pure rfl)
  rw [startsInPath_inside]
  refine .ite (.bind (.inGroup .paren keeps_parseRestriction) fun path => ?_) ?_
  · cases path <;> exact .pure rfl
  -- parentheses that hold no restriction are left for a tuple
  · refine .attempt_same hback (fun _ => .inGroup .paren keeps_parseRestriction)
      (.inGroup .paren keeps_parseRestriction) ?_ (.pure rfl)
    rintro path - rfl
    cases path <;> exact .pure rfl

/-! ## Receivers -/

theorem keeps_parseReceiver
    (htype : (inside close : Place line).Keeps Eq (g (.type true)) (g' (.type true))) :
    (inside close : Place line).Keeps Eq (parseReceiver g) (parseReceiver g') := by
  refine (Keeps.punct? "&").bind fun reference => ?_
  have hself : (inside close : Place line).Keeps Eq
      (do
        let _ ← word? "mut"
        word "self"
        unless reference do
          if ← punct? ":" then
            let _ ← g (.type true))
      (do
        let _ ← word? "mut"
        word "self"
        unless reference do
          if ← punct? ":" then
            let _ ← g' (.type true)) := by
    refine (Keeps.word? "mut").seq ((Keeps.word "self").seq (.ite (.pure rfl) ?_))
    exact (Keeps.punct? ":").bind fun _ => .ite (htype.seq (.pure rfl)) (.pure rfl)
  exact .then_seq .takeLifetime? hself

/-- A grammar that reads nothing. -/
def Grammar.empty : Grammar :=
  fun _ => fail "nothing to read"

theorem parseReceiver_self {tokens after : List Token} (h : SelfTokens tokens after) (close : Nat)
    (stray : Option Nat) :
    parseReceiver g ⟨tokens, close, stray⟩ =
      (do let _ ← g (.type true) : Parser Unit) ⟨after, close, stray⟩ := by
  cases h with
  | plain h =>
    simp [parseReceiver, bind_apply, punct?_apply, word?_apply, word_apply, pure_apply, h,
      Ahead.punct, Ahead.punctChars, Ahead.word]
    rfl
  | mutable hmark h =>
    simp [parseReceiver, bind_apply, punct?_apply, word?_apply, word_apply, pure_apply, h, hmark,
      Ahead.punct, Ahead.punctChars, Ahead.word]
    rfl

/-- Without a colon behind `self` no type is read. -/
theorem parseSelf_eq {tokens : List Token}
    (h : ∀ ident line joint colon rest,
      tokens = .ident ident line :: .punct ':' joint colon :: rest → ident.text ≠ "self")
    (g g' : Grammar) (close : Nat) (stray : Option Nat) :
    (do word "self"; if ← punct? ":" then let _ ← g (.type true) : Parser Unit)
        ⟨tokens, close, stray⟩ =
      (do word "self"; if ← punct? ":" then let _ ← g' (.type true) : Parser Unit)
        ⟨tokens, close, stray⟩ := by
  rcases tokens with _ | ⟨⟨ident, line⟩ | _, rest⟩
  case cons.ident =>
    by_cases hself : ident.text = "self"
    · have hcolon : Ahead.punct ":" rest = false := by
        rcases rest with _ | ⟨_ | ⟨c, joint, colon⟩ | _ | _, rest⟩
        case cons.punct =>
          refine decide_eq_false fun hc => ?_
          obtain rfl : c = ':' := hc
          exact h ident line joint colon rest rfl hself
        all_goals rfl
      simp [bind_apply, word_apply, punct?_apply, pure_apply, Ahead.word, hself, hcolon]
    · simp only [bind_apply, word_apply, Ahead.word, hself, decide_false, Bool.false_eq_true,
        if_false]
      rfl
  all_goals rfl

theorem parseReceiver_eq {tokens : List Token} (h : ∀ after, ¬ SelfTokens tokens after)
    (g g' : Grammar) (close : Nat) (stray : Option Nat) :
    parseReceiver g ⟨tokens, close, stray⟩ = parseReceiver g' ⟨tokens, close, stray⟩ := by
  rw [parseReceiver, parseReceiver, bind_apply, bind_apply, punct?_apply]
  cases Ahead.punct "&" tokens with
  | true => rfl
  | false =>
    have hno (rest : List Token) (hrest : tokens = rest ∨
        ∃ mark start, mark.text = "mut" ∧ tokens = .ident mark start :: rest)
        (ident : Ident) (line : Nat) (joint : Bool) (colon : Nat) (after : List Token)
        (heq : rest = .ident ident line :: .punct ':' joint colon :: after) :
        ident.text ≠ "self" := by
      subst heq
      intro hself
      obtain rfl | ⟨mark, start, hmark, rfl⟩ := hrest
      · exact h after (.plain hself _ _ _ _)
      · exact h after (.mutable hmark hself _ _ _ _ _)
    have hself (rest : List Token) (hrest : tokens = rest ∨
        ∃ mark start, mark.text = "mut" ∧ tokens = .ident mark start :: rest) :=
      parseSelf_eq (hno rest hrest) g g' close stray
    simp only [Bool.false_eq_true, if_false]
    rcases tokens with _ | ⟨⟨ident, line⟩ | _, rest⟩
    case cons.ident =>
      rw [bind_apply, bind_apply, word?_apply]
      by_cases hmut : ident.text = "mut"
      · simpa [Ahead.word, hmut] using hself rest (.inr ⟨ident, line, hmut, rfl⟩)
      · simpa [Ahead.word, hmut] using hself _ (.inl rfl)
    all_goals rfl

theorem SelfTokens.move {tokens after : List Token} (h : SelfTokens tokens after) :
    SelfTokens ((inside close : Place line).move tokens)
      ((inside close : Place line).move after) := by
  cases h with
  | plain h => exact .plain h _ _ _ _
  | mutable hmark h => exact .mutable hmark h _ _ _ _ _

theorem SelfTokens.of_move {tokens after : List Token}
    (h : SelfTokens ((inside close : Place line).move tokens) after) :
    ∃ after, SelfTokens tokens after := by
  generalize hmoved : (inside close : Place line).move tokens = moved at h
  rw [move_inside] at hmoved
  cases h with
  | plain h =>
    rcases tokens with _ | ⟨_ | _, _ | ⟨_ | _, tokens⟩⟩ <;> cases hmoved
    exact ⟨tokens, .plain h _ _ _ _⟩
  | mutable hmark h =>
    rcases tokens with _ | ⟨_ | _, _ | ⟨_ | _, _ | ⟨_ | _, tokens⟩⟩⟩ <;> cases hmoved
    exact ⟨tokens, .mutable hmark h _ _ _ _ _⟩

theorem SelfTokens.not_ident {tokens after : List Token} (h : SelfTokens tokens after) :
    Ahead.ident tokens = false := by
  cases h with
  | plain h => simp [Ahead.ident, h, Ahead.reserved]
  | mutable hmark h => simp [Ahead.ident, hmark, Ahead.reserved]

section

variable (hg : Grammar.Keeps line g g')
include hg

/-! ## Functions -/

/-- A receiver whose type only `g'` can read is no other parameter for `g`. -/
theorem not_parameter_of_receiver {input input' rest : Input} {u : Unit}
    (hmoved : (inside close : Place line).Moved input input')
    (hfails : ∀ u rest, parseReceiver g { input with stray := none } ≠ .ok (u, rest))
    (hread : parseReceiver g' { input' with stray := none } = .ok (u, rest)) :
    ∃ after, SelfTokens input.tokens after ∧ MayStartType after ∧
      ∀ close stray type rest, g (.type true) ⟨after, close, stray⟩ ≠ .ok (type, rest) := by
  have hself : ∃ after, SelfTokens input.tokens after := by
    by_contra hno
    -- then the grammar is not asked, and the same is read by one that reads nothing
    have hno' : ∀ after, ¬ SelfTokens input'.tokens after := fun after h =>
      hno (SelfTokens.of_move (hmoved.tokens ▸ h))
    rw [parseReceiver_eq hno' g' .empty] at hread
    obtain ⟨back, hback⟩ := hg.lines
    obtain ⟨u, rest, hok⟩ := Keeps.exists_ok_of_moved hback
      (fun close => keeps_parseReceiver (.fail _)) hmoved hread
    refine hfails u rest ?_
    rw [parseReceiver_eq (fun after h => hno ⟨after, h⟩) g .empty]
    exact hok
  obtain ⟨after, hself⟩ := hself
  have hread' : (do let _ ← g' (.type true) : Parser Unit)
      ⟨(inside close : Place line).move after, input'.close, none⟩ = .ok (u, rest) := by
    rw [← parseReceiver_self hself.move, ← hmoved.tokens]
    exact hread
  obtain ⟨type, next, htype, -⟩ := bind_eq_ok_iff.1 hread'
  refine ⟨after, hself, by simpa [MayStartType] using hg.receivers.mayStart htype, ?_⟩
  intro close' stray type rest htype
  obtain ⟨type, rest, hclear⟩ := hg.receivers.clear input.close htype
  refine hfails () rest ?_
  rw [parseReceiver_self hself]
  exact bind_eq_ok_iff.2 ⟨type, rest, hclear, rfl⟩

theorem keeps_parseParameter (before : Parameters) : (inside close : Place line).Keeps Eq
    (parseParameter g before) (parseParameter g' before) := by
  intro input input' rest after hmoved hp
  rw [parseParameter, look_bind] at hp ⊢
  rw [hmoved.tokens]
  simp only [ident_move, skip_inside, punct_move]
  refine Keeps.attempt_bind (R := Eq) (keeps_parseReceiver (hg.type true)) ?_ ?_ ?_ hmoved hp
  · rintro _ _ -
    exact .ite (.failAt _ _) (.ite (.failAt _ _) (.pure rfl))
  · refine .ite ((hg.type true).seq (.pure rfl)) (hg.pattern.seq ((Keeps.punct ":").seq ?_))
    refine (Keeps.punct? "...").bind fun _ => .ite (.pure rfl) ((hg.type true).seq (.pure rfl))
  · rintro hfails ⟨u, next, hread⟩ hparameter
    -- its name would be a pattern, but then its type would have to be read after all
    obtain ⟨after, hself, hstart, hnot⟩ := not_parameter_of_receiver hg hmoved hfails hread
    dsimp only at hparameter
    rw [hself.not_ident, Bool.false_and, if_neg Bool.false_ne_true] at hparameter
    obtain ⟨pattern, next, hpattern, hparameter⟩ := bind_eq_ok_iff.1 hparameter
    obtain ⟨joint, colon, hnext⟩ := hg.receivers.pattern hself hstart hpattern
    obtain ⟨u, next', hcolon, hparameter⟩ := bind_eq_ok_iff.1 hparameter
    obtain rfl := (punct_eq_ok_iff.1 hcolon).2
    obtain ⟨dots, next', hdots, hparameter⟩ := bind_eq_ok_iff.1 hparameter
    have hafter : next.tokens.drop ":".length = after := by rw [hnext]; rfl
    rw [hafter, punct?_eq_false hstart.1] at hdots
    obtain ⟨rfl, rfl⟩ := Prod.mk.inj (Except.ok.inj hdots)
    obtain ⟨type, rest, htype, -⟩ := bind_eq_ok_iff.1 hparameter
    exact hnot _ _ _ _ htype

theorem keeps_parseParameters :
    (inside close : Place line).Keeps Eq (parseParameters g) (parseParameters g') := by
  refine .loop (fun before => Keeps.isEnd.bind fun _ => .ite (.done rfl) ?_) _
  refine (Attribute.keeps_parseOuter hg).seq ((Keeps.punct? "...").bind fun dots => ?_)
  refine .ite (.bind (.pure rfl) ?after) (.bind (keeps_parseParameter hg before) ?after)
  rintro (_ | after)
  · exact Keeps.isEnd.bind fun _ => .else_seq (.punct ",") (.done rfl)
  · exact Keeps.isEnd.bind fun _ => .ite (.done rfl) ((Keeps.punct ",").seq (.again rfl))

theorem keeps_parseSignature (allowSafe : Bool) : (inside close : Place line).Keeps Eq
    (parseSignature g allowSafe) (parseSignature g' allowSafe) := by
  refine (Keeps.word? "const").seq ((Keeps.word? "async").seq ?_)
  refine (Keeps.word? "unsafe").bind fun _ => ?_
  refine .then_seq (.word? "safe") (Ty.keeps_parseAbi?.seq ((Keeps.word "fn").seq ?_))
  refine Keeps.takeIdent.bind fun ident => (keeps_parseGenerics? hg).seq ?_
  refine .seq (.inGroup .paren fun _ => keeps_parseParameters hg) ?_
  exact (keeps_parseResult? hg true).seq ((keeps_parseWhere? hg).seq (.pure rfl))

omit hg in
@[simp] theorem skipIf_word_inside (spelling : String) (tokens : List Token) :
    Ahead.skipIf (Ahead.word spelling) ((inside close : Place line).move tokens) =
      (inside close : Place line).move (Ahead.skipIf (Ahead.word spelling) tokens) := by
  simp only [Ahead.skipIf, word_move, skip_inside, ← apply_ite]

omit hg in
@[simp] theorem skipIf_stringLiteral_inside (tokens : List Token) :
    Ahead.skipIf Ahead.stringLiteral ((inside close : Place line).move tokens) =
      (inside close : Place line).move (Ahead.skipIf Ahead.stringLiteral tokens) := by
  simp only [Ahead.skipIf, stringLiteral_move, skip_inside, ← apply_ite]

omit hg in
@[simp] theorem startsSignature_inside (allowSafe : Bool) (tokens : List Token) :
    startsSignature allowSafe ((inside close : Place line).move tokens) =
      startsSignature allowSafe tokens := by
  simp only [startsSignature, skipIf_word_inside, word_move, skip_inside, ← apply_ite,
    skipIf_stringLiteral_inside]

/-! ## Constants and type aliases -/

theorem keeps_parseConstItem : (inside close : Place line).Keeps Discarded
    (parseConstItem g) (parseConstItem g') := by
  refine (Keeps.word "const").seq (.look fun tokens => ?_)
  rw [word_move]
  refine .ite (Keeps.takeAnyIdent.bind ?after) (Keeps.takeIdent.bind ?after)
  refine fun ident => (keeps_parseGenerics? hg).bind fun _ => (Keeps.punct ":").seq ?_
  refine (hg.type true).seq ((Keeps.punct? "=").bind fun _ => ?_)
  refine .ite
    ((hg.expr true).bindUpTo fun _ _ _ => .bindUpTo (R := Discarded) (.pure trivial) ?value)
    (.bindUpTo (R := Discarded) (.pure trivial) ?value)
  exact fun _ _ _ => (keeps_parseWhere? hg).bind fun _ => (Keeps.punct ";").seq (.pure trivial)

theorem keeps_parseTypeAlias (allowDefault : Bool) (place : ClausePlace) :
    (inside close : Place line).Keeps Eq (parseTypeAlias g allowDefault place)
      (parseTypeAlias g' allowDefault place) := by
  refine (Visibility.keeps_parse hg.lines).seq (.then_seq (.word? "default") ?_)
  refine (Keeps.word "type").seq (Keeps.takeIdent.bind fun ident => ?_)
  refine (keeps_parseGenerics? hg).seq ?_
  refine (Keeps.punct? ":").bind fun bounded => .then_seq (R := Eq) ?bounds ?_
  case bounds =>
    refine .separatedUntil_inside (fun tokens => ?_) "+" ((Bound.keeps_parse hg _).seq (.pure rfl))
    simp
  refine .ite ((keeps_parseWhere? hg).bind ?clause) (.bind (.pure rfl) ?clause)
  refine fun clause => (Keeps.punct? "=").bind fun defined => .then_seq (hg.type true) ?_
  exact .then_seq (keeps_parseWhere? hg) ((Keeps.punct ";").seq (.pure rfl))

/-! ## Macro calls -/

omit hg in
@[simp] theorem startsMacroItem_inside (tokens : List Token) :
    startsMacroItem ((inside close : Place line).move tokens) = startsMacroItem tokens := by
  simp [startsMacroItem]

omit hg in
theorem keeps_parseMacroItem (allowName : Bool) : (inside close : Place line).Keeps Eq
    (parseMacroItem allowName) (parseMacroItem allowName) := by
  refine Path.keeps_parsePlain.bind fun path => (Keeps.punct "!").seq (.look fun tokens => ?_)
  simp only [ident_move, word_move]
  refine .then_seq .takeAnyIdent ((keeps_parseMacroBody path).bindUpTo fun mac mac' h => ?_)
  rw [h]
  exact .ite (.pure rfl) (.punct ";")

omit hg in
theorem keeps_parseMacroDefinition :
    (inside close : Place line).Keeps Eq parseMacroDefinition parseMacroDefinition := by
  refine (Keeps.word "macro").seq (Keeps.takeIdent.seq (.look fun tokens => ?_))
  rw [paren_move]
  refine .then_seq .anyGroup (.look fun tokens => ?_)
  rw [brace_inside]
  exact .ite (Keeps.anyGroup.seq (.pure rfl)) (.fail _)

/-! ## Items of traits, implementations and foreign blocks -/

theorem keeps_parseTraitItem :
    (inside close : Place line).Keeps Eq (parseTraitItem g) (parseTraitItem g') := by
  refine (Attribute.keeps_parseOuter hg).seq ?_
  refine (Visibility.keeps_parse hg.lines).bind fun visibility => ?_
  refine (Keeps.word? "default").bind fun _ => .look fun tokens => ?_
  simp only [startsSignature_inside, word_move, anyWord_move, skip_inside, startsMacroItem_inside]
  refine .ite ((keeps_parseSignature hg false).seq (.look fun tokens => ?_)) (.ite ?_ (.ite ?_ ?_))
  · rw [brace_inside]
    exact .ite ((keeps_parseBody hg).seq (.pure rfl)) (.punct ";")
  · refine .ite ((keeps_parseSignature hg false).seq (.pure rfl)) ?_
    exact (keeps_parseConstItem hg).seq (.pure rfl)
  · exact (keeps_parseTypeAlias hg false _).seq (.pure rfl)
  · cases visibility with
    | inherited => exact .ite (keeps_parseMacroItem false) (.fail _)
    | _ => exact .fail _

omit hg in
/-- What comes behind a visibility. -/
theorem keeps_lookVisibility (hline : Function.HasLeftInverse line) :
    (inside close : Place line).Keeps
      (fun read read' => read.1 = read'.1 ∧ read'.2 = (inside close : Place line).move read.2)
      (Parser.lookAhead do
        let visibility ← Visibility.parse
        return (visibility, ← look))
      (Parser.lookAhead do
        let visibility ← Visibility.parse
        return (visibility, ← look)) :=
  .lookAhead ((Visibility.keeps_parse hline).bind fun _ => .look fun _ => .pure ⟨rfl, rfl⟩)

theorem keeps_parseImplItem :
    (inside close : Place line).Keeps Discarded (parseImplItem g) (parseImplItem g') := by
  refine (Attribute.keeps_parseOuter hg).seq (.bindUpTo (R := fun read read' => read.1 = read'.1 ∧
    read.2.1 = read'.2.1 ∧ read'.2.2 = (inside close : Place line).move read.2.2) ?_ ?_)
  · refine .lookAhead ((Visibility.keeps_parse hg.lines).bind fun _ => .look fun tokens => ?_)
    simp only [word_move, skip_inside, punct_move]
    exact .ite (.pure ⟨rfl, rfl, rfl⟩) (.pure ⟨rfl, rfl, rfl⟩)
  rintro ⟨visibility, isDefault, tokens⟩ ⟨_, _, _⟩ ⟨rfl, rfl, rfl⟩
  simp only [startsSignature_inside, word_move, startsMacroItem_inside]
  refine .ite ?_ (.ite ?_ (.ite ?_ ?_))
  · refine (Visibility.keeps_parse hg.lines).seq ((Keeps.word? "default").seq ?_)
    refine (keeps_parseSignature hg false).bind fun _ => (Keeps.punct? ";").bind fun _ => ?_
    exact .ite (.pure trivial) (keeps_parseBody hg).last
  · exact (Keeps.continueAt tokens).seq ((keeps_parseConstItem hg).seq (.pure trivial))
  · exact (keeps_parseTypeAlias hg true _).seq (.pure trivial)
  · cases visibility with
    | inherited =>
      refine .ite ((keeps_parseMacroItem false).seq (.pure trivial)) ?_
      exact (Keeps.continueAt tokens).seq (.fail _)
    | _ => exact (Keeps.continueAt tokens).seq (.fail _)

theorem keeps_parseForeignItem :
    (inside close : Place line).Keeps Eq (parseForeignItem g) (parseForeignItem g') := by
  refine (Attribute.keeps_parseOuter hg).seq ((keeps_lookVisibility hg.lines).bindUpTo ?_)
  rintro ⟨visibility, tokens⟩ ⟨_, _⟩ ⟨rfl, rfl⟩
  simp only [startsSignature_inside, word_move, anyWord_move, skip_inside, startsMacroItem_inside]
  refine .ite ?_ (.ite ?_ (.ite ?_ ?_))
  · refine (Visibility.keeps_parse hg.lines).seq ((keeps_parseSignature hg true).seq ?_)
    refine .look fun tokens => ?_
    rw [brace_inside]
    exact .ite ((keeps_parseBody hg).seq (.pure rfl)) (.punct ";")
  · refine (Visibility.keeps_parse hg.lines).seq ((Keeps.word? "unsafe").bind fun _ => ?_)
    refine .else_seq (.word? "safe") ((Keeps.word "static").seq ((Keeps.word? "mut").seq ?_))
    refine Keeps.takeIdent.seq ((Keeps.punct ":").seq ((hg.type true).seq ?_))
    exact (Keeps.punct? "=").bind fun _ => .then_seq (hg.expr true) (.punct ";")
  · exact (keeps_parseTypeAlias hg false _).seq (.pure rfl)
  · cases visibility with
    | inherited => exact .ite (keeps_parseMacroItem false) (.fail _)
    | _ => exact (Keeps.continueAt tokens).seq (.fail _)

/-! ## Type declarations -/

theorem keeps_parseNamedField :
    (inside close : Place line).Keeps Eq (parseNamedField g) (parseNamedField g') := by
  refine (Attribute.keeps_parseOuter hg).seq ((Visibility.keeps_parse hg.lines).seq ?_)
  refine (Keeps.word? "_").bind fun unnamed => .else_seq .takeIdent ((Keeps.punct ":").seq ?_)
  refine .look fun tokens => ?_
  simp only [word_move, brace_inside, skip_inside]
  exact .ite (Keeps.takeAnyIdent.seq hg.namedFields) ((hg.type true).seq (.pure rfl))

theorem keeps_parseNamedFields :
    (inside close : Place line).Keeps Eq (parseNamedFields g) (parseNamedFields g') :=
  .seq (.inGroup .brace fun _ => .commaList (keeps_parseNamedField hg)) (.pure rfl)

theorem keeps_parseTupleFields :
    (inside close : Place line).Keeps Eq (parseTupleFields g) (parseTupleFields g') := by
  refine .seq (.inGroup .paren fun _ => .commaList (R := Eq) ?_) (.pure rfl)
  refine (Attribute.keeps_parseOuter hg).seq ((Visibility.keeps_parse hg.lines).seq ?_)
  exact hg.type true

theorem keeps_parseStructBody :
    (inside close : Place line).Keeps Eq (parseStructBody g) (parseStructBody g') := by
  refine (keeps_parseWhere? hg).bind fun clause => .look fun tokens => ?_
  rw [paren_move, brace_inside]
  refine .ite ((keeps_parseTupleFields hg).seq ?_) (.ite (keeps_parseNamedFields hg) (.punct ";"))
  exact (keeps_parseWhere? hg).seq (.punct ";")

theorem keeps_parseVariant :
    (inside close : Place line).Keeps Eq (parseVariant g) (parseVariant g') := by
  have hvalue : (inside close : Place line).Keeps Eq
      (do if ← punct? "=" then let _ ← g (.expr true) : Parser Unit)
      (do if ← punct? "=" then let _ ← g' (.expr true)) :=
    (Keeps.punct? "=").bind fun _ => .ite ((hg.expr true).seq (.pure rfl)) (.pure rfl)
  refine (Attribute.keeps_parseOuter hg).seq ((Visibility.keeps_parse hg.lines).seq ?_)
  refine Keeps.takeIdent.seq (.look fun tokens => ?_)
  rw [brace_inside, paren_move]
  refine .ite ((keeps_parseNamedFields hg).seq hvalue) ?_
  exact .then_seq (keeps_parseTupleFields hg) hvalue

theorem keeps_parseTraitBody :
    (inside close : Place line).Keeps Discarded (parseTraitBody g) (parseTraitBody g') := by
  refine (Keeps.punct? ":").bind fun _ => .then_seq (R := Eq) ?bounds ?_
  case bounds =>
    refine .separatedUntil_inside (fun tokens => ?_) "+" ((Bound.keeps_parse hg _).seq (.pure rfl))
    rw [word_move, brace_inside]
  refine (keeps_parseWhere? hg).seq (.inGroup .brace fun _ => ?_)
  refine (Attribute.keeps_parseInner hg).bindUpTo fun _ _ _ => ?_
  exact (Keeps.untilEnd (keeps_parseTraitItem hg)).last

theorem keeps_parseTraitAlias :
    (inside close : Place line).Keeps Eq (parseTraitAlias g) (parseTraitAlias g') := by
  refine (Keeps.punct "=").seq (.seq (R := Eq) ?bounds ((keeps_parseWhere? hg).seq (.punct ";")))
  refine .separatedUntil_inside (fun tokens => ?_) "+" ((Bound.keeps_parse hg _).seq (.pure rfl))
  rw [word_move, punct_move]

theorem keeps_parseDeclHead (spelling : String) : (inside close : Place line).Keeps Discarded
    (parseDeclHead g spelling) (parseDeclHead g' spelling) := by
  refine (Keeps.word spelling).seq (.here fun _ _ => Keeps.takeIdent.bind fun _ => ?_)
  exact (keeps_parseGenerics? hg).last

/-! ## Imports -/

omit hg in
theorem keeps_parseNewName :
    (inside close : Place line).Keeps Eq parseNewName parseNewName := by
  refine .look fun tokens => ?_
  rw [word_move]
  exact .ite .takeAnyIdent .takeIdent

theorem keeps_parseUseGroup (allowCrateRoot : Bool) : (inside close : Place line).Keeps Discarded
    (parseUseGroup g allowCrateRoot) (parseUseGroup g' allowCrateRoot) := by
  refine Keeps.last (R := List.Forall₂ Discarded) (.commaList (R := Discarded) ?_)
  refine .ite ((Keeps.punct? "::").bind ?tree) (.bind (.pure rfl) ?tree)
  exact fun atRoot => (hg.useTree _).last

theorem UseTree.keeps_parse (allowCrateRoot : Bool) : (inside close : Place line).Keeps Discarded
    (UseTree.parse g allowCrateRoot) (UseTree.parse g' allowCrateRoot) := by
  refine .look fun tokens => ?_
  simp only [ident_move, anyWord_move, brace_inside]
  refine .ite (Keeps.takeAnyIdent.bind fun ident => (Keeps.punct? "::").bind fun _ => .ite ?_ ?_) ?_
  · exact (hg.useTree false).last
  · refine (Keeps.word? "as").bind fun _ => .ite ?_ (.pure trivial)
    exact keeps_parseNewName.last
  · refine (Keeps.punct? "*").bind fun _ => .ite (.pure trivial) (.ite ?_ (.fail _))
    exact .inGroup .brace fun _ => keeps_parseUseGroup hg allowCrateRoot

/-! ## Items -/

/-- An implementation from its clause on, whatever is made of it. -/
theorem keeps_implBody {α : Type}
    (make make' : List Attribute → List (Option (Ident × List Stmt)) → α) :
    (inside close : Place line).Keeps Discarded
      (do
        let _ ← parseWhere? g
        inGroup .brace do
          let attributes ← Attribute.parseInner g
          let items ← untilEnd (parseImplItem g)
          return make attributes items)
      (do
        let _ ← parseWhere? g'
        inGroup .brace do
          let attributes ← Attribute.parseInner g'
          let items ← untilEnd (parseImplItem g')
          return make' attributes items) := by
  refine (keeps_parseWhere? hg).seq (.inGroup .brace fun _ => ?_)
  refine (Attribute.keeps_parseInner hg).bindUpTo fun _ _ _ => ?_
  exact (Keeps.untilEnd (keeps_parseImplItem hg)).last

theorem keeps_parseImpl :
    (inside close : Place line).Keeps Discarded (parseImpl g) (parseImpl g') := by
  refine (Visibility.keeps_parse hg.lines).bind fun visibility => (Keeps.word? "default").seq ?_
  refine (Keeps.word? "unsafe").seq ((Keeps.word "impl").seq (.look fun tokens => ?_))
  rw [startsGenerics_inside]
  refine .then_seq (keeps_parseGenerics? hg) (.look fun tokens => ?_)
  simp -zeta only [word_move, punct_move, skip_inside]
  refine .ite ((Keeps.punct? "?").seq ((Keeps.word "const").seq ?head)) ?head
  refine .look fun tokens => .here fun _ _ => ?_
  simp -zeta only [punct_move, skip_inside, brace_inside]
  refine .ite ((Keeps.punct "!").seq ?type) ?type
  refine (hg.type true).bind fun first => (Keeps.word? "for").bind fun _ => .ite ?_ (.ite ?_ ?_)
  · refine (hg.type true).bind fun target => ?_
    cases first <;> exact .bind (.pure rfl) fun _ => keeps_implBody hg _ _
  · exact .bind (.failAt _ _) fun _ => keeps_implBody hg _ _
  · exact .bind (.pure rfl) fun _ => keeps_implBody hg _ _

theorem keeps_parseForeignBlock :
    (inside close : Place line).Keeps Discarded (parseForeignBlock g) (parseForeignBlock g') := by
  refine (Keeps.word? "unsafe").seq (Ty.keeps_parseAbi?.bind fun _ => ?_)
  refine .else_seq (R := Eq) (.fail _) (.inGroup .brace fun _ => ?_)
  refine (Attribute.keeps_parseInner hg).bindUpTo fun _ _ _ => ?_
  exact (Keeps.untilEnd (keeps_parseForeignItem hg)).last

theorem keeps_parseModule (attributes attributes' : List Attribute) :
    (inside close : Place line).Keeps Discarded (parseModule g attributes)
      (parseModule g' attributes') := by
  refine (Visibility.keeps_parse hg.lines).bind fun visibility => (Keeps.word? "unsafe").seq ?_
  refine (Keeps.word "mod").seq (.look fun tokens => ?_)
  rw [word_move]
  refine .ite (Keeps.takeAnyIdent.bind ?content) (Keeps.takeIdent.bind ?content)
  refine fun ident => (Keeps.punct? ";").bind fun _ => .ite (.pure trivial) ?_
  refine .inGroup .brace fun _ => (Attribute.keeps_parseInner hg).bindUpTo fun _ _ _ => ?_
  exact (Keeps.untilEnd hg.item).last

theorem keeps_parseDecl (attributes attributes' : List Attribute) (kind : TypeKind)
    (spelling : String) {body body' : Parser (List Attribute)}
    (hbody : (inside close : Place line).Keeps Discarded body body') :
    (inside close : Place line).Keeps Discarded (parseDecl g attributes kind spelling body)
      (parseDecl g' attributes' kind spelling body') :=
  (Visibility.keeps_parse hg.lines).bind fun _ =>
    (keeps_parseDeclHead hg spelling).bindUpTo fun _ _ _ => hbody.last

theorem keeps_parseEnumBody :
    (inside close : Place line).Keeps Eq (parseEnumBody g) (parseEnumBody g') :=
  (keeps_parseWhere? hg).seq
    (.seq (.inGroup .brace fun _ => .commaList (keeps_parseVariant hg)) (.pure rfl))

theorem keeps_parseUnionBody :
    (inside close : Place line).Keeps Eq (parseUnionBody g) (parseUnionBody g') :=
  (keeps_parseWhere? hg).seq (keeps_parseNamedFields hg)

theorem keeps_parseTrait (attributes attributes' : List Attribute) :
    (inside close : Place line).Keeps Discarded (parseTrait g attributes)
      (parseTrait g' attributes') := by
  refine (Visibility.keeps_parse hg.lines).bind fun _ => (Keeps.word? "unsafe").seq ?_
  refine (Keeps.word? "auto").seq ((keeps_parseDeclHead hg "trait").bindUpTo fun _ _ _ => ?_)
  exact (keeps_parseTraitBody hg).last

theorem keeps_parseTraitOrAlias (attributes attributes' : List Attribute) :
    (inside close : Place line).Keeps Discarded (parseTraitOrAlias g attributes)
      (parseTraitOrAlias g' attributes') := by
  refine (Visibility.keeps_parse hg.lines).bind fun _ => ?_
  refine (keeps_parseDeclHead hg "trait").bindUpTo fun _ _ _ => .look fun tokens => ?_
  rw [punct_move]
  exact .ite ((keeps_parseTraitAlias hg).seq (.pure trivial)) (keeps_parseTraitBody hg).last

theorem keeps_parseStatic (attributes attributes' : List Attribute) :
    (inside close : Place line).Keeps Discarded (parseStatic g attributes)
      (parseStatic g' attributes') := by
  refine (Visibility.keeps_parse hg.lines).bind fun _ => (Keeps.word "static").seq ?_
  refine (Keeps.word? "mut").seq (Keeps.takeIdent.bind fun ident => ?_)
  refine (Keeps.punct? "=").bind fun _ => ?_
  refine .ite ((hg.expr true).seq ((Keeps.punct ";").seq (.pure trivial))) ?_
  refine (Keeps.punct ":").seq ((hg.type true).seq ((Keeps.punct? ";").bind fun _ => ?_))
  refine .ite (.pure trivial) ((Keeps.punct "=").seq ((hg.expr true).seq ?_))
  exact (Keeps.punct ";").seq (.pure trivial)

theorem keeps_parseUse (attributes attributes' : List Attribute) :
    (inside close : Place line).Keeps Discarded (parseUse g attributes)
      (parseUse g' attributes') := by
  refine (Visibility.keeps_parse hg.lines).bind fun _ => (Keeps.word "use").seq ?_
  refine (Keeps.punct? "::").bind fun _ => ?_
  refine (UseTree.keeps_parse hg _).bindUpTo fun tree tree' _ => ?_
  refine (Keeps.punct ";").seq ?_
  cases tree <;> cases tree' <;> exact .pure trivial

omit hg in
theorem keeps_parseExternCrate (hline : Function.HasLeftInverse line)
    (attributes attributes' : List Attribute) :
    (inside close : Place line).Keeps Discarded (parseExternCrate attributes)
      (parseExternCrate attributes') := by
  refine (Visibility.keeps_parse hline).bind fun _ => (Keeps.word "extern").seq ?_
  refine (Keeps.word "crate").seq (.look fun tokens => ?_)
  rw [word_move]
  refine .ite (Keeps.takeAnyIdent.bind ?name) (Keeps.takeIdent.bind ?name)
  refine fun ident => (Keeps.word? "as").bind fun _ => .ite ?_ ?_
  · refine keeps_parseNewName.bind fun _ => .bind (.pure rfl) fun _ => ?_
    exact (Keeps.punct ";").seq (.pure trivial)
  · exact .bind (.pure rfl) fun _ => (Keeps.punct ";").seq (.pure trivial)

theorem keeps_parseFunction (attributes attributes' : List Attribute) :
    (inside close : Place line).Keeps Discarded (parseFunction g attributes)
      (parseFunction g' attributes') := by
  refine (Visibility.keeps_parse hg.lines).bind fun _ => ?_
  refine (keeps_parseSignature hg false).bind fun _ => ?_
  refine (Keeps.punct? ";").bind fun _ => .ite (.pure trivial) ?_
  exact (keeps_parseBody hg).last

theorem keeps_parseImplItemOf (attributes attributes' : List Attribute) :
    (inside close : Place line).Keeps Discarded (parseImplItemOf g attributes)
      (parseImplItemOf g' attributes') := by
  refine (keeps_parseImpl hg).bindUpTo ?_
  rintro ⟨_, _ | _⟩ ⟨_, _ | _⟩ - <;> exact .pure trivial

theorem keeps_parseForeign (attributes attributes' : List Attribute) :
    (inside close : Place line).Keeps Discarded (parseForeign g attributes)
      (parseForeign g' attributes') :=
  (keeps_parseForeignBlock hg).last

namespace Item

theorem keeps_parseExtern (attributes attributes' : List Attribute) (tokens : List Token) :
    (inside close : Place line).Keeps Discarded (parseExtern g attributes tokens)
      (parseExtern g' attributes' ((inside close : Place line).move tokens)) := by
  simp only [parseExtern, skip_inside, word_move, skipIf_stringLiteral_inside, brace_inside]
  refine .ite (keeps_parseExternCrate hg.lines _ _) (.ite (keeps_parseForeign hg _ _) ?_)
  exact (Keeps.continueAt _).seq (.fail _)

theorem keeps_parseUnsafe (attributes attributes' : List Attribute) (tokens : List Token) :
    (inside close : Place line).Keeps Discarded (parseUnsafe g attributes tokens)
      (parseUnsafe g' attributes' ((inside close : Place line).move tokens)) := by
  simp only [parseUnsafe, skip_inside, word_move]
  refine .ite (keeps_parseTrait hg _ _) (.ite (keeps_parseImplItemOf hg _ _) ?_)
  refine .ite (keeps_parseForeign hg _ _) (.ite (keeps_parseModule hg _ _) ?_)
  exact (Keeps.continueAt _).seq (.fail _)

theorem keeps_parseAfter (attributes attributes' : List Attribute) :
    (inside close : Place line).Keeps Discarded (parseAfter g attributes)
      (parseAfter g' attributes') := by
  refine (keeps_lookVisibility hg.lines).bindUpTo ?_
  rintro ⟨visibility, tokens⟩ ⟨_, _⟩ ⟨rfl, rfl⟩
  simp only [startsSignature_inside, word_move, skip_inside, ident_move, punct_move,
    startsMacroItem_inside]
  refine .ite (keeps_parseFunction hg _ _) (.ite (keeps_parseExtern hg _ _ _) ?_)
  refine .ite (keeps_parseUse hg _ _) (.ite (keeps_parseStatic hg _ _) (.ite ?const ?_))
  case const =>
    refine (Visibility.keeps_parse hg.lines).bind fun _ => (keeps_parseConstItem hg).bindUpTo ?_
    rintro ⟨_, _ | _⟩ ⟨_, _ | _⟩ - <;> exact .pure trivial
  refine .ite (keeps_parseUnsafe hg _ _ _) (.ite (keeps_parseModule hg _ _) (.ite ?named ?_))
  case named =>
    refine .bind (.lookAhead (Visibility.keeps_parse hg.lines)) fun _ => ?_
    refine (keeps_parseTypeAlias hg false _).bind fun name => ?_
    cases name <;> exact .pure trivial
  refine .ite (keeps_parseDecl hg _ _ _ _ ((keeps_parseStructBody hg).seq (.pure trivial))) ?_
  refine .ite (keeps_parseDecl hg _ _ _ _ ((keeps_parseEnumBody hg).seq (.pure trivial))) ?_
  refine .ite (keeps_parseDecl hg _ _ _ _ ((keeps_parseUnionBody hg).seq (.pure trivial))) ?_
  refine .ite (keeps_parseTraitOrAlias hg _ _) (.ite (keeps_parseTrait hg _ _) ?_)
  refine .ite (keeps_parseImplItemOf hg _ _) (.ite ?_ ?_)
  · exact (Keeps.continueAt _).seq (keeps_parseMacroDefinition.seq (.pure trivial))
  · cases visibility with
    | inherited => exact .ite ((keeps_parseMacroItem true).seq (.pure trivial)) (.fail _)
    | _ => exact (Keeps.continueAt _).seq (.fail _)

theorem keeps_parse :
    (inside close : Place line).Keeps Discarded (Item.parse g) (Item.parse g') :=
  (Attribute.keeps_parseOuter hg).bindUpTo fun _ _ _ => keeps_parseAfter hg _ _

end Item

end

end JobRoster.Syntax
