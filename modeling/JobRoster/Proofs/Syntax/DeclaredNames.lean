import JobRoster.Proofs.Syntax.Parsing
import JobRoster.Syntax.Source

/-!
# The names that items declare

Where an item declares a name, the grammar takes an identifier that is no reserved word, or one of
two words. A reserved word can be marked as raw, unless it leads paths. So no item declares a word
that leads paths.

`Yields` states what holds of all that a parser gives, from whatever tokens.
-/

namespace JobRoster.Syntax

open Syntax.Parser

/-! ## Results of parsers -/

namespace Parser

variable {α β : Type} {P : α → Prop} {Q : β → Prop}

/-- All that a parser gives has the property. -/
def Yields (P : α → Prop) (p : Parser α) : Prop :=
  ∀ input a rest, p input = .ok (a, rest) → P a

namespace Yields

theorem pure {a : α} (h : P a) : Yields P (Pure.pure a) := by
  intro input b rest hpure
  rw [(pure_eq_ok_iff.1 hpure).1]
  exact h

theorem fail (message : String) : Yields P (Parser.fail message) :=
  fun _ _ _ h => absurd h fail_ne_ok

theorem bind {p : Parser α} {f : α → Parser β} (hp : Yields P p)
    (hf : ∀ a, P a → Yields Q (f a)) : Yields Q (p >>= f) := by
  intro input b rest h
  obtain ⟨a, next, hread, hafter⟩ := bind_eq_ok_iff.1 h
  exact hf a (hp input a next hread) next b rest hafter

theorem seq {p : Parser α} {f : α → Parser β} (hf : ∀ a, Yields Q (f a)) : Yields Q (p >>= f) := by
  have hp : Yields (fun _ => True) p := fun _ _ _ _ => trivial
  exact hp.bind fun a _ => hf a

theorem ite {c : Prop} [Decidable c] {p q : Parser α} (hp : Yields P p) (hq : Yields P q) :
    Yields P (if c then p else q) := by
  split
  · exact hp
  · exact hq

/-- Something is read first, or not. -/
theorem then_seq {c : Prop} [Decidable c] {p : Parser β} {q : Parser α} (hq : Yields P q) :
    Yields P (if c then p >>= fun _ => q else q) :=
  .ite (.seq fun _ => hq) hq

theorem inGroup {delimiter : Delimiter} {p : Parser α} (hp : Yields P p) :
    Yields P (Parser.inGroup delimiter p) := by
  intro input a rest h
  obtain ⟨content, start, close, tokens, inner, -, hread, -⟩ := inGroup_eq_ok_iff.1 h
  exact hp _ a inner hread

theorem of_many {test : List Token → Bool} {p : Parser α} (hp : Yields P p) {input rest : Input}
    {as : List α} (h : Many test p input as rest) : ∀ a ∈ as, P a := by
  induction h with
  | stop _ => exact List.forall_mem_nil _
  | more _ hread _ ih => exact List.forall_mem_cons.2 ⟨hp _ _ _ hread, ih⟩

theorem untilEnd {p : Parser α} (hp : Yields P p) :
    Yields (fun as => ∀ a ∈ as, P a) (Parser.untilEnd p) :=
  fun _ _ _ h => hp.of_many (many_of_manyWhile h)

end Yields

end Parser

/-! ## Identifiers -/

/-- An identifier that can be declared. Of the words that cannot be marked, it can only be the
    underscore. -/
def Ident.Declarable (ident : Ident) : Prop :=
  ident.name ∈ Lexer.unraw → ident.name = "_"

theorem Ident.declarable_of_not_reserved {ident : Ident}
    (h : Ahead.reserved.contains ident.text = false) : ident.Declarable := by
  intro hunraw
  cases hraw : ident.raw with
  | true => exact absurd hunraw (ident.markable hraw)
  | false =>
    have hall : ∀ word ∈ Lexer.unraw, Ahead.reserved.contains word = true := by decide
    rw [Ident.text, hraw, if_neg Bool.false_ne_true, hall _ hunraw] at h
    cases h

/-- Only an identifier that is not marked is spelled by its name alone. -/
theorem Ident.name_of_text {ident : Ident} {word : String} (hword : '#' ∉ word.toList)
    (h : ident.text = word) : ident.name = word := by
  cases hraw : ident.raw with
  | true =>
    rw [Ident.text, hraw, if_pos rfl] at h
    rw [← h, String.toList_append] at hword
    exact absurd (List.mem_append_left _ (by decide)) hword
  | false => rwa [Ident.text, hraw, if_neg Bool.false_ne_true] at h

theorem yields_takeIdent : Yields Ident.Declarable takeIdent := by
  intro input ident rest h
  obtain ⟨hident, line, tokens, htokens, -⟩ := takeIdent_eq_ok_iff.1 h
  rw [htokens] at hident
  exact Ident.declarable_of_not_reserved (by simpa [Ahead.ident] using hident)

/-- A name is taken that is no reserved word, or the one word that is allowed. -/
theorem yields_wordOrIdent {β : Type} {Q : β → Prop} {spelling : String}
    (hmark : '#' ∉ spelling.toList) (hspelling : spelling ∈ Lexer.unraw → spelling = "_")
    {f : Ident → Parser β} (hf : ∀ ident, ident.Declarable → Yields Q (f ident)) :
    Yields Q (look >>= fun tokens =>
      if Ahead.word spelling tokens then takeAnyIdent >>= f else takeIdent >>= f) := by
  intro input b rest h
  rw [look_bind] at h
  split at h
  next hword =>
    obtain ⟨ident, next, htake, hafter⟩ := bind_eq_ok_iff.1 h
    obtain ⟨line, tokens, htokens, -⟩ := takeAnyIdent_eq_ok_iff.1 htake
    have htext : ident.text = spelling := by simpa [htokens, Ahead.word] using hword
    have hname : ident.name = spelling := ident.name_of_text hmark htext
    have hdeclarable : ident.Declarable := by
      rw [Ident.Declarable, hname]
      exact hspelling
    exact hf ident hdeclarable next b rest hafter
  next => exact yields_takeIdent.bind hf input b rest h

/-! ## Items -/

/-- The name that an item that is no module declares. -/
def ItemKind.declared? : ItemKind → Option Ident
  | .type _ ident _ _ => some ident
  | .const ident _ => some ident
  | .named ident => some ident
  | _ => none

/-- An item that declares names that can be declared, in the modules written in place as well. -/
inductive Item.Declarable : Item → Prop
  | plain {attributes : List Attribute} {visibility : Visibility} {kind : ItemKind}
    (hname : ∀ ident, kind.declared? = some ident → ident.Declarable) :
    Item.Declarable (.plain attributes visibility kind)
  | module {attributes : List Attribute} {visibility : Visibility} {ident : Ident}
    {content : Option (List Item)} (hname : ident.Declarable)
    (hinside : ∀ items, content = some items → ∀ item ∈ items, item.Declarable) :
    Item.Declarable (.module attributes visibility ident content)
  | unknown : Item.Declarable .unknown

namespace Item.Declarable

variable {attributes : List Attribute} {visibility : Visibility} {kind : ItemKind}

theorem of_nothing (h : kind.declared? = none) :
    Item.Declarable (.plain attributes visibility kind) :=
  .plain fun ident hident => by rw [h] at hident; cases hident

theorem of_name {ident : Ident} (h : kind.declared? = some ident) (hname : ident.Declarable) :
    Item.Declarable (.plain attributes visibility kind) :=
  .plain fun _ hother => Option.some.inj (h.symm.trans hother) ▸ hname

end Item.Declarable

section Rules

variable {g : Grammar}

theorem yields_parseSignature (allowSafe : Bool) :
    Yields Ident.Declarable (parseSignature g allowSafe) := by
  refine .seq fun _ => .seq fun _ => .seq fun _ => .then_seq (.seq fun _ => .seq fun _ => ?_)
  refine yields_takeIdent.bind fun ident hident => ?_
  exact .seq fun _ => .seq fun _ => .seq fun _ => .seq fun _ => .pure hident

theorem yields_parseConstItem : Yields (fun read => read.1.Declarable) (parseConstItem g) := by
  refine .seq fun _ => yields_wordOrIdent (by decide) (fun _ => rfl) fun ident hident => ?_
  refine .seq fun _ => .seq fun _ => .seq fun _ => .seq fun _ => .ite ?_ ?_
  · exact .seq fun _ => .seq fun _ => .seq fun _ => .seq fun _ => .pure hident
  · exact .seq fun _ => .seq fun _ => .seq fun _ => .pure hident

theorem yields_parseTypeAlias (allowDefault : Bool) (place : ClausePlace) :
    Yields (fun found => ∀ ident, found = some ident → ident.Declarable)
      (parseTypeAlias g allowDefault place) := by
  refine .seq fun _ => .then_seq (.seq fun _ => ?_)
  refine yields_takeIdent.bind fun ident hident => .seq fun _ => .seq fun _ => .then_seq ?_
  refine .ite (.seq ?clause) (.seq ?clause)
  refine fun clause => .seq fun defined => .then_seq (.then_seq (.seq fun _ => .pure ?_))
  intro found hfound
  split at hfound
  · exact Option.some.inj hfound ▸ hident
  · cases hfound

theorem yields_parseDeclHead (spelling : String) :
    Yields (fun read => read.1.Declarable) (parseDeclHead g spelling) := by
  refine .seq fun _ => .seq fun line => yields_takeIdent.bind fun ident hident => ?_
  exact .seq fun _ => .pure hident

theorem yields_parseDecl (attributes : List Attribute) (kind : TypeKind) (spelling : String)
    (body : Parser (List Attribute)) :
    Yields Item.Declarable (parseDecl g attributes kind spelling body) := by
  refine .seq fun _ => (yields_parseDeclHead spelling).bind fun _ hname => ?_
  exact .seq fun _ => .pure (.of_name rfl hname)

theorem yields_parseTrait (attributes : List Attribute) :
    Yields Item.Declarable (parseTrait g attributes) := by
  refine .seq fun _ => .seq fun _ => .seq fun _ => (yields_parseDeclHead _).bind fun _ hname => ?_
  exact .seq fun _ => .pure (.of_name rfl hname)

theorem yields_parseTraitOrAlias (attributes : List Attribute) :
    Yields Item.Declarable (parseTraitOrAlias g attributes) := by
  refine .seq fun _ => (yields_parseDeclHead _).bind fun _ hname => .seq fun _ => ?_
  exact .ite (.seq fun _ => .pure (.of_nothing rfl)) (.seq fun _ => .pure (.of_name rfl hname))

theorem yields_parseStatic (attributes : List Attribute) :
    Yields Item.Declarable (parseStatic g attributes) := by
  refine .seq fun _ => .seq fun _ => .seq fun _ => yields_takeIdent.bind fun ident hident => ?_
  refine .seq fun _ => .ite (.seq fun _ => .seq fun _ => .pure .unknown) ?_
  refine .seq fun _ => .seq fun _ => .seq fun _ => .ite (.pure .unknown) ?_
  exact .seq fun _ => .seq fun _ => .seq fun _ => .pure (.of_name rfl hident)

theorem yields_parseUse (attributes : List Attribute) :
    Yields Item.Declarable (parseUse g attributes) := by
  refine .seq fun _ => .seq fun _ => .seq fun _ => .seq fun tree => .seq fun _ => ?_
  cases tree with
  | some tree => exact .pure (.of_nothing rfl)
  | none => exact .pure .unknown

theorem yields_parseExternCrate (attributes : List Attribute) :
    Yields Item.Declarable (parseExternCrate attributes) := by
  refine .seq fun _ => .seq fun _ => .seq fun _ => .seq fun _ => ?_
  refine .ite (.seq ?name) (.seq ?name)
  refine fun ident => .seq fun _ => .ite ?_ ?_
  · exact .seq fun _ => .seq fun _ => .seq fun _ => .pure (.of_nothing rfl)
  · exact .seq fun _ => .seq fun _ => .pure (.of_nothing rfl)

theorem yields_parseFunction (attributes : List Attribute) :
    Yields Item.Declarable (parseFunction g attributes) := by
  refine .seq fun _ => (yields_parseSignature false).bind fun ident hident => .seq fun _ => ?_
  exact .ite (.pure .unknown) (.seq fun _ => .pure (.of_name rfl hident))

theorem yields_parseImplItemOf (attributes : List Attribute) :
    Yields Item.Declarable (parseImplItemOf g attributes) := by
  refine .seq fun (inner, content) => ?_
  cases content with
  | some content => exact .pure (.of_nothing rfl)
  | none => exact .pure .unknown

theorem yields_parseForeign (attributes : List Attribute) :
    Yields Item.Declarable (parseForeign g attributes) :=
  .seq fun _ => .pure (.of_nothing rfl)

theorem Item.yields_parseExtern (attributes : List Attribute) (tokens : List Token) :
    Yields Item.Declarable (parseExtern g attributes tokens) := by
  refine .ite (yields_parseExternCrate attributes) (.ite (yields_parseForeign attributes) ?_)
  exact .seq fun _ => .fail _

variable (hg : Yields Item.Declarable (g .item))
include hg

theorem yields_parseModule (attributes : List Attribute) :
    Yields Item.Declarable (parseModule g attributes) := by
  refine .seq fun _ => .seq fun _ => .seq fun _ => ?_
  refine yields_wordOrIdent (by decide) (by decide) fun ident hident => .seq fun _ => ?_
  refine .ite (.pure (.module hident fun _ hnone => by cases hnone)) (.inGroup (.seq fun _ => ?_))
  refine (Yields.untilEnd hg).bind fun items hitems => .pure (.module hident ?_)
  intro items' heq
  exact Option.some.inj heq ▸ hitems

theorem Item.yields_parseUnsafe (attributes : List Attribute) (tokens : List Token) :
    Yields Item.Declarable (parseUnsafe g attributes tokens) := by
  refine .ite (yields_parseTrait attributes) (.ite (yields_parseImplItemOf attributes) ?_)
  refine .ite (yields_parseForeign attributes) (.ite (yields_parseModule hg attributes) ?_)
  exact .seq fun _ => .fail _

theorem Item.yields_parseAfter (attributes : List Attribute) :
    Yields Item.Declarable (parseAfter g attributes) := by
  refine .seq fun (visibility, tokens) => ?_
  refine .ite (yields_parseFunction _) (.ite (yields_parseExtern _ _) (.ite (yields_parseUse _) ?_))
  refine .ite (yields_parseStatic _) (.ite ?_ (.ite (yields_parseUnsafe hg _ _) ?_))
  · -- a constant
    refine .seq fun _ => yields_parseConstItem.bind fun (ident, value) hident => ?_
    cases value with
    | some value => exact .pure (.of_name rfl hident)
    | none => exact .pure .unknown
  refine .ite (yields_parseModule hg _) (.ite ?_ (.ite (yields_parseDecl _ _ _ _) ?_))
  · -- a type alias
    refine .seq fun _ => (yields_parseTypeAlias false _).bind fun found hfound => ?_
    cases found with
    | some ident => exact .pure (.of_name rfl (hfound ident rfl))
    | none => exact .pure .unknown
  refine .ite (yields_parseDecl _ _ _ _) (.ite (yields_parseDecl _ _ _ _) ?_)
  refine .ite (yields_parseTraitOrAlias _) (.ite (yields_parseTrait _) ?_)
  refine .ite (yields_parseImplItemOf _) (.ite (.seq fun _ => .seq fun _ => .pure .unknown) ?_)
  cases visibility with
  | inherited => exact .ite (.seq fun _ => .pure (.of_nothing rfl)) (.fail _)
  | _ => exact .seq fun _ => .fail _

theorem Item.yields_parse : Yields Item.Declarable (Item.parse g) :=
  .seq fun attributes => yields_parseAfter hg attributes

end Rules

/-! ## Files -/

theorem Grammar.yields_nested (depth : Nat) : Yields Item.Declarable (nested depth .item) := by
  induction depth with
  | zero => exact .fail _
  | succ depth ih => exact Item.yields_parse ih

/-- The items of a file declare names that can be declared. -/
theorem declarable_of_parseFile {text : String} {file : File} (h : parseFile text = .ok file) :
    ∀ item ∈ file.items, item.Declarable := by
  rw [parseFile, readText] at h
  cases htokens : tokenize (dropInterpreterLine (Text.dropByteOrderMark text.toList)) with
  | error error =>
    rw [htokens] at h
    cases h
  | ok tokens =>
    rw [htokens] at h
    obtain ⟨close, hread⟩ := eq_ok_of_readAll h
    have hfile : Yields (fun file => ∀ item ∈ file.items, item.Declarable)
        (File.parse (Grammar.for tokens)) :=
      .seq fun _ => (Yields.untilEnd (Grammar.yields_nested _)).bind fun _ hitems => .pure hitems
    exact hfile _ _ _ hread

end JobRoster.Syntax
