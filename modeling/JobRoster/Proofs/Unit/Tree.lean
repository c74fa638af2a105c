import JobRoster.Proofs.Syntax.Composing
import JobRoster.Proofs.Unit.Tokens

/-!
# The tree of a unit

What the tokens of a unit parse to: a trait, and its implementation for the registry, with one call
for each job. How the registry itself is parsed where it stands is left to its own lemmas.
-/

namespace JobRoster

open Syntax Syntax.Parser Text

variable {depth line close : Nat} {stray : Option Nat} {tokens rest : List Token}

/-! ## Signatures -/

theorem parseSignature_method {name : Ident} (hname : Ahead.reserved.contains name.text = false)
    (line lines close : Nat)
    (hrest : (∃ line, rest = [.punct ';' false line]) ∨
      ∃ content line close, rest = [.group .brace content line close]) :
    parseSignature (Grammar.nested (depth + 3)) false
      ⟨.ident fnIdent line :: .ident name line ::
        (Token.mapLines (· + lines) receiverTokens ++ rest), close, none⟩ =
      .ok (name, ⟨rest, close, none⟩) := by
  unfold parseSignature
  refine bind_eq_ok_iff.2 ⟨false, _, rfl, ?_⟩
  refine bind_eq_ok_iff.2 ⟨false, _, rfl, ?_⟩
  refine bind_eq_ok_iff.2 ⟨false, _, rfl, ?_⟩
  refine bind_eq_ok_iff.2 ⟨false, _, rfl, ?_⟩
  refine bind_eq_ok_iff.2 ⟨(), _, rfl, ?_⟩
  refine bind_eq_ok_iff.2 ⟨name, _, takeIdent_cons hname _ _ _ _, ?_⟩
  obtain ⟨last, rfl⟩ | ⟨content, start, inside, rfl⟩ := hrest
  · rfl
  · rfl

/-! ## The trait -/

theorem parseTraitItem_method {name : Ident} (hname : Ahead.reserved.contains name.text = false)
    (line lines close : Nat) :
    parseTraitItem (Grammar.nested (depth + 3))
      ⟨.ident fnIdent line :: .ident name line ::
        Token.mapLines (· + lines) (receiverTokens ++ [.punct ';' false 1]), close, none⟩ =
      .ok ((), ⟨[], close, none⟩) := by
  unfold parseTraitItem
  refine bind_eq_ok_iff.2 ⟨[], _, rfl, ?_⟩
  refine bind_eq_ok_iff.2 ⟨.inherited, _, rfl, ?_⟩
  refine bind_eq_ok_iff.2 ⟨false, _, rfl, ?_⟩
  refine bind_eq_ok_iff.2 ⟨_, _, rfl, ?_⟩
  rw [Token.mapLines_append]
  refine bind_eq_ok_iff.2 ⟨name, _, parseSignature_method hname line lines close (.inl ⟨_, rfl⟩), ?_⟩
  rfl

theorem parseTraitBody_single {content : List Token} {start inside : Nat}
    (h : parseTraitItem (Grammar.nested depth) ⟨content, inside, none⟩ =
      .ok ((), ⟨[], inside, none⟩))
    (hstart : ∃ ident line after, content = .ident ident line :: after) (close : Nat)
    (rest : List Token) :
    parseTraitBody (Grammar.nested depth) ⟨.group .brace content start inside :: rest, close, none⟩ =
      .ok ([], ⟨rest, close, none⟩) := by
  obtain ⟨ident, line, after, rfl⟩ := hstart
  have hmany : Many (fun tokens => !tokens.isEmpty) (parseTraitItem (Grammar.nested depth))
      ⟨.ident ident line :: after, inside, none⟩ [()] ⟨[], inside, none⟩ := .more rfl h (.stop rfl)
  have hitems := manyWhile_of_many hmany (by simp)
  unfold parseTraitBody
  refine bind_eq_ok_iff.2 ⟨false, _, rfl, ?_⟩
  refine bind_eq_ok_iff.2 ⟨false, _, rfl, ?_⟩
  refine inGroup_cons (bind_eq_ok_iff.2 ⟨[], _, rfl, ?_⟩)
  exact bind_eq_ok_iff.2 ⟨[()], _, hitems, rfl⟩

theorem parseAfter_trait {content : List Token} {start inside : Nat}
    (h : parseTraitBody (Grammar.nested depth) ⟨.group .brace content start inside :: rest, close, none⟩ =
      .ok ([], ⟨rest, close, none⟩)) (attributes : List Attribute) (head : Nat) :
    Item.parseAfter (Grammar.nested depth) attributes
      ⟨Token.mapLines (· + head) traitHeadTokens ++ .group .brace content start inside :: rest, close,
        none⟩ =
      .ok (.plain attributes .visible (.type .trait extensionIdent (1 + head) 0),
        ⟨rest, close, none⟩) := by
  have hbranch : Item.parseAfter (Grammar.nested depth) attributes
      ⟨Token.mapLines (· + head) traitHeadTokens ++ .group .brace content start inside :: rest, close,
        none⟩ =
    parseTraitOrAlias (Grammar.nested depth) attributes
      ⟨Token.mapLines (· + head) traitHeadTokens ++ .group .brace content start inside :: rest, close,
        none⟩ := rfl
  rw [hbranch]
  unfold parseTraitOrAlias
  refine bind_eq_ok_iff.2 ⟨.visible, _, rfl, ?_⟩
  refine bind_eq_ok_iff.2 ⟨(extensionIdent, 1 + head, 0), _, rfl, ?_⟩
  refine bind_eq_ok_iff.2 ⟨_, _, rfl, bind_eq_ok_iff.2 ⟨[], _, h, ?_⟩⟩
  simp [pure_apply]

theorem isIdentifier_doc : IsIdentifier "doc" := by
  decide +kernel

def docIdent : Ident := .plain "doc" isIdentifier_doc

/-- The attribute that the documentation of the trait stands for. -/
def docAttribute : Attribute :=
  ⟨⟨false, [⟨docIdent, .none⟩]⟩, .value (.literal (.str traitDoc))⟩

theorem parseOuter_doc (g : Grammar) (doc head close : Nat) (rest : List Token) :
    Attribute.parseOuter g
      ⟨Lexer.docAttribute false traitDoc.toList doc ++
        (Token.mapLines (· + head) traitHeadTokens ++ rest), close, none⟩ =
      .ok ([docAttribute], ⟨Token.mapLines (· + head) traitHeadTokens ++ rest, close, none⟩) := by
  have hdoc : docAttribute =
      ⟨⟨false, [⟨docIdent, .none⟩]⟩,
        .value (.literal (.str (String.ofList traitDoc.toList)))⟩ := by
    rw [String.ofList_toList, docAttribute]
  rw [hdoc]
  generalize traitDoc.toList = text
  rfl

/-- The trait of a unit is one item. -/
theorem parseItem_trait {moduleIdentity : String} (h : TraitTokens moduleIdentity tokens)
    (rest : List Token) (close : Nat) :
    ∃ line, Item.parse (Grammar.nested (depth + 3)) ⟨tokens ++ rest, close, none⟩ =
      .ok (.plain [docAttribute] .visible (.type .trait extensionIdent line 0),
        ⟨rest, close, none⟩) := by
  cases h with
  | intro doc head start line lines inside =>
    have hname : Ahead.reserved.contains (methodIdent moduleIdentity).text = false := by
      simpa [methodIdent] using not_reserved_methodName moduleIdentity
    have hitem := @parseTraitItem_method depth _ hname line lines inside
    have hbody := @parseTraitBody_single _ _ start _ hitem ⟨_, _, _, rfl⟩ close rest
    refine ⟨1 + head, bind_eq_ok_iff.2 ⟨[docAttribute], _, ?_, parseAfter_trait hbody _ head⟩⟩
    rw [List.append_assoc, List.append_assoc]
    exact parseOuter_doc _ doc head close _

/-! ## Calls -/

/-- A path below the crate is parsed as it is written. -/
theorem parsePath_crate (g : Grammar) {below : List PathSegment} (h : SegmentTokens tokens below)
    (hnames : ∀ segment ∈ below, Ahead.reserved.contains segment.ident.text = false)
    (hrest : EndsPath rest) (line close : Nat) (stray : Option Nat) :
    Path.parse g false ⟨.ident crateIdent line :: (tokens ++ rest), close, stray⟩ =
      .ok (⟨false, ⟨crateIdent, .none⟩ :: below⟩, ⟨rest, close, stray⟩) := by
  have hlength : below.length ≤ (tokens ++ rest).length + 1 := by
    have hle := length_le_of_segmentTokens h
    rw [List.length_append]
    omega
  have hmany := manyWhile_of_many (many_segments (g := g) h hnames hrest close stray) hlength
  refine bind_eq_ok_iff.2 ⟨false, _, rfl, ?_⟩
  refine bind_eq_ok_iff.2 ⟨⟨crateIdent, .none⟩, _, rfl, ?_⟩
  exact bind_eq_ok_iff.2 ⟨below, _, hmany, rfl⟩

theorem parseAngled_crate {below : List PathSegment} (h : SegmentTokens tokens below)
    (hnames : ∀ segment ∈ below, Ahead.reserved.contains segment.ident.text = false)
    (line close : Nat) (rest : List Token) :
    parseAngled (Grammar.nested (depth + 2))
      ⟨.punct '<' false line :: .ident crateIdent line :: (tokens ++ .punct '>' false line :: rest),
        close, none⟩ = .ok ((), ⟨rest, close, none⟩) := by
  have hends : EndsPath (.punct '>' false line :: rest) := ⟨rfl, rfl⟩
  have hpath := parsePath_crate (Grammar.nested depth) h hnames hends line close none
  have htype : Grammar.nested (depth + 1) (.type true)
      ⟨.ident crateIdent line :: (tokens ++ .punct '>' false line :: rest), close, none⟩ =
        .ok (.named ⟨false, ⟨crateIdent, .none⟩ :: below⟩,
          ⟨.punct '>' false line :: rest, close, none⟩) :=
    parseType_of_parsePath ⟨rfl, rfl, rfl, rfl, .inl rfl⟩ hpath ⟨rfl, rfl, rfl, rfl⟩ true
  have hargument : Grammar.nested (depth + 2) .genericArgument
      ⟨.ident crateIdent line :: (tokens ++ .punct '>' false line :: rest), close, none⟩ =
        .ok ((), ⟨.punct '>' false line :: rest, close, none⟩) := by
    refine bind_eq_ok_iff.2 ⟨_, _, rfl, bind_eq_ok_iff.2 ⟨_, _, htype, ?_⟩⟩
    cases below <;> rfl
  refine bind_eq_ok_iff.2 ⟨(), _, rfl, ?_⟩
  exact bind_eq_ok_iff.2 ⟨(), _, separatedUntil_single rfl hargument rfl, rfl⟩

end JobRoster
