import JobRoster.Proofs.Syntax.AnyPlace
import JobRoster.Proofs.Unit.Calls

/-!
# Whole units

The tokens of a unit are read as two items: its trait, and one implementation of the trait for the
registry, whose method has a statement for each call. The registry may be any path that is read as a
type in front of the body.
-/

namespace JobRoster

open Syntax Syntax.Parser Text

variable {depth line close : Nat} {stray : Option Nat} {tokens rest : List Token}

/-! ## The implementation -/

theorem parseImplItem_method {name method : Ident} {calls : List (List String)} {body : List Token}
    (hname : Ahead.reserved.contains name.text = false)
    (hmethod : Ahead.reserved.contains method.text = false) (hbody : BodyTokens method calls body)
    (line lines start inside close : Nat) :
    parseImplItem (Grammar.nested (depth + 3))
      ⟨.ident fnIdent line :: .ident name line :: (Token.mapLines (· + lines) receiverTokens ++
          [.group .brace body start inside]), close, none⟩ =
      .ok (some (name, bodyOf method calls), ⟨[], close, none⟩) := by
  have hstatements : inGroup .brace (do
      let attributes ← Attribute.parseInner (Grammar.nested (depth + 3))
      return (attributes, ← Grammar.nested (depth + 3) .statements))
      ⟨[.group .brace body start inside], close, none⟩ =
        .ok (([], bodyOf method calls), ⟨[], close, none⟩) := by
    refine inGroup_cons (bind_eq_ok_iff.2 ⟨[], ⟨body, inside, none⟩, ?_, ?_⟩)
    · cases hbody with
      | last => rfl
      | call hcall => cases hcall; rfl
    · exact bind_eq_ok_iff.2 ⟨_, _, parseAll_body hmethod hbody inside, rfl⟩
  unfold parseImplItem
  refine bind_eq_ok_iff.2 ⟨[], _, rfl, ?_⟩
  refine bind_eq_ok_iff.2 ⟨(.inherited, false, _), _, rfl, ?_⟩
  dsimp only
  rw [if_pos (by rfl)]
  refine bind_eq_ok_iff.2 ⟨.inherited, _, rfl, ?_⟩
  refine bind_eq_ok_iff.2 ⟨false, _, rfl, ?_⟩
  refine bind_eq_ok_iff.2
    ⟨name, _, parseSignature_method hname line lines close (.inr ⟨_, _, _, rfl⟩), ?_⟩
  refine bind_eq_ok_iff.2 ⟨false, _, rfl, ?_⟩
  exact bind_eq_ok_iff.2 ⟨_, _, hstatements, rfl⟩

/-- The path of the trait of a unit. -/
def extensionPath : Path :=
  ⟨false, [⟨extensionIdent, .none⟩]⟩

theorem parseType_extension (depth line after close : Nat) (rest : List Token) :
    Grammar.nested (depth + 1) (.type true)
      ⟨.ident extensionIdent line :: .ident forIdent after :: rest, close, none⟩ =
        .ok (.named extensionPath, ⟨.ident forIdent after :: rest, close, none⟩) := by
  have hpath : Path.parse (Grammar.nested depth) false
      ⟨.ident extensionIdent line :: .ident forIdent after :: rest, close, none⟩ =
        .ok (extensionPath, ⟨.ident forIdent after :: rest, close, none⟩) := rfl
  exact parseType_of_parsePath ⟨rfl, rfl, rfl, rfl, .inl rfl⟩ hpath ⟨rfl, rfl, rfl, rfl⟩ true

theorem parseImpl_single {registry content : List Token} {target : Path}
    {entry : Ident × List Stmt} {start inside : Nat}
    (htype : Grammar.nested (depth + 1) (.type true)
      ⟨registry ++ .group .brace content start inside :: rest, close, none⟩ =
        .ok (.named target, ⟨.group .brace content start inside :: rest, close, none⟩))
    (hitem : parseImplItem (Grammar.nested (depth + 1)) ⟨content, inside, none⟩ =
      .ok (some entry, ⟨[], inside, none⟩))
    (hstart : ∃ ident line after, content = .ident ident line :: after) (head trait «for» : Nat) :
    parseImpl (Grammar.nested (depth + 1))
      ⟨.ident implIdent head :: .ident extensionIdent trait :: .ident forIdent «for» ::
        (registry ++ .group .brace content start inside :: rest), close, none⟩ =
      .ok (([], some ⟨some extensionPath, .named target, [entry]⟩), ⟨rest, close, none⟩) := by
  obtain ⟨ident, line, after, rfl⟩ := hstart
  have hmany : Many (fun tokens => !tokens.isEmpty) (parseImplItem (Grammar.nested (depth + 1)))
      ⟨.ident ident line :: after, inside, none⟩ [some entry] ⟨[], inside, none⟩ :=
    .more rfl hitem (.stop rfl)
  have hitems := manyWhile_of_many hmany (by simp)
  unfold parseImpl
  refine bind_eq_ok_iff.2 ⟨.inherited, _, rfl, ?_⟩
  refine bind_eq_ok_iff.2 ⟨false, _, rfl, ?_⟩
  refine bind_eq_ok_iff.2 ⟨false, _, rfl, ?_⟩
  refine bind_eq_ok_iff.2 ⟨(), _, rfl, ?_⟩
  refine bind_eq_ok_iff.2 ⟨_, _, rfl, ?_⟩
  refine bind_eq_ok_iff.2 ⟨_, _, rfl, ?_⟩
  refine bind_eq_ok_iff.2 ⟨_, _, rfl, ?_⟩
  refine bind_eq_ok_iff.2 ⟨_, _, rfl, ?_⟩
  refine bind_eq_ok_iff.2 ⟨_, _, parseType_extension depth trait «for» close _, ?_⟩
  refine bind_eq_ok_iff.2 ⟨true, _, rfl, ?_⟩
  refine bind_eq_ok_iff.2 ⟨_, _, htype, ?_⟩
  refine bind_eq_ok_iff.2 ⟨(some extensionPath, .named target, true), _, rfl, ?_⟩
  refine bind_eq_ok_iff.2 ⟨false, _, rfl, ?_⟩
  refine inGroup_cons (bind_eq_ok_iff.2 ⟨[], _, rfl, ?_⟩)
  exact bind_eq_ok_iff.2 ⟨_, _, hitems, rfl⟩

theorem parseItem_impl {registry content : List Token} {target : Path} {entry : Ident × List Stmt}
    {start inside : Nat}
    (htype : Grammar.nested (depth + 1) (.type true)
      ⟨registry ++ .group .brace content start inside :: rest, close, none⟩ =
        .ok (.named target, ⟨.group .brace content start inside :: rest, close, none⟩))
    (hitem : parseImplItem (Grammar.nested (depth + 1)) ⟨content, inside, none⟩ =
      .ok (some entry, ⟨[], inside, none⟩))
    (hstart : ∃ ident line after, content = .ident ident line :: after) (head : Nat) :
    Item.parse (Grammar.nested (depth + 1))
      ⟨Token.mapLines (· + head) implHeadTokens ++
        (registry ++ .group .brace content start inside :: rest), close, none⟩ =
      .ok (.plain [] .inherited (.impl ⟨some extensionPath, .named target, [entry]⟩),
        ⟨rest, close, none⟩) := by
  have himpl := parseImpl_single htype hitem hstart (1 + head) (1 + head) (1 + head)
  refine bind_eq_ok_iff.2 ⟨[], _, rfl, ?_⟩
  have hbranch : Item.parseAfter (Grammar.nested (depth + 1)) []
      ⟨Token.mapLines (· + head) implHeadTokens ++
        (registry ++ .group .brace content start inside :: rest), close, none⟩ =
    parseImplItemOf (Grammar.nested (depth + 1)) []
      ⟨Token.mapLines (· + head) implHeadTokens ++
        (registry ++ .group .brace content start inside :: rest), close, none⟩ := rfl
  refine hbranch.trans (bind_eq_ok_iff.2 ⟨_, _, himpl, rfl⟩)

/-! ## The file -/

/-- Whether tokens are read as a path where a type stands and a body follows, on whatever lines. -/
def ReadsAsType (depth : Nat) (registry : List Token) (target : Path) : Prop :=
  ∀ lines content start inside close, Grammar.nested depth (.type true)
    ⟨Token.mapLines (· + lines) registry ++ [.group .brace content start inside], close, none⟩ =
      .ok (.named target, ⟨[.group .brace content start inside], close, none⟩)

theorem readsAsType_of_parsePath {registry : List Token} {target : Path} {depth' line line' : Nat}
    (h : Path.parse (Grammar.nested depth') false ⟨registry, line, none⟩ =
      .ok (target, ⟨[], line', none⟩))
    (htry : Ahead.word "try" registry = false) (hdepth : depth' ≤ depth) :
    ReadsAsType (depth + 1) registry target := by
  intro lines content start inside close
  let place : Place (· + lines) := ⟨some ⟨content, start, inside⟩, close⟩
  have hlines : Function.HasLeftInverse (· + lines) :=
    ⟨(· - lines), fun line => Nat.add_sub_cancel line lines⟩
  exact parseType_move place hlines h htry hdepth ⟨rfl, rfl, rfl, rfl⟩ true

/-- The tree of a unit: the trait on some line, and its implementation. -/
def unitFile (moduleIdentity : String) (target : Path) (method : Ident) (calls : List (List String))
    (line : Nat) : File :=
  ⟨[], [.plain [docAttribute] .visible (.type .trait extensionIdent line 0),
    .plain [] .inherited (.impl ⟨some extensionPath, .named target,
      [(methodIdent moduleIdentity, bodyOf method calls)]⟩)]⟩

theorem parseItem_unitImpl {moduleIdentity : String} {registry : List Token} {target : Path}
    {method : Ident} {calls : List (List String)}
    (htype : ReadsAsType (depth + 3) registry target)
    (hmethod : Ahead.reserved.contains method.text = false)
    (h : ImplTokens moduleIdentity method registry calls tokens) (close : Nat) :
    Item.parse (Grammar.nested (depth + 3)) ⟨tokens, close, none⟩ =
      .ok (.plain [] .inherited (.impl ⟨some extensionPath, .named target,
        [(methodIdent moduleIdentity, bodyOf method calls)]⟩), ⟨[], close, none⟩) := by
  cases h with
  | @intro body hbody head type start line lines bodyOpen bodyClose inside =>
    have hname : Ahead.reserved.contains (methodIdent moduleIdentity).text = false := by
      simpa [methodIdent] using not_reserved_methodName moduleIdentity
    have hitem := @parseImplItem_method depth _ _ _ _ hname hmethod hbody line lines bodyOpen
      bodyClose inside
    exact parseItem_impl (htype _ _ _ _ _) hitem ⟨_, _, _, rfl⟩ head

theorem readAll_unit {moduleIdentity : String} {registry more : List Token} {target : Path}
    {method : Ident} {calls : List (List String)}
    (htype : ReadsAsType (depth + 3) registry target)
    (hmethod : Ahead.reserved.contains method.text = false)
    (htrait : TraitTokens moduleIdentity tokens)
    (himpl : ImplTokens moduleIdentity method registry calls more) (close : Nat) :
    ∃ line, readAll (File.parse (Grammar.nested (depth + 4))) (tokens ++ more) close =
      .ok (unitFile moduleIdentity target method calls line) := by
  obtain ⟨line, hfirst⟩ := @parseItem_trait depth _ _ htrait more close
  have hsecond := parseItem_unitImpl htype hmethod himpl close
  have hmany : Many (fun tokens => !tokens.isEmpty) (Grammar.nested (depth + 4) .item)
      ⟨tokens ++ more, close, none⟩ _ ⟨[], close, none⟩ :=
    .more (by cases htrait; rfl) hfirst (.more (by cases himpl; rfl) hsecond (.stop rfl))
  have hlength : 2 ≤ (tokens ++ more).length + 1 := by
    cases htrait
    simp [Lexer.docAttribute]
  have hitems := manyWhile_of_many hmany hlength
  have hinner : Attribute.parseInner (Grammar.nested (depth + 4)) ⟨tokens ++ more, close, none⟩ =
      .ok ([], ⟨tokens ++ more, close, none⟩) :=
    manyWhile_of_many (.stop (by cases htrait; rfl)) (by simp)
  have hfile : File.parse (Grammar.nested (depth + 4)) ⟨tokens ++ more, close, none⟩ =
      .ok (unitFile moduleIdentity target method calls line, ⟨[], close, none⟩) :=
    bind_eq_ok_iff.2 ⟨[], _, hinner, bind_eq_ok_iff.2 ⟨_, _, hitems, rfl⟩⟩
  refine ⟨line, ?_⟩
  rw [readAll, hfile]
  rfl

end JobRoster
