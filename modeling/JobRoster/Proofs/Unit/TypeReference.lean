import JobRoster.Crate.ItemPath
import JobRoster.Proofs.Unit.Tree

/-!
# References to types

How a unit writes the path of a type is read as that path: the word for the crate, and one
identifier for each segment. Two paths of a crate are never written the same.
-/

namespace JobRoster

open Syntax Syntax.Lexer Text Crate

/-! ## Identifiers -/

theorem tokenize_ident (ident : Ident) :
    tokenize ident.text.toList = .ok [.ident ident 1] := by
  obtain ⟨raw, name, hname, hmarkable⟩ := ident
  cases raw with
  | false => exact tokenize_identifier hname
  | true =>
    have htext : (Ident.text ⟨true, name, hname, hmarkable⟩).toList =
        'r' :: '#' :: name.toList := by
      simp [Ident.text, String.toList_append]
    have hreads := Reads.rawWord hname (hmarkable rfl) endsName_nil 1
    rw [List.append_nil] at hreads
    rw [htext]
    exact tokenize_eq_ok_iff.2 ⟨1, hreads⟩

/-- An identifier that is written as it was read is read again. -/
theorem parseIdent_text {ident : Ident} (h : Ahead.reserved.contains ident.text = false) :
    parseIdent ident.text = .ok ident := by
  have htake : Parser.takeIdent ⟨[.ident ident 1], endLine, none⟩ =
      .ok (ident, ⟨[], endLine, none⟩) := Parser.takeIdent_cons h 1 [] endLine none
  rw [parseIdent, readText, tokenize_ident]
  change Parser.readAll Parser.takeIdent [.ident ident 1] endLine = _
  rw [Parser.readAll, htake]
  rfl

/-! ## Paths of types -/

/-- A name that an item can have, be it a keyword. A lone underscore is none, and the words that
    lead to another module name no item of theirs. -/
structure IsSegment (name : String) : Prop where
  word : IsIdentifier name
  named : name ≠ "_"
  free : name ∉ ["self", "super", "crate", "Self"]

theorem IsSegment.not_mem_unraw {name : String} (h : IsSegment name) : name ∉ unraw := by
  have hfree := h.free
  have hnamed := h.named
  simp only [List.mem_cons, List.not_mem_nil, or_false, not_or] at hfree
  simp [unraw, hnamed, hfree]

variable {crateName : String} {segments : List String}

theorem splitSegments_crate (hcrate : ':' ∉ crateName.toList)
    (hsegments : ∀ segment ∈ segments, IsSegment segment) :
    splitSegments (joinSegments (crateName :: segments)) = crateName :: segments := by
  refine splitSegments_joinSegments (List.cons_ne_nil _ _) (List.forall_mem_cons.2 ⟨hcrate, ?_⟩)
  exact fun name hname => (hsegments name hname).word.colon_not_mem

theorem segmentsBelow_joinSegments (hcrate : ':' ∉ crateName.toList)
    (hsegments : ∀ segment ∈ segments, IsSegment segment) :
    segmentsBelow crateName (joinSegments (crateName :: segments)) = segments := by
  rw [segmentsBelow, splitSegments_crate hcrate hsegments]
  exact if_pos rfl

/-- A path as it is meant inside of a crate, where the word for the crate stands for its name. -/
def pathWithin (crateName : String) (path : ItemPath) : String :=
  match path.segments with
  | "crate" :: segments => joinSegments (crateName :: segments)
  | segments => joinSegments segments

/-- What a reference is read as. -/
theorem reads_typeReference (hcrate : ':' ∉ crateName.toList)
    (hsegments : ∀ segment ∈ segments, IsSegment segment) :
    ∃ tokens below, SegmentTokens tokens below ∧ below.map (·.ident.name) = segments ∧
      (∀ segment ∈ below, Ahead.reserved.contains segment.ident.text = false) ∧
      tokenize (typeReference crateName (joinSegments (crateName :: segments))).toList =
        .ok (.ident crateIdent 1 :: tokens) := by
  have hnames : ∀ segment ∈ segments, IsIdentifier segment ∧ segment ∉ unraw :=
    fun segment hmem => ⟨(hsegments segment hmem).word, (hsegments segment hmem).not_mem_unraw⟩
  obtain ⟨tokens, below, hbelow, hsame, hplain, hreads⟩ := reads_belowRoot hnames endsName_nil 1
  refine ⟨tokens, below, hbelow, hsame, hplain, ?_⟩
  have hroot : Reads 1 ("crate".toList ++ (belowRoot segments ++ [])) 1 (belowRoot segments ++ [])
      [.ident crateIdent 1] := .word _ (endsName_belowRoot segments endsName_nil) 1
  have hall := hroot.trans hreads
  rw [toList_typeReference, segmentsBelow_joinSegments hcrate hsegments]
  rw [List.append_nil] at hall
  exact tokenize_eq_ok_iff.2 ⟨1, hall⟩

theorem parsePath_typeReference {tokens : List Token} {below : List PathSegment} {text : String}
    (hbelow : SegmentTokens tokens below)
    (hplain : ∀ segment ∈ below, Ahead.reserved.contains segment.ident.text = false)
    (htokens : tokenize text.toList = .ok (.ident crateIdent 1 :: tokens)) :
    parsePath text = .ok ⟨false, ⟨crateIdent, .none⟩ :: below⟩ := by
  have hends : EndsPath [] := ⟨rfl, rfl⟩
  have hpath := parsePath_crate (Grammar.for (.ident crateIdent 1 :: tokens)) hbelow hplain hends 1
    endLine none
  rw [List.append_nil] at hpath
  rw [parsePath, readText, htokens]
  change Parser.readAll (Path.parse (Grammar.for (.ident crateIdent 1 :: tokens)) false)
    (.ident crateIdent 1 :: tokens) endLine = _
  rw [Parser.readAll, hpath]
  rfl

/-- The reference to a type reads back as its path: it is the word for the crate and an identifier
    for each segment, and what a path of the crate is read as tells the path. -/
theorem typeReference_reads_back (hcrate : ':' ∉ crateName.toList)
    (hsegments : ∀ segment ∈ segments, IsSegment segment) :
    (∃ tokens below, SegmentTokens tokens below ∧
      tokenize (typeReference crateName (joinSegments (crateName :: segments))).toList =
        .ok (.ident crateIdent 1 :: tokens) ∧
      (∀ segment ∈ below, parseIdent segment.ident.text = .ok segment.ident) ∧
      below.map (·.ident.name) = segments) ∧
    ((parsePath (typeReference crateName (joinSegments (crateName :: segments)))).map fun path =>
      pathWithin crateName (ItemPath.ofSyntax path)) = .ok (joinSegments (crateName :: segments)) ∧
    ∀ others : List String, (∀ segment ∈ others, IsSegment segment) → others ≠ segments →
      typeReference crateName (joinSegments (crateName :: others)) ≠
        typeReference crateName (joinSegments (crateName :: segments)) := by
  have hread : ∀ names : List String, (∀ segment ∈ names, IsSegment segment) →
      ((parsePath (typeReference crateName (joinSegments (crateName :: names)))).map fun path =>
        pathWithin crateName (ItemPath.ofSyntax path)) =
          .ok (joinSegments (crateName :: names)) := by
    intro names hnames
    obtain ⟨tokens, below, hbelow, hsame, hplain, htokens⟩ := reads_typeReference hcrate hnames
    rw [parsePath_typeReference hbelow hplain htokens, ← hsame]
    rfl
  refine ⟨?_, hread segments hsegments, ?_⟩
  · obtain ⟨tokens, below, hbelow, hsame, hplain, htokens⟩ := reads_typeReference hcrate hsegments
    exact ⟨tokens, below, hbelow, htokens,
      fun segment hmem => parseIdent_text (hplain segment hmem), hsame⟩
  · intro others hothers hne heq
    refine hne ?_
    have hboth := hread segments hsegments
    rw [← heq, hread others hothers] at hboth
    have hsplit := congrArg splitSegments (Except.ok.inj hboth)
    rw [splitSegments_crate hcrate hothers, splitSegments_crate hcrate hsegments] at hsplit
    exact (List.cons.inj hsplit).2

/-- The keyword `fn` is a name like any other, but it is marked. -/
theorem typeReference_reads_back_keyword :
    typeReference "app" "app::fn::Nightly" = "crate::r#fn::Nightly" ∧
    ((parsePath (typeReference "app" "app::fn::Nightly")).map fun path =>
      pathWithin "app" (ItemPath.ofSyntax path)) = .ok "app::fn::Nightly" := by
  have hsegments : ∀ segment ∈ ["fn", "Nightly"], IsSegment segment := by
    simp only [List.forall_mem_cons]
    exact ⟨⟨by decide +kernel, by decide, by decide⟩,
      ⟨by decide +kernel, by decide, by decide⟩, nofun⟩
  have hcrate : ':' ∉ "app".toList := by decide
  exact ⟨by decide +kernel, (typeReference_reads_back hcrate hsegments).2.1⟩

end JobRoster
