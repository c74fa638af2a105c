import Mathlib.Data.List.Forall2
import JobRoster.Proofs.Crate.ItemPath
import JobRoster.Proofs.Crate.Paths

/-!
# Paths and their texts

A path is kept as its segments and written as one text, and neither loses anything of the other. The
text of a path is read as that path again, also where blanks stand in it around the segments. The
canonical paths of two items are one text only where the items have the same segments, and the walk
along a canonical path meets the segments that it was made of.
-/

namespace JobRoster.Text

/-! ## Words and blanks around them -/

/-- A text that separators and blanks tell apart from what is around it, as an identifier is with or
    without a raw mark. -/
structure IsWord (s : String) : Prop where
  ne_empty : s ≠ ""
  colon_not_mem : ':' ∉ s.toList
  not_isBlank : ∀ c ∈ s.toList, isBlank c = false

theorem IsIdentifier.isWord {s : String} (h : IsIdentifier s) : IsWord s where
  ne_empty := h.ne_empty
  colon_not_mem := h.colon_not_mem
  not_isBlank c hc := not_isBlank_of_isIdentContinue (h.isIdentContinue c hc)

theorem IsIdentifier.isWord_raw {s : String} (h : IsIdentifier s) : IsWord ("r#" ++ s) where
  ne_empty := by simp
  colon_not_mem := by simpa using h.colon_not_mem
  not_isBlank c hc := by
    rw [String.toList_append, List.mem_append] at hc
    rcases hc with hmark | hname
    · obtain rfl | rfl : c = 'r' ∨ c = '#' := by simpa using hmark
      · decide
      · decide
    · exact h.isWord.not_isBlank c hname

theorem IsWord.trimChars_eq {s : String} (h : IsWord s) : trimChars s.toList = s.toList :=
  trimChars_of_not_isBlank h.not_isBlank

/-- The second text is the first one between blanks. -/
def Padded (inner outer : String) : Prop :=
  ∃ before after : String, isAllBlank before = true ∧ isAllBlank after = true ∧
    outer = before ++ inner ++ after

namespace Padded

variable {inner outer : String}

theorem refl (s : String) : Padded s s :=
  ⟨"", "", rfl, rfl, by simp⟩

theorem trimChars_eq (h : Padded inner outer) : trimChars outer.toList = trimChars inner.toList := by
  obtain ⟨before, after, hbefore, hafter, rfl⟩ := h
  rw [isAllBlank, List.all_eq_true] at hbefore hafter
  simp only [String.toList_append]
  rw [trimChars_append_blank hafter, trimChars_blank_append hbefore]

theorem colon_not_mem (h : Padded inner outer) (hinner : ':' ∉ inner.toList) :
    ':' ∉ outer.toList := by
  obtain ⟨before, after, hbefore, hafter, rfl⟩ := h
  rw [isAllBlank, List.all_eq_true] at hbefore hafter
  simp only [String.toList_append, List.mem_append]
  rintro ((hmem | hmem) | hmem)
  · exact colon_not_mem_of_isBlank hbefore hmem
  · exact hinner hmem
  · exact colon_not_mem_of_isBlank hafter hmem

end Padded

variable {segments pieces : List String}

/-- Words between blanks are what is left of them once they are trimmed. -/
theorem map_trimChars_of_padded (hwords : ∀ segment ∈ segments, IsWord segment)
    (h : List.Forall₂ Padded segments pieces) :
    pieces.map (fun piece => trimChars piece.toList) = segments.map String.toList := by
  induction h with
  | nil => rfl
  | cons hpiece _ ih =>
    obtain ⟨hword, hrest⟩ := List.forall_mem_cons.1 hwords
    rw [List.map_cons, List.map_cons, hpiece.trimChars_eq, hword.trimChars_eq, ih hrest]

theorem colon_not_mem_of_padded (hwords : ∀ segment ∈ segments, IsWord segment)
    (h : List.Forall₂ Padded segments pieces) : ∀ piece ∈ pieces, ':' ∉ piece.toList := by
  induction h with
  | nil => simp
  | cons hpiece _ ih =>
    obtain ⟨hword, hrest⟩ := List.forall_mem_cons.1 hwords
    exact List.forall_mem_cons.2 ⟨hpiece.colon_not_mem hword.colon_not_mem, ih hrest⟩

/-- Joined words are split where they were joined, and blanks around them do not count. -/
theorem map_trimChars_joinSegments (hne : segments ≠ [])
    (hwords : ∀ segment ∈ segments, IsWord segment) (h : List.Forall₂ Padded segments pieces) :
    (splitSegmentChars (joinSegments pieces).toList).map trimChars =
      segments.map String.toList := by
  have hpieces : pieces ≠ [] := by
    rintro rfl
    cases h
    exact hne rfl
  have hsplit := splitSegments_joinSegments hpieces (colon_not_mem_of_padded hwords h)
  have hchars : splitSegmentChars (joinSegments pieces).toList = pieces.map String.toList := by
    rw [splitSegments] at hsplit
    calc splitSegmentChars (joinSegments pieces).toList
        = ((splitSegmentChars (joinSegments pieces).toList).map String.ofList).map
            String.toList := by simp [Function.comp_def]
      _ = pieces.map String.toList := by rw [hsplit]
  rw [hchars, List.map_map]
  exact map_trimChars_of_padded hwords h

end JobRoster.Text

namespace JobRoster.Crate

open Text

/-! ## Reading the text of a path -/

namespace ItemPath

/-- A text of the path: blanks may stand around all of it and around every segment. -/
def WrittenAs (path : ItemPath) (text : String) : Prop :=
  ∃ pieces, List.Forall₂ Padded path.segments pieces ∧
    Padded (ItemPath.text ⟨path.leadingColon, pieces⟩) text

theorem writtenAs_text (path : ItemPath) : path.WrittenAs path.text :=
  ⟨path.segments, List.forall₂_same.2 fun segment _ => .refl segment, .refl _⟩

/-- However a path of words is written, it is read back. -/
theorem parse_of_writtenAs {path : ItemPath} (hwords : ∀ segment ∈ path.segments, IsWord segment)
    {text : String} (h : path.WrittenAs text) : ItemPath.parse text = path := by
  obtain ⟨leadingColon, segments⟩ := path
  obtain ⟨pieces, hpieces, htext⟩ := h
  have htrim : trim text = trim (ItemPath.text ⟨leadingColon, pieces⟩) :=
    congrArg String.ofList htext.trimChars_eq
  have hchars : (splitSegmentChars text.toList).map trimChars =
      (splitSegmentChars (ItemPath.text ⟨leadingColon, pieces⟩).toList).map trimChars := by
    rw [← pieces_trim, htrim, pieces_trim]
  have hback : (segments.map String.toList).map String.ofList = segments := by
    simp [Function.comp_def]
  have hnonempty : ∀ name ∈ segments.map String.toList, name ≠ [] := by
    intro name hname
    obtain ⟨segment, hsegment, rfl⟩ := List.mem_map.1 hname
    simpa using (hwords segment hsegment).ne_empty
  cases segments with
  | nil =>
    -- nothing but the separator in front is left of such a text
    cases hpieces
    cases leadingColon with
    | false =>
      have hempty : trim text = "" := htrim.trans (by decide)
      rw [ItemPath.parse, hempty]
      decide
    | true =>
      have hempty : trim text = "::" := htrim.trans (by decide)
      rw [ItemPath.parse, hempty]
      decide
  | cons first rest =>
    have hjoined := map_trimChars_joinSegments (List.cons_ne_nil first rest) hwords hpieces
    cases leadingColon with
    | false =>
      have hrelative : ItemPath.text ⟨false, pieces⟩ = joinSegments pieces := by simp [ItemPath.text]
      rw [hrelative, hjoined] at hchars
      rw [parse_relative hchars hnonempty]
      exact congrArg (ItemPath.mk false) hback
    | true =>
      have habsolute : ItemPath.text ⟨true, pieces⟩ = "::" ++ joinSegments pieces := rfl
      rw [habsolute, splitSegmentChars_lead, List.map_cons, hjoined] at hchars
      rw [parse_absolute hchars (by simp) hnonempty]
      exact congrArg (ItemPath.mk true) hback

end ItemPath

/-! ## Texts and segments -/

/-- Paths of words and their texts stand for each other. A path is read off its text, blanks around
    the segments or not. In one crate, canonical paths are the same where their segments are, and
    these can be read off them, but for the path of the crate itself. -/
theorem parse_text_and_canonicalIn (c : Crate) (path : ItemPath) (p s p' s' : List String)
    (hpath : ∀ segment ∈ path.segments, IsWord segment)
    (hwords : ∀ segment ∈ p ++ s, IsWord segment)
    (hwords' : ∀ segment ∈ p' ++ s', IsWord segment) :
    ItemPath.parse path.text = path ∧
    (∀ text, path.WrittenAs text → ItemPath.parse text = path) ∧
    (c.canonicalIn p s = c.canonicalIn p' s' ↔ p ++ s = p' ++ s') ∧
    (localSegments? c (c.canonicalIn p s) = if p ++ s = [] then none else some (p ++ s)) := by
  refine ⟨?_, ?_, ?_, ?_⟩
  · exact ItemPath.parse_of_writtenAs hpath path.writtenAs_text
  · intro text htext
    exact ItemPath.parse_of_writtenAs hpath htext
  · exact canonicalIn_eq_iff (fun segment hsegment => (hwords segment hsegment).colon_not_mem)
      fun segment hsegment => (hwords' segment hsegment).colon_not_mem
  · exact localSegments?_canonicalIn fun segment hsegment =>
      (hwords segment hsegment).colon_not_mem

/-- A path with a raw mark, written with blanks in all places. -/
theorem parse_text_and_canonicalIn_blanks :
    (∀ segment ∈ ["jobkit", "r#type"], IsWord segment) ∧
    (∀ segment ∈ ["jobs", "Nightly"], IsWord segment) ∧
    ItemPath.WrittenAs ⟨true, ["jobkit", "r#type"]⟩ " :: jobkit ::r#type\t" ∧
    ItemPath.parse " :: jobkit ::r#type\t" = ⟨true, ["jobkit", "r#type"]⟩ ∧
    (Crate.mk "app" ["app"] [] [] [] [] []).canonicalIn ["jobs"] ["Nightly"] =
      (Crate.mk "app" ["app"] [] [] [] [] []).canonicalIn ["jobs", "Nightly"] [] ∧
    localSegments? (Crate.mk "app" ["app"] [] [] [] [] [])
      ((Crate.mk "app" ["app"] [] [] [] [] []).canonicalIn ["jobs"] ["Nightly"]) =
        some ["jobs", "Nightly"] := by
  have hpath : ∀ segment ∈ ["jobkit", "r#type"], IsWord segment := by
    have htype : IsWord ("r#" ++ "type") := IsIdentifier.isWord_raw (by decide)
    simpa using ⟨IsIdentifier.isWord (by decide), htype⟩
  have hwords : ∀ segment ∈ ["jobs", "Nightly"], IsWord segment := by
    simpa using ⟨IsIdentifier.isWord (by decide), IsIdentifier.isWord (by decide)⟩
  have hwritten : ItemPath.WrittenAs ⟨true, ["jobkit", "r#type"]⟩ " :: jobkit ::r#type\t" := by
    refine ⟨[" jobkit ", "r#type"], .cons ?_ (.cons (.refl _) .nil), ?_⟩
    · exact ⟨" ", " ", rfl, rfl, rfl⟩
    · exact ⟨" ", "\t", rfl, rfl, by decide⟩
  obtain ⟨-, hparse, hsame, hlocal⟩ := parse_text_and_canonicalIn
    (Crate.mk "app" ["app"] [] [] [] [] []) ⟨true, ["jobkit", "r#type"]⟩ ["jobs"] ["Nightly"]
    ["jobs", "Nightly"] [] hpath hwords hwords
  exact ⟨hpath, hwords, hwritten, hparse _ hwritten, hsame.2 rfl, hlocal⟩

end JobRoster.Crate
