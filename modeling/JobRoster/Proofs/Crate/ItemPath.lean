import JobRoster.Proofs.Syntax.PlainPath
import JobRoster.Settings.Basic

/-!
# Paths that are read from a text

An item path is read off a text without its tokens. Where the text is a path in plain spelling, it
is the path that the tokens spell, and the marker's short name is its last segment.
-/

namespace JobRoster.Crate

open Syntax Text

namespace ItemPath

theorem map_trim_splitSegments (text : String) : (splitSegments text).map trim =
    ((splitSegmentChars text.toList).map trimChars).map String.ofList := by
  simp [splitSegments, trim]

/-- The segments of a text whose pieces, once trimmed, are not empty. -/
theorem segments_eq {text : String} {names : List (List Char)}
    (h : (splitSegmentChars text.toList).map trimChars = names) (hne : ∀ name ∈ names, name ≠ []) :
    ((splitSegments text).map trim).filter (!·.isEmpty) = names.map String.ofList := by
  rw [map_trim_splitSegments, h, List.filter_eq_self]
  intro name hname
  obtain ⟨chars, hchars, rfl⟩ := List.mem_map.1 hname
  simpa using hne chars hchars

theorem parse_of_dropLead? {text rest : String} (h : dropLead? "::" (trim text) = some rest) :
    ItemPath.parse text = ⟨true, ((splitSegments rest).map trim).filter (!·.isEmpty)⟩ := by
  simp only [ItemPath.parse, h]

theorem parse_of_dropLead?_none {text : String} (h : dropLead? "::" (trim text) = none) :
    ItemPath.parse text = ⟨false, ((splitSegments (trim text)).map trim).filter (!·.isEmpty)⟩ := by
  simp only [ItemPath.parse, h]

theorem pieces_trim (text : String) :
    (splitSegmentChars (trim text).toList).map trimChars =
      (splitSegmentChars text.toList).map trimChars := by
  rw [trim, String.toList_ofList, splitSegmentChars_trimChars]

theorem splitSegmentChars_lead (rest : String) :
    splitSegmentChars ("::" ++ rest).toList = [] :: splitSegmentChars rest.toList := by
  rw [String.toList_append]
  rfl

/-- A separator at the start makes no difference to the segments. -/
theorem segments_parse (text : String) :
    (ItemPath.parse text).segments =
      (((splitSegmentChars text.toList).map trimChars).map String.ofList).filter (!·.isEmpty) := by
  rw [← pieces_trim, ← map_trim_splitSegments]
  cases hlead : dropLead? "::" (trim text) with
  | none => rw [parse_of_dropLead?_none hlead]
  | some rest =>
    rw [parse_of_dropLead? hlead, map_trim_splitSegments, map_trim_splitSegments,
      dropLead?_eq_some_iff.1 hlead, splitSegmentChars_lead]
    rfl

/-- A text whose segments are made of characters of identifiers is in plain spelling. -/
theorem plainText_of_segments {text : String}
    (h : ∀ segment ∈ (ItemPath.parse text).segments, ∀ c ∈ segment.toList, isPathChar c = true) :
    PlainText text.toList := by
  intro c hc
  by_cases hcolon : c = ':'
  · simp [isPathChar, hcolon]
  obtain ⟨piece, hpiece, hmem⟩ := exists_mem_splitSegmentChars hc hcolon
  obtain ⟨before, after, hbefore, hafter, hsplit⟩ := exists_trimChars_append piece
  rw [hsplit, List.mem_append, List.mem_append] at hmem
  rcases hmem with (hblank | hname) | hblank
  · simp [isPathChar, hbefore c hblank]
  · refine h (String.ofList (trimChars piece)) ?_ c (by simpa using hname)
    rw [segments_parse, List.mem_filter]
    refine ⟨List.mem_map_of_mem (List.mem_map_of_mem hpiece), ?_⟩
    simpa using List.ne_nil_of_mem hname
  · simp [isPathChar, hafter c hblank]

/-- The path of a text that does not start with a separator. -/
theorem parse_relative {text : String} {first : List Char} {names : List (List Char)}
    (h : (splitSegmentChars text.toList).map trimChars = first :: names)
    (hne : ∀ name ∈ first :: names, name ≠ []) :
    ItemPath.parse text = ⟨false, (first :: names).map String.ofList⟩ := by
  rw [← pieces_trim] at h
  cases hlead : dropLead? "::" (trim text) with
  | none => rw [parse_of_dropLead?_none hlead, segments_eq h hne]
  | some rest =>
    -- before a separator at the start there would be an empty piece
    rw [dropLead?_eq_some_iff.1 hlead, splitSegmentChars_lead, List.map_cons] at h
    exact absurd (List.cons.inj h).1.symm (hne first List.mem_cons_self)

/-- The path of a text that starts with a separator, blanks aside. -/
theorem parse_absolute {text : String} {names : List (List Char)}
    (h : (splitSegmentChars text.toList).map trimChars = [] :: names) (hnames : names ≠ [])
    (hne : ∀ name ∈ names, name ≠ []) :
    ItemPath.parse text = ⟨true, names.map String.ofList⟩ := by
  rw [← pieces_trim] at h
  cases hlead : dropLead? "::" (trim text) with
  | some rest =>
    rw [dropLead?_eq_some_iff.1 hlead, splitSegmentChars_lead, List.map_cons] at h
    rw [parse_of_dropLead? hlead, segments_eq (List.cons.inj h).2 hne]
  | none =>
    -- the text is trimmed, so a blank piece at its start can only be empty
    exfalso
    have htrim : trimChars text.toList = (trim text).toList := String.toList_ofList.symm
    cases hchars : (trim text).toList with
    | nil =>
      rw [hchars] at h
      exact hnames (List.cons.inj h).2.symm
    | cons c cs =>
      have hc : isBlank c = false := not_isBlank_of_trimChars_eq_cons (htrim.trans hchars)
      have hseparator : c = ':' → cs.head? ≠ some ':' := by
        rintro rfl hhead
        obtain ⟨rest, rfl⟩ := List.head?_eq_some_iff.1 hhead
        have hstart : trim text = "::" ++ String.ofList rest := by
          rw [← String.toList_inj, hchars]
          simp
        rw [dropLead?_eq_some_iff.2 hstart] at hlead
        cases hlead
      cases hsplit : splitSegmentChars cs with
      | nil => exact splitSegmentChars_ne_nil cs hsplit
      | cons piece pieces =>
        rw [hchars, splitSegmentChars_cons hseparator hsplit] at h
        have hblank := isBlank_of_trimChars_eq_nil (List.cons.inj h).1 c List.mem_cons_self
        rw [hc] at hblank
        cases hblank

theorem map_ofList_nameChars (segments : List PathSegment) :
    (nameChars segments).map String.ofList = segments.map (·.ident.name) := by
  simp [nameChars]

theorem last?_ofSyntax (path : Path) :
    (ofSyntax path).last? = (nameChars path.segments).getLast?.map String.ofList := by
  rw [ItemPath.last?, ofSyntax, ← map_ofList_nameChars, List.getLast?_map]

/-- The path that is read off a text in plain spelling is the one that its tokens spell. -/
theorem parse_eq_ofSyntax {text : String} {path : Path} (hplain : PlainText text.toList)
    (h : parsePath text = .ok path) : ItemPath.parse text = ofSyntax path := by
  obtain ⟨hpieces, hlast⟩ := pieces_of_parsePath hplain h
  have hne : ∀ name ∈ nameChars path.segments, name ≠ [] := by
    intro name hname
    obtain ⟨segment, -, rfl⟩ := List.mem_map.1 hname
    simpa using segment.ident.isIdentifier.ne_empty
  cases hsegments : nameChars path.segments with
  | nil =>
    rw [hsegments] at hlast
    cases hlast
  | cons first names =>
    rw [hsegments] at hpieces hne
    have hparsed : ItemPath.parse text =
        ⟨path.leadingColon, (first :: names).map String.ofList⟩ := by
      cases hlead : path.leadingColon with
      | true =>
        rw [hlead] at hpieces
        exact parse_absolute hpieces (List.cons_ne_nil first names) hne
      | false =>
        rw [hlead] at hpieces
        exact parse_relative hpieces hne
    rw [hparsed, ← hsegments, map_ofList_nameChars, ofSyntax]

end ItemPath

/-- The short name of a marker in plain spelling is the last segment of its path. -/
theorem markerShortName_eq {settings : Settings} {path : Path}
    (hplain : PlainText settings.marker.toList) (h : parsePath settings.marker = .ok path) :
    (ItemPath.ofSyntax path).last? = some settings.markerShortName := by
  rw [ItemPath.last?_ofSyntax, ← (pieces_of_parsePath hplain h).2, Settings.markerShortName]

end JobRoster.Crate
