import JobRoster.Proofs.Text.Trimming

/-!
# Pieces between separators

A piece of a text holds no separator, and neither does what is left of it without blanks. Where
such pieces are joined to a path of segments without colons, the first of them is the first segment
of the path.
-/

namespace JobRoster.Text

/-- A piece starts as the text does, unless it is empty. -/
theorem head?_of_splitSegmentChars {cs piece : List Char} {pieces : List (List Char)}
    (h : splitSegmentChars cs = piece :: pieces) : piece = [] ∨ piece.head? = cs.head? := by
  unfold splitSegmentChars at h
  split at h
  · exact .inl (List.cons.inj h).1.symm
  · exact .inl (List.cons.inj h).1.symm
  · split at h <;> exact .inr ((List.cons.inj h).1 ▸ rfl)

/-- A piece is not split any more. -/
theorem splitSegmentChars_of_mem {cs : List Char} :
    ∀ piece ∈ splitSegmentChars cs, splitSegmentChars piece = [piece] := by
  fun_induction splitSegmentChars cs with
  | case1 => exact List.forall_mem_singleton.2 rfl
  | case2 cs ih => exact List.forall_mem_cons.2 ⟨rfl, ih⟩
  | case3 c cs _ hnil => exact absurd hnil (splitSegmentChars_ne_nil cs)
  | case4 c cs hseparator first pieces hsplit ih =>
    rw [hsplit] at ih
    obtain ⟨hfirst, hpieces⟩ := List.forall_mem_cons.1 ih
    refine List.forall_mem_cons.2 ⟨splitSegmentChars_cons ?_ hfirst, hpieces⟩
    rintro rfl hhead
    obtain rfl | hstart := head?_of_splitSegmentChars hsplit
    · cases hhead
    · rw [hstart] at hhead
      obtain ⟨rest, rfl⟩ := List.head?_eq_some_iff.1 hhead
      exact hseparator rest rfl rfl

/-- Trimming a piece makes no separator. -/
theorem splitSegments_trimmed {cs piece : List Char} (h : piece ∈ splitSegmentChars cs) :
    splitSegments (String.ofList (trimChars piece)) = [String.ofList (trimChars piece)] := by
  have hpieces := splitSegmentChars_trimChars piece
  rw [splitSegmentChars_of_mem piece h] at hpieces
  have hlength : (splitSegments (String.ofList (trimChars piece))).length = 1 := by
    rw [splitSegments, List.length_map, String.toList_ofList]
    simpa using congrArg List.length hpieces
  obtain ⟨single, hsingle⟩ := List.length_eq_one_iff.1 hlength
  have hjoined := joinSegments_splitSegments (String.ofList (trimChars piece))
  rw [hsingle, joinSegments_singleton] at hjoined
  rw [hsingle, hjoined]

/-- A text that is not split does not end in a separator. -/
theorem ne_append_separator {s t : String} (h : splitSegments s = [s]) : s ≠ t ++ "::" := by
  rintro rfl
  obtain ⟨piece, pieces, lead, -, hsplit⟩ := exists_splitSegments_append t
  have hempty := hsplit ""
  rw [String.append_empty, h] at hempty
  have hlength := congrArg List.length hempty
  have hrest := List.length_pos_iff.2 (splitSegments_ne_nil (lead ++ ""))
  simp only [List.length_append, List.length_cons, List.length_nil] at hlength
  omega

/-- A colon in front of a text is in its first piece, or makes that empty. -/
theorem head_splitSegments_colon (t : String) :
    ∃ piece pieces, splitSegments (":" ++ t) = piece :: pieces ∧
      (piece = "" ∨ ':' ∈ piece.toList) := by
  by_cases hhead : t.toList.head? = some ':'
  · obtain ⟨rest, hrest⟩ := List.head?_eq_some_iff.1 hhead
    have hchars : (":" ++ t).toList = ':' :: ':' :: rest := by simp [hrest]
    refine ⟨"", (splitSegmentChars rest).map String.ofList, ?_, .inl rfl⟩
    rw [splitSegments, hchars]
    rfl
  · obtain ⟨piece, pieces, hsplit⟩ := List.exists_cons_of_ne_nil (splitSegments_ne_nil t)
    exact ⟨":" ++ piece, pieces, splitSegments_colon hhead hsplit, .inr (by simp)⟩

/-- The first of some texts that are joined is the first segment, if it holds no separator and the
    segments are identifiers. -/
theorem head?_splitSegments_joinSegments {first : String} {rest : List String}
    (hfirst : splitSegments first = [first])
    (hnamed : ∀ segment ∈ splitSegments (joinSegments (first :: rest)), IsIdentifier segment) :
    (splitSegments (joinSegments (first :: rest))).head? = some first := by
  by_cases hrest : rest = []
  · rw [hrest, joinSegments_singleton, hfirst]
    rfl
  rw [joinSegments_cons _ hrest] at hnamed ⊢
  by_cases hend : EndsInColon first
  · -- a third colon would be in a segment, or leave one empty
    exfalso
    obtain ⟨before, hbefore⟩ := List.getLast?_eq_some_iff.1 hend
    have hstart : first = String.ofList before ++ ":" := by
      rw [← String.toList_inj, hbefore]
      simp
    have hopen : ¬ EndsInColon (String.ofList before) := by
      intro hcolon
      obtain ⟨more, hmore⟩ := List.getLast?_eq_some_iff.1 hcolon
      refine ne_append_separator (t := String.ofList more) hfirst ?_
      rw [hstart, ← String.toList_inj, String.toList_append, hmore]
      simp
    have hregroup : first ++ "::" ++ joinSegments rest =
        String.ofList before ++ "::" ++ (":" ++ joinSegments rest) := by
      rw [hstart, ← String.toList_inj]
      simp
    obtain ⟨piece, pieces, hsplit, hpiece⟩ := head_splitSegments_colon (joinSegments rest)
    rw [hregroup, splitSegments_append hopen, hsplit] at hnamed
    have hidentifier := hnamed piece (List.mem_append_right _ List.mem_cons_self)
    obtain hempty | hcolon := hpiece
    · exact hidentifier.ne_empty hempty
    · exact hidentifier.colon_not_mem hcolon
  · rw [splitSegments_append hend, hfirst]
    rfl

end JobRoster.Text
