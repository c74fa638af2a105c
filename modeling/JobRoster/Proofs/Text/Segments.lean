import Mathlib.Data.List.Basic
import JobRoster.Text.Identifier
import JobRoster.Text.Segments

/-!
# Splitting and joining paths

Joining undoes splitting. Splitting undoes joining where no segment holds a colon, as no identifier
does. A text that does not end in a colon is split apart from what is joined to it.
-/

namespace JobRoster.Text

/-! ## Colons in a text -/

/-- The colon at the end of such a text and the one of a separator would separate too early. -/
def EndsInColon (s : String) : Prop :=
  s.toList.getLast? = some ':'

theorem isIdentContinue_of_isIdentStart {c : Char} (h : isIdentStart c = true) :
    isIdentContinue c = true := by
  unfold isIdentStart at h
  unfold isIdentContinue
  split at h
  next hascii =>
    rw [if_pos hascii]
    simp only [Bool.or_eq_true] at h ⊢
    exact h.imp_left .inl
  next hascii => rw [if_neg hascii, h, Bool.true_or]

theorem IsIdentifier.isIdentContinue {s : String} (h : IsIdentifier s) :
    ∀ c ∈ s.toList, isIdentContinue c = true := by
  rw [IsIdentifier] at h
  cases hs : s.toList with
  | nil => simp
  | cons c cs =>
    rw [hs] at h
    simp only [isIdent, Bool.and_eq_true, List.all_eq_true] at h
    rintro d (_ | ⟨_, hd⟩)
    · exact isIdentContinue_of_isIdentStart h.1
    · exact h.2 d hd

theorem IsIdentifier.colon_not_mem {s : String} (h : IsIdentifier s) : ':' ∉ s.toList := by
  intro hmem
  exact absurd (h.isIdentContinue ':' hmem) (by decide)

theorem IsIdentifier.ne_empty {s : String} (h : IsIdentifier s) : s ≠ "" := by
  rintro rfl
  exact absurd h (by decide)

theorem not_endsInColon_of_not_mem {s : String} (h : ':' ∉ s.toList) : ¬ EndsInColon s :=
  fun hend => h (List.mem_of_getLast? hend)

theorem endsInColon_append {s t : String} (ht : t ≠ "") : EndsInColon (s ++ t) ↔ EndsInColon t := by
  have hlast : t.toList.getLast? ≠ none := by simpa using ht
  obtain ⟨c, hc⟩ := Option.ne_none_iff_exists'.1 hlast
  rw [EndsInColon, EndsInColon, String.toList_append, List.getLast?_append, hc, Option.some_or]

/-! ## Splitting -/

theorem splitSegmentChars_of_not_mem {cs : List Char} (h : ':' ∉ cs) :
    splitSegmentChars cs = [cs] := by
  fun_induction splitSegmentChars cs with
  | case1 => rfl
  | case2 cs ih => simp at h
  | case3 c cs _ hnil ih => exact absurd hnil (splitSegmentChars_ne_nil cs)
  | case4 c cs _ piece pieces hsplit ih =>
    rw [hsplit] at ih
    obtain ⟨rfl, rfl⟩ : piece = cs ∧ pieces = [] := by
      simpa using ih fun hmem => h (List.mem_cons_of_mem c hmem)
    rfl

theorem splitSegmentChars_cons {c : Char} {cs piece : List Char} {pieces : List (List Char)}
    (hc : c = ':' → cs.head? ≠ some ':') (h : splitSegmentChars cs = piece :: pieces) :
    splitSegmentChars (c :: cs) = (c :: piece) :: pieces := by
  rw [splitSegmentChars.eq_3, h]
  rintro cs' rfl rfl
  exact hc rfl rfl

/-- A separator behind a text that does not end in a colon is split at. -/
theorem splitSegmentChars_append {cs : List Char} (h : cs.getLast? ≠ some ':') (rest : List Char) :
    splitSegmentChars (cs ++ ':' :: ':' :: rest) =
      splitSegmentChars cs ++ splitSegmentChars rest := by
  fun_induction splitSegmentChars cs with
  | case1 => rfl
  | case2 cs ih =>
    have hlast : cs.getLast? ≠ some ':' := by
      cases cs with
      | nil => simp at h
      | cons c cs => simpa using h
    simp only [List.cons_append, splitSegmentChars, ih hlast]
  | case3 c cs _ hnil ih => exact absurd hnil (splitSegmentChars_ne_nil cs)
  | case4 c cs hsep piece pieces hsplit ih =>
    cases cs with
    | nil =>
      obtain ⟨rfl, rfl⟩ : [] = piece ∧ [] = pieces := by simpa [splitSegmentChars] using hsplit
      exact splitSegmentChars_cons (by rintro rfl; simp at h) rfl
    | cons d cs =>
      -- the separator is not reached yet, and no other starts here
      have hlast : (d :: cs).getLast? ≠ some ':' := by simpa using h
      rw [hsplit] at ih
      refine splitSegmentChars_cons ?_ (ih hlast)
      rintro rfl hd
      exact hsep cs rfl (by simpa using hd)

/-- Any text is split apart from what is joined to it, but for a colon: an odd one at its end goes over
    to what follows. -/
theorem exists_splitSegmentChars_append (cs : List Char) :
    ∃ piece pieces lead, (lead = [] ∨ lead = [':']) ∧ ∀ rest,
      splitSegmentChars (cs ++ ':' :: ':' :: rest) =
        piece :: pieces ++ splitSegmentChars (lead ++ rest) := by
  fun_induction splitSegmentChars cs with
  | case1 => exact ⟨[], [], [], .inl rfl, fun rest => rfl⟩
  | case2 cs ih =>
    obtain ⟨piece, pieces, lead, hlead, hsplit⟩ := ih
    refine ⟨[], piece :: pieces, lead, hlead, fun rest => ?_⟩
    rw [List.cons_append, List.cons_append, splitSegmentChars, hsplit rest]
    rfl
  | case3 c cs _ hnil => exact absurd hnil (splitSegmentChars_ne_nil cs)
  | case4 c cs hsep _ _ _ ih =>
    by_cases hodd : c = ':' ∧ cs = []
    · obtain ⟨rfl, rfl⟩ := hodd
      exact ⟨[], [], [':'], .inr rfl, fun rest => rfl⟩
    · obtain ⟨piece, pieces, lead, hlead, hsplit⟩ := ih
      refine ⟨c :: piece, pieces, lead, hlead, fun rest => ?_⟩
      refine splitSegmentChars_cons ?_ (hsplit rest)
      rintro rfl hhead
      cases cs with
      | nil => exact hodd ⟨rfl, rfl⟩
      | cons d cs => exact hsep cs rfl (by simpa using hhead)

theorem splitSegments_of_not_mem {s : String} (h : ':' ∉ s.toList) : splitSegments s = [s] := by
  simp [splitSegments, splitSegmentChars_of_not_mem h]

theorem splitSegments_append {s : String} (h : ¬ EndsInColon s) (t : String) :
    splitSegments (s ++ "::" ++ t) = splitSegments s ++ splitSegments t := by
  have hchars : (s ++ "::" ++ t).toList = s.toList ++ ':' :: ':' :: t.toList := by simp
  rw [splitSegments, hchars, splitSegmentChars_append h, List.map_append]
  rfl

/-- A colon goes over to the first piece, unless it separates. -/
theorem splitSegments_colon {s piece : String} {pieces : List String}
    (hhead : s.toList.head? ≠ some ':') (h : splitSegments s = piece :: pieces) :
    splitSegments (":" ++ s) = (":" ++ piece) :: pieces := by
  obtain ⟨first, others, hsplit, rfl, rfl⟩ := List.map_eq_cons_iff.1 h
  have hchars : (":" ++ s).toList = ':' :: s.toList := by simp
  rw [splitSegments, hchars, splitSegmentChars_cons (fun _ => hhead) hsplit, List.map_cons]
  simp

/-- What the end of a text adds to the text behind the next separator: a colon, or nothing. -/
def IsLead (lead : String) : Prop :=
  lead = "" ∨ lead = ":"

/-- Any text is split apart from what is joined to it, but for a colon that goes over. -/
theorem exists_splitSegments_append (s : String) :
    ∃ piece pieces lead, IsLead lead ∧ ∀ t,
      splitSegments (s ++ "::" ++ t) = piece :: pieces ++ splitSegments (lead ++ t) := by
  obtain ⟨piece, pieces, lead, hlead, hsplit⟩ := exists_splitSegmentChars_append s.toList
  refine ⟨String.ofList piece, pieces.map String.ofList, String.ofList lead, ?_, fun t => ?_⟩
  · exact hlead.imp (congrArg String.ofList) (congrArg String.ofList)
  · have hchars : (s ++ "::" ++ t).toList = s.toList ++ ':' :: ':' :: t.toList := by simp
    simp [splitSegments, hchars, hsplit]

/-- Every character but those of separators is in a piece. -/
theorem exists_mem_splitSegmentChars {cs : List Char} {d : Char} (hd : d ∈ cs) (hcolon : d ≠ ':') :
    ∃ piece ∈ splitSegmentChars cs, d ∈ piece := by
  fun_induction splitSegmentChars cs with
  | case1 => cases hd
  | case2 cs ih =>
    have hd : d ∈ cs := by simpa [hcolon] using hd
    obtain ⟨piece, hpiece, hmem⟩ := ih hd
    exact ⟨piece, List.mem_cons_of_mem [] hpiece, hmem⟩
  | case3 c cs _ hnil ih => exact absurd hnil (splitSegmentChars_ne_nil cs)
  | case4 c cs _ piece pieces hsplit ih =>
    rw [hsplit] at ih
    rcases List.mem_cons.1 hd with rfl | hd
    · exact ⟨d :: piece, List.mem_cons_self, List.mem_cons_self⟩
    · obtain ⟨found, hfound, hmem⟩ := ih hd
      rcases List.mem_cons.1 hfound with rfl | hfound
      · exact ⟨c :: found, List.mem_cons_self, List.mem_cons_of_mem c hmem⟩
      · exact ⟨found, List.mem_cons_of_mem _ hfound, hmem⟩

theorem splitSegments_ne_nil (s : String) : splitSegments s ≠ [] := by
  simp [splitSegments, splitSegmentChars_ne_nil]

/-! ## Joining -/

/-- What is joined already can be joined on. -/
theorem joinSegments_joinSegments (segment : String) (segments more : List String) :
    joinSegments (joinSegments (segment :: segments) :: more) =
      joinSegments (segment :: segments ++ more) := by
  induction segments generalizing segment with
  | nil => rfl
  | cons next segments ih =>
    cases more with
    | nil => simp
    | cons first more =>
      calc joinSegments (joinSegments (segment :: next :: segments) :: first :: more)
          = segment ++ "::" ++ (joinSegments (next :: segments) ++ "::" ++
              joinSegments (first :: more)) := by
            simp only [joinSegments_cons_cons, String.append_assoc]
        _ = segment ++ "::" ++ joinSegments (next :: segments ++ first :: more) := by
            rw [← joinSegments_cons_cons, ih]
        _ = joinSegments (segment :: next :: segments ++ first :: more) := rfl

/-- The first segment can be joined alone. -/
theorem joinSegments_cons {segments : List String} (segment : String) (h : segments ≠ []) :
    joinSegments (segment :: segments) = segment ++ "::" ++ joinSegments segments := by
  cases segments with
  | nil => exact absurd rfl h
  | cons next segments => rfl

theorem joinSegments_ne_empty {segment : String} (h : segment ≠ "") (segments : List String) :
    joinSegments (segment :: segments) ≠ "" := by
  cases segments <;> simp [joinSegments_cons_cons, h]

theorem mem_joinSegments {segments : List String} {segment : String} (h : segment ∈ segments)
    {c : Char} (hc : c ∈ segment.toList) : c ∈ (joinSegments segments).toList := by
  induction segments with
  | nil => cases h
  | cons first segments ih =>
    cases segments with
    | nil =>
      obtain rfl := List.mem_singleton.1 h
      exact hc
    | cons next segments =>
      rw [joinSegments_cons_cons, String.toList_append, String.toList_append]
      rcases List.mem_cons.1 h with rfl | h
      · exact List.mem_append_left _ (List.mem_append_left _ hc)
      · exact List.mem_append_right _ (ih h)

theorem not_endsInColon_joinSegments {segments : List String}
    (h : ∀ segment ∈ segments, IsIdentifier segment) : ¬ EndsInColon (joinSegments segments) := by
  induction segments with
  | nil => simp [EndsInColon]
  | cons segment segments ih =>
    cases segments with
    | nil => exact not_endsInColon_of_not_mem (h segment List.mem_cons_self).colon_not_mem
    | cons next segments =>
      have hjoined : joinSegments (next :: segments) ≠ "" :=
        joinSegments_ne_empty (h next (by simp)).ne_empty segments
      rw [joinSegments_cons_cons, endsInColon_append hjoined]
      exact ih fun s hs => h s (List.mem_cons_of_mem _ hs)

/-- Splitting loses nothing. -/
theorem joinSegments_splitSegments (s : String) : joinSegments (splitSegments s) = s := by
  suffices h : ∀ cs, joinSegments ((splitSegmentChars cs).map String.ofList) = String.ofList cs by
    rw [splitSegments, h, String.ofList_toList]
  intro cs
  fun_induction splitSegmentChars cs with
  | case1 => rfl
  | case2 cs ih =>
    rw [List.map_cons, joinSegments_cons _ (by simp [splitSegmentChars_ne_nil]), ih]
    simp [← String.toList_inj]
  | case3 c cs _ hnil ih => exact absurd hnil (splitSegmentChars_ne_nil cs)
  | case4 c cs _ piece pieces hsplit ih =>
    rw [hsplit] at ih
    cases pieces with
    | nil =>
      have hpiece : String.ofList piece = String.ofList cs := ih
      simp [← String.toList_inj] at hpiece ⊢
      exact hpiece
    | cons next pieces =>
      simp only [List.map_cons, joinSegments_cons_cons] at ih ⊢
      rw [← String.toList_inj] at ih ⊢
      simpa using ih

theorem splitSegments_joinSegments {segments : List String} (hne : segments ≠ [])
    (h : ∀ segment ∈ segments, ':' ∉ segment.toList) :
    splitSegments (joinSegments segments) = segments := by
  induction segments with
  | nil => exact absurd rfl hne
  | cons segment segments ih =>
    have hsegment : ':' ∉ segment.toList := h segment List.mem_cons_self
    cases segments with
    | nil => exact splitSegments_of_not_mem hsegment
    | cons next segments =>
      rw [joinSegments_cons_cons, splitSegments_append (not_endsInColon_of_not_mem hsegment),
        splitSegments_of_not_mem hsegment,
        ih (List.cons_ne_nil _ _) fun s hs => h s (List.mem_cons_of_mem _ hs)]
      rfl

/-- Identifiers stay apart behind a lead, which goes over to the first of them. -/
theorem splitSegments_lead {lead segment : String} {segments : List String} (hlead : IsLead lead)
    (h : ∀ name ∈ segment :: segments, IsIdentifier name) :
    splitSegments (lead ++ joinSegments (segment :: segments)) = (lead ++ segment) :: segments := by
  have hjoined : splitSegments (joinSegments (segment :: segments)) = segment :: segments :=
    splitSegments_joinSegments (List.cons_ne_nil _ _) fun name hname => (h name hname).colon_not_mem
  obtain rfl | rfl := hlead
  · simpa using hjoined
  · refine splitSegments_colon (fun hhead => ?_) hjoined
    have hsegment := h segment List.mem_cons_self
    obtain ⟨c, cs, hcons⟩ := List.exists_cons_of_ne_nil (l := segment.toList)
      (by simpa using hsegment.ne_empty)
    have hfirst : (joinSegments (segment :: segments)).toList.head? = segment.toList.head? := by
      cases segments <;> simp [joinSegments_cons_cons, hcons]
    rw [hfirst] at hhead
    exact hsegment.colon_not_mem (List.mem_of_mem_head? hhead)

/-! ## The last segment -/

theorem takeUntilSeparator_of_not_mem {cs : List Char} (h : ':' ∉ cs) :
    takeUntilSeparator cs = cs := by
  fun_induction takeUntilSeparator cs with
  | case1 => rfl
  | case2 cs => simp at h
  | case3 c cs _ ih => rw [ih fun hmem => h (List.mem_cons_of_mem c hmem)]

theorem takeUntilSeparator_append {cs : List Char} (h : cs.getLast? ≠ some ':')
    (rest : List Char) :
    takeUntilSeparator (cs ++ ':' :: ':' :: rest) = takeUntilSeparator cs := by
  fun_induction takeUntilSeparator cs with
  | case1 => rfl
  | case2 cs => rfl
  | case3 c cs hsep ih =>
    cases cs with
    | nil =>
      have hc : c ≠ ':' := by simpa using h
      rw [List.cons_append, takeUntilSeparator.eq_3 _ _ fun _ heq _ => hc heq, List.nil_append]
      rfl
    | cons d cs =>
      have hlast : (d :: cs).getLast? ≠ some ':' := by simpa using h
      rw [List.cons_append, takeUntilSeparator.eq_3, ih hlast]
      rintro cs' rfl heq
      obtain ⟨rfl, -⟩ := List.cons.inj heq
      exact hsep cs rfl rfl

/-- What stands before the last separator does not count. -/
theorem lastSegment_append {cs : List Char} (h : cs.head? ≠ some ':') (before : List Char) :
    lastSegment (String.ofList (before ++ ':' :: ':' :: cs)) = lastSegment (String.ofList cs) := by
  have hreverse : (before ++ ':' :: ':' :: cs).reverse =
      cs.reverse ++ ':' :: ':' :: before.reverse := by simp
  rw [lastSegment, lastSegment, String.toList_ofList, String.toList_ofList, hreverse,
    takeUntilSeparator_append (by simpa using h)]

theorem lastSegment_of_not_mem {cs : List Char} (h : ':' ∉ cs) :
    lastSegment (String.ofList cs) = String.ofList cs := by
  rw [lastSegment, String.toList_ofList, takeUntilSeparator_of_not_mem (by simpa using h),
    List.reverse_reverse]

/-! ## What a text starts with -/

theorem dropLead?_eq_some_iff {lead s rest : String} :
    dropLead? lead s = some rest ↔ s = lead ++ rest := by
  rw [dropLead?, Option.map_eq_some_iff]
  constructor
  · rintro ⟨cs, hcs, rfl⟩
    rw [List.isPrefixOf?_eq_some_iff_append_eq] at hcs
    simp [← String.toList_inj, ← hcs]
  · rintro rfl
    exact ⟨rest.toList, by simp, by simp⟩

end JobRoster.Text
