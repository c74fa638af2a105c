import Mathlib.Data.List.TakeWhile
import JobRoster.Proofs.Text.Segments
import JobRoster.Text.Blank

/-!
# Blanks around segments

Blanks at the ends of a text do not count once its segments are trimmed one by one. Neither a colon
nor a character of an identifier is blank.
-/

namespace JobRoster.Text

/-! ## Blank characters -/

/-- The code points of all blank characters. -/
def blankCodes : List Nat :=
  [9, 10, 11, 12, 13, 0x20, 0x85, 0xa0, 0x1680, 0x2000, 0x2001, 0x2002, 0x2003, 0x2004, 0x2005,
    0x2006, 0x2007, 0x2008, 0x2009, 0x200a, 0x2028, 0x2029, 0x202f, 0x205f, 0x3000]

theorem toNat_mem_blankCodes {c : Char} (h : isBlank c = true) : c.toNat ∈ blankCodes := by
  simp only [isBlank, Bool.or_eq_true, Bool.and_eq_true, decide_eq_true_eq] at h
  simp only [blankCodes, List.mem_cons, List.not_mem_nil, or_false]
  omega

theorem not_isBlank_of_isIdentContinue {c : Char} (h : isIdentContinue c = true) :
    isBlank c = false := by
  have hcodes : ∀ code ∈ blankCodes, isIdentContinue (Char.ofNat code) = false := by
    decide +kernel
  cases hblank : isBlank c with
  | false => rfl
  | true =>
    have hc := hcodes _ (toNat_mem_blankCodes hblank)
    rw [Char.ofNat_toNat, h] at hc
    cases hc

theorem not_isBlank_colon : isBlank ':' = false := by decide

theorem colon_not_mem_of_isBlank {cs : List Char} (h : ∀ c ∈ cs, isBlank c = true) : ':' ∉ cs := by
  intro hmem
  have hcolon : isBlank ':' = true := h ':' hmem
  rw [not_isBlank_colon] at hcolon
  cases hcolon

/-! ## Trimming -/

variable {cs blanks : List Char}

theorem trimChars_of_isBlank (h : ∀ c ∈ cs, isBlank c = true) : trimChars cs = [] := by
  have hdrop : cs.dropWhile isBlank = [] := List.dropWhile_eq_nil_iff.2 h
  rw [trimChars, hdrop]
  rfl

theorem trimChars_cons_blank {c : Char} (h : isBlank c = true) (cs : List Char) :
    trimChars (c :: cs) = trimChars cs := by
  rw [trimChars, List.dropWhile_cons_of_pos h, trimChars]

theorem trimChars_blank_append (h : ∀ c ∈ blanks, isBlank c = true) (cs : List Char) :
    trimChars (blanks ++ cs) = trimChars cs := by
  induction blanks with
  | nil => rfl
  | cons c blanks ih =>
    rw [List.cons_append, trimChars_cons_blank (h c List.mem_cons_self)]
    exact ih fun c hc => h c (List.mem_cons_of_mem _ hc)

theorem trimChars_append_blank (h : ∀ c ∈ blanks, isBlank c = true) (cs : List Char) :
    trimChars (cs ++ blanks) = trimChars cs := by
  have hreverse : ∀ c ∈ blanks.reverse, isBlank c = true := fun c hc => h c (List.mem_reverse.1 hc)
  rw [trimChars, trimChars, List.dropWhile_append]
  split
  next hempty =>
    have hcs : cs.dropWhile isBlank = [] := by simpa using hempty
    rw [hcs, List.dropWhile_eq_nil_iff.2 h]
  next => rw [List.reverse_append, List.dropWhile_append_of_pos hreverse]

/-- What starts and ends with characters that are not blank stays. -/
theorem trimChars_of_not_isBlank (h : ∀ c ∈ cs, isBlank c = false) : trimChars cs = cs := by
  have hdrop : ∀ ds : List Char, (∀ c ∈ ds, isBlank c = false) → ds.dropWhile isBlank = ds := by
    intro ds hds
    cases ds with
    | nil => rfl
    | cons d ds => exact List.dropWhile_cons_of_neg (by simp [hds d List.mem_cons_self])
  rw [trimChars, hdrop cs h, hdrop _ fun c hc => h c (List.mem_reverse.1 hc), List.reverse_reverse]

/-- A text is its trimmed text between blanks. -/
theorem exists_trimChars_append (cs : List Char) :
    ∃ before after, (∀ c ∈ before, isBlank c = true) ∧ (∀ c ∈ after, isBlank c = true) ∧
      cs = before ++ trimChars cs ++ after := by
  refine ⟨cs.takeWhile isBlank, (((cs.dropWhile isBlank).reverse).takeWhile isBlank).reverse,
    fun c hc => List.mem_takeWhile_imp hc, fun c hc => ?_, ?_⟩
  · exact List.mem_takeWhile_imp (List.mem_reverse.1 hc)
  · rw [trimChars, List.append_assoc, ← List.reverse_append, List.takeWhile_append_dropWhile,
      List.reverse_reverse, List.takeWhile_append_dropWhile]

theorem isBlank_of_trimChars_eq_nil (h : trimChars cs = []) : ∀ c ∈ cs, isBlank c = true := by
  obtain ⟨before, after, hbefore, hafter, hcs⟩ := exists_trimChars_append cs
  rw [h, List.append_nil] at hcs
  intro c hc
  rw [hcs] at hc
  exact (List.mem_append.1 hc).elim (hbefore c) (hafter c)

/-- A trimmed text does not start with a blank. -/
theorem not_isBlank_of_trimChars_eq_cons {c : Char} {rest : List Char}
    (h : trimChars cs = c :: rest) : isBlank c = false := by
  have htrim : trimChars cs <+: cs.dropWhile isBlank := by
    rw [trimChars, ← List.reverse_suffix, List.reverse_reverse]
    exact List.dropWhile_suffix isBlank
  have hhead : (cs.dropWhile isBlank).head? = some c := by
    obtain ⟨tail, htail⟩ := htrim
    rw [← htail, h]
    rfl
  have hnot := List.head?_dropWhile_not isBlank cs
  rwa [hhead] at hnot

theorem IsIdentifier.trimChars_eq {s : String} (h : IsIdentifier s) :
    trimChars s.toList = s.toList :=
  trimChars_of_not_isBlank fun c hc => not_isBlank_of_isIdentContinue (h.isIdentContinue c hc)

/-! ## Trimming and splitting -/

theorem splitSegmentChars_blank_append (h : ∀ c ∈ blanks, isBlank c = true) (cs : List Char) :
    (splitSegmentChars (blanks ++ cs)).map trimChars = (splitSegmentChars cs).map trimChars := by
  induction blanks with
  | nil => rfl
  | cons c blanks ih =>
    have hc : isBlank c = true := h c List.mem_cons_self
    have hrest := ih fun c hc => h c (List.mem_cons_of_mem _ hc)
    cases hsplit : splitSegmentChars (blanks ++ cs) with
    | nil => exact absurd hsplit (splitSegmentChars_ne_nil _)
    | cons piece pieces =>
      have hcolon : c ≠ ':' := by
        rintro rfl
        rw [not_isBlank_colon] at hc
        cases hc
      rw [hsplit] at hrest
      rw [List.cons_append, splitSegmentChars_cons (fun h => absurd h hcolon) hsplit, ← hrest,
        List.map_cons, List.map_cons, trimChars_cons_blank hc]

/-- Blanks behind a text are behind its last piece. -/
theorem exists_splitSegmentChars_append_blank (h : ∀ c ∈ blanks, isBlank c = true)
    (cs : List Char) : ∃ pieces last, splitSegmentChars cs = pieces ++ [last] ∧
      splitSegmentChars (cs ++ blanks) = pieces ++ [last ++ blanks] := by
  have hcolon : ':' ∉ blanks := colon_not_mem_of_isBlank h
  fun_induction splitSegmentChars cs with
  | case1 => exact ⟨[], [], rfl, by simpa using splitSegmentChars_of_not_mem hcolon⟩
  | case2 cs ih =>
    obtain ⟨pieces, last, hsplit, happend⟩ := ih
    exact ⟨[] :: pieces, last, by rw [hsplit]; rfl, by simp [splitSegmentChars, happend]⟩
  | case3 c cs _ hnil ih => exact absurd hnil (splitSegmentChars_ne_nil cs)
  | case4 c cs hsep piece pieces hsplit ih =>
    obtain ⟨before, last, hbefore, happend⟩ := ih
    -- no separator starts here, and none does with the blanks behind it
    have hnone : c = ':' → (cs ++ blanks).head? ≠ some ':' := by
      rintro rfl hhead
      cases cs with
      | nil => exact hcolon (List.mem_of_head? hhead)
      | cons d cs => exact hsep cs rfl (by simpa using hhead)
    rw [hsplit] at hbefore
    cases before with
    | nil =>
      obtain ⟨rfl, rfl⟩ : piece = last ∧ pieces = [] := by simpa using hbefore
      exact ⟨[], c :: piece, rfl, splitSegmentChars_cons hnone happend⟩
    | cons first before =>
      obtain ⟨rfl, rfl⟩ := List.cons.inj hbefore
      exact ⟨(c :: piece) :: before, last, rfl, splitSegmentChars_cons hnone happend⟩

/-- Trimming a text first makes no difference to its trimmed pieces. -/
theorem splitSegmentChars_trimChars (cs : List Char) :
    (splitSegmentChars (trimChars cs)).map trimChars = (splitSegmentChars cs).map trimChars := by
  obtain ⟨before, after, hbefore, hafter, hcs⟩ := exists_trimChars_append cs
  obtain ⟨pieces, last, hsplit, happend⟩ :=
    exists_splitSegmentChars_append_blank hafter (trimChars cs)
  calc (splitSegmentChars (trimChars cs)).map trimChars
      = (splitSegmentChars (trimChars cs ++ after)).map trimChars := by
        simp [hsplit, happend, trimChars_append_blank hafter]
    _ = (splitSegmentChars cs).map trimChars := by
        rw [← splitSegmentChars_blank_append hbefore, ← List.append_assoc, ← hcs]

end JobRoster.Text
