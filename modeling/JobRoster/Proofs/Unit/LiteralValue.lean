import JobRoster.Crate.Constant
import JobRoster.Proofs.Unit.Calls

/-!
# Literals of a unit

What a unit writes for a text is one literal on one line, and whoever reads it as a constant gets
back the text.
-/

namespace JobRoster

open Syntax Syntax.Lexer Text Crate

/-! ## Visible characters -/

/-- Characters that end a line, or that other tools take for the end of one. -/
def lineBreaks : List Char :=
  ['\n', '\x0b', '\x0c', '\r', '\u0085', '\u2028', '\u2029']

theorem not_isPrintable_of_mem_lineBreaks {c : Char} (h : c ∈ lineBreaks) :
    isPrintable c = false := by
  have hall : (lineBreaks.all fun c => !isPrintable c) = true := by decide +kernel
  simpa using List.all_eq_true.1 hall c h

theorem isPrintable_digitChar {n : Nat} (hn : n < 16) : isPrintable n.digitChar = true := by
  have hall : ∀ n < 16, isPrintable (Nat.digitChar n) = true := by decide
  exact hall n hn

theorem isPrintable_of_mem_toDigits {n : Nat} :
    ∀ c ∈ Nat.toDigits 16 n, isPrintable c = true := by
  induction n using Nat.strongRecOn with
  | ind n ih =>
    intro c hc
    by_cases hn : n < 16
    · rw [Nat.toDigits_of_lt_base hn, List.mem_singleton] at hc
      subst hc
      exact isPrintable_digitChar hn
    · have hbase : 16 ≤ n := Nat.not_lt.1 hn
      rw [Nat.toDigits_of_base_le (by decide) hbase, List.mem_append, List.mem_singleton] at hc
      obtain hc | rfl := hc
      · exact ih (n / 16) (by omega) c hc
      · exact isPrintable_digitChar (Nat.mod_lt n (by decide))

/-- Whatever stands for a character between quotes is visible, also where the character is not. -/
theorem isPrintable_of_mem_escapeChar {d : Char} : ∀ c ∈ escapeChar d, isPrintable c = true := by
  have hshort : ∀ letter, isPrintable letter = true → ∀ c ∈ ['\\', letter],
      isPrintable c = true := by
    intro letter hletter
    simpa [hletter] using (by decide : isPrintable '\\' = true)
  have hmarks : ∀ c ∈ ['\\', 'u', '\x7b'] ++ ['\x7d'], isPrintable c = true :=
    List.all_eq_true.1 (by decide)
  unfold escapeChar
  repeat' split
  · exact hshort '0' (by decide)
  · exact hshort 't' (by decide)
  · exact hshort 'r' (by decide)
  · exact hshort 'n' (by decide)
  · exact hshort '\\' (by decide)
  · exact hshort '"' (by decide)
  · next hplain =>
    intro c hc
    rw [List.mem_singleton] at hc
    subst hc
    exact (Bool.and_eq_true_iff.1 hplain).1
  · intro c hc
    rw [codePointEscape, List.mem_append, List.mem_append] at hc
    obtain (hc | hc) | hc := hc
    · exact hmarks c (List.mem_append_left _ hc)
    · exact isPrintable_of_mem_toDigits c hc
    · exact hmarks c (List.mem_append_right _ hc)

theorem isPrintable_of_mem_literalBody {value : List Char} :
    ∀ c ∈ literalBody value, isPrintable c = true := by
  have hnul : ∀ c ∈ ['\\', 'x', '0', '0'], isPrintable c = true := List.all_eq_true.1 (by decide)
  induction value with
  | nil => exact nofun
  | cons d value ih =>
    intro c hc
    simp only [literalBody, List.mem_append] at hc
    obtain hc | hc := hc
    · split at hc
      · exact hnul c hc
      · exact isPrintable_of_mem_escapeChar c hc
    · exact ih c hc

theorem isPrintable_of_mem_literal {value : String} {c : Char}
    (h : c ∈ (Text.literal value).toList) : isPrintable c = true := by
  rw [Text.literal, String.toList_ofList, List.mem_append, List.mem_append] at h
  obtain (hquote | hbody) | hquote := h
  · rw [List.mem_singleton.1 hquote]
    decide
  · exact isPrintable_of_mem_literalBody c hbody
  · rw [List.mem_singleton.1 hquote]
    decide

/-! ## Values -/

theorem tokenize_literal (value : String) :
    tokenize (Text.literal value).toList = .ok [.literal (.str value) 1] := by
  have hmark : dropByteOrderMark (Text.literal value).toList = (Text.literal value).toList := by
    have hne : some '"' ≠ some byteOrderMark := by decide
    rw [Text.literal, String.toList_ofList]
    exact if_neg hne
  have hend : skipIdent [] = [] := rfl
  obtain ⟨line, hreads⟩ := Reads.literal hend value 1
  rw [List.append_nil] at hreads
  exact tokenize_eq_ok_iff.2 ⟨line, by rwa [hmark]⟩

theorem readText_literal (value : String) :
    readText (fun g => g (.expr true)) (Text.literal value).toList =
      .ok (.literal (.str value)) := by
  have hexpr : Grammar.for [.literal (.str value) 1] (.expr true)
      ⟨[.literal (.str value) 1], endLine, none⟩ =
        .ok (.literal (.str value), ⟨[], endLine, none⟩) :=
    @parseExpr_literal 3 [] value 1 endLine (.inl rfl)
  rw [readText, tokenize_literal]
  change Parser.readAll (Grammar.for [.literal (.str value) 1] (.expr true))
    [.literal (.str value) 1] endLine = _
  rw [Parser.readAll, hexpr]
  rfl

/-- A literal stays on its line, is one token, and gives back the text wherever a constant is
    read. -/
theorem literal_keeps_value (value : String) :
    (∀ c ∈ (Text.literal value).toList, c ∉ lineBreaks) ∧
    tokenize (Text.literal value).toList = .ok [.literal (.str value) 1] ∧
    (readText (fun g => g (.expr true)) (Text.literal value).toList).map ConstExpr.ofExpr =
      .ok (.str value) := by
  refine ⟨fun c hc hbreak => ?_, tokenize_literal value, ?_⟩
  · have hvisible : isPrintable c = true := isPrintable_of_mem_literal hc
    rw [not_isPrintable_of_mem_lineBreaks hbreak] at hvisible
    cases hvisible
  · rw [readText_literal]
    rfl

end JobRoster
