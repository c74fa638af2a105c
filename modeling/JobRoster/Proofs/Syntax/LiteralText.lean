import Mathlib.Algebra.Group.Nat.Defs
import JobRoster.Proofs.Syntax.SingleTokens
import JobRoster.Text.Quoted

/-!
# Literals read back

What `Text.literal` writes for a text is one token, the literal whose value is that text.
-/

namespace JobRoster.Syntax

open JobRoster.Text

variable {cs rest : List Char}

/-! ## Code points -/

theorem hexDigit?_digitChar {n : Nat} (hn : n < 16) : hexDigit? n.digitChar = some n := by
  have hall : ∀ n < 16, hexDigit? (Nat.digitChar n) = some n := by decide
  exact hall n hn

theorem scanCooked_digit (kind : StringKind) {n : Nat} (hn : n < 16) {value digits : Nat}
    (hdigits : digits < 6) (cs : List Char) :
    scanCooked kind (.codePoint value digits) (n.digitChar :: cs) =
      scanCooked kind (.codePoint (value * 16 + n) (digits + 1)) cs := by
  simp [scanCooked, hexDigit?_digitChar hn, hdigits]

/-- The digits of a number are read one after the other, the most significant first. -/
theorem scanCooked_toDigits (kind : StringKind) (n value digits : Nat)
    (hdigits : digits + (Nat.toDigits 16 n).length ≤ 6) (cs : List Char) :
    scanCooked kind (.codePoint value digits) (Nat.toDigits 16 n ++ cs) =
      scanCooked kind (.codePoint (value * 16 ^ (Nat.toDigits 16 n).length + n)
        (digits + (Nat.toDigits 16 n).length)) cs := by
  induction n using Nat.strongRecOn generalizing cs with
  | ind n ih =>
    by_cases hn : n < 16
    · rw [Nat.toDigits_of_lt_base hn] at hdigits ⊢
      simpa using scanCooked_digit kind hn (Nat.lt_of_succ_le hdigits) cs
    · have hbase : 16 ≤ n := Nat.not_lt.1 hn
      have hsplit : Nat.toDigits 16 n = Nat.toDigits 16 (n / 16) ++ [(n % 16).digitChar] :=
        Nat.toDigits_of_base_le (by decide) hbase
      have hmod : n % 16 < 16 := Nat.mod_lt n (by decide)
      rw [hsplit] at hdigits ⊢
      simp only [List.length_append, List.length_singleton] at hdigits ⊢
      have hlt : digits + (Nat.toDigits 16 (n / 16)).length < 6 := by omega
      rw [List.append_assoc, ih (n / 16) (by omega) (Nat.le_of_lt hlt), List.singleton_append,
        scanCooked_digit kind hmod hlt]
      have hvalue : (value * 16 ^ (Nat.toDigits 16 (n / 16)).length + n / 16) * 16 + n % 16 =
          value * 16 ^ ((Nat.toDigits 16 (n / 16)).length + 1) + n := by
        rw [Nat.pow_succ, ← Nat.mul_assoc, Nat.add_mul]
        omega
      rw [hvalue, Nat.add_assoc]

theorem scanCooked_codePointEscape (c : Char) (cs : List Char) :
    scanCooked .text (.plain false) (codePointEscape c ++ cs) =
      (scanCooked .text (.plain false) cs).map fun (text, rest) => (c :: text, rest) := by
  have hvalid : c.toNat.isValidChar := c.valid
  have hlength : (Nat.toDigits 16 c.toNat).length ≤ 6 := by
    refine (Nat.length_toDigits_le_iff (by decide) (by decide)).2 ?_
    obtain hlow | ⟨-, hhigh⟩ := hvalid
    · exact Nat.lt_trans hlow (by decide)
    · exact Nat.lt_trans hhigh (by decide)
  have hdigits : (Nat.toDigits 16 c.toNat).length ≠ 0 := Nat.ne_of_gt Nat.length_toDigits_pos
  have hscalar : scalar? c.toNat = some c := by
    rw [scalar?, if_pos hvalid, Char.ofNat_toNat]
  have hread : scanCooked .text (.plain false) (codePointEscape c ++ cs) =
      scanCooked .text (.codePoint 0 0) (Nat.toDigits 16 c.toNat ++ '\x7d' :: cs) := by
    simp [codePointEscape, scanCooked]
  rw [hread, scanCooked_toDigits .text c.toNat 0 0 (by omega)]
  simp [scanCooked, hexDigit?, hdigits, hscalar, StringKind.allowsCodePoint]

/-! ## Texts -/

theorem scanCooked_escapeChar (c : Char) (cs : List Char) :
    scanCooked .text (.plain false) (escapeChar c ++ cs) =
      (scanCooked .text (.plain false) cs).map fun (text, rest) => (c :: text, rest) := by
  unfold escapeChar
  split
  next hc => simp [scanCooked, simpleEscape?, hc]
  split
  next hc => simp [scanCooked, simpleEscape?, hc]
  split
  next hc => simp [scanCooked, simpleEscape?, hc]
  split
  next hc => simp [scanCooked, simpleEscape?, hc]
  split
  next hc => simp [scanCooked, simpleEscape?, hc]
  split
  next hc => simp [scanCooked, simpleEscape?, hc]
  split
  next hreturn _ hslash hquote hplain =>
    have hc : c ∉ ['"', '\r', '\\'] := by simpa using ⟨hquote, hreturn, hslash⟩
    rw [List.singleton_append, scanCooked_char hc]
    rfl
  next => exact scanCooked_codePointEscape c cs

theorem scanCooked_literalBody (value rest : List Char) :
    scanCooked .text (.plain false) (literalBody value ++ '"' :: rest) = some (value, rest) := by
  induction value with
  | nil => simp [literalBody, scanCooked]
  | cons c value ih =>
    simp only [literalBody]
    split
    next hnul =>
      obtain ⟨rfl, -⟩ := hnul
      simp [scanCooked, hexDigit?, StringKind.allowsCode, ih]
    next =>
      rw [List.append_assoc, scanCooked_escapeChar, ih]
      rfl

theorem skipIdent_cons {d : Char} (hd : isIdentStart d = false) (rest : List Char) :
    skipIdent (d :: rest) = d :: rest := by
  simp [skipIdent, takeIdent?, hd]

/-- A literal is one token, with the text as its value, unless a suffix follows. -/
theorem leaf?_literal (hrest : skipIdent rest = rest) (value : String) :
    Lexer.leaf? ((Text.literal value).toList ++ rest) = some (.literal (.str value), rest) := by
  have hliteral : (Text.literal value).toList = '"' :: (literalBody value.toList ++ ['"']) := by
    simp [Text.literal]
  have hquoted : quoted? ((Text.literal value).toList ++ rest) = some (.str value, rest) := by
    rw [hliteral, List.cons_append, List.append_assoc, List.singleton_append]
    simp [quoted?, scanCooked_literalBody, hrest]
  simp [Lexer.leaf?, Lexer.literal?, hquoted]

end JobRoster.Syntax
