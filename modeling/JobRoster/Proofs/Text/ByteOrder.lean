import Mathlib.Data.String.Basic

/-!
# The order of texts is that of their bytes

Texts are compared character by character. UTF-8 is made so that comparing them byte by byte comes
to the same: of two characters the one with the smaller code point has the smaller bytes, and the
bytes of neither begin those of the other.
-/

namespace JobRoster.Text

/-- The bytes of a text in UTF-8. -/
def bytes (text : String) : List UInt8 :=
  text.toUTF8.data.toList

theorem bytes_eq (text : String) : bytes text = text.toList.flatMap String.utf8EncodeChar := by
  rw [bytes, String.toUTF8_eq_toByteArray, ← String.utf8Encode_toList, List.utf8Encode,
    List.data_toByteArray]

/-- A byte decides where it differs, and else what follows does. -/
theorem cons_lt_cons_of {m n : Nat} {xs ys : List UInt8} (hn : n < 256)
    (h : m < n ∨ m = n ∧ xs < ys) : UInt8.ofNat m :: xs < UInt8.ofNat n :: ys := by
  rw [List.cons_lt_cons_iff]
  rcases h with hlt | ⟨rfl, hrest⟩
  · left
    rw [UInt8.lt_iff_toNat_lt, UInt8.toNat_ofNat', UInt8.toNat_ofNat']
    omega
  · exact .inr ⟨rfl, hrest⟩

/-! ## Characters -/

section Continuation

variable {v w : Nat} {xs ys : List UInt8}

/-- The last byte has the last six bits of a code point. -/
theorem continuation_lt (h : v % 64 < w % 64) :
    UInt8.ofNat (v % 64 + 128) :: xs < UInt8.ofNat (w % 64 + 128) :: ys :=
  cons_lt_cons_of (by omega) (.inl (by omega))

/-- The last two bytes have the last twelve bits. -/
theorem continuation₂_lt (h : v % 4096 < w % 4096) :
    UInt8.ofNat (v / 64 % 64 + 128) :: UInt8.ofNat (v % 64 + 128) :: xs <
      UInt8.ofNat (w / 64 % 64 + 128) :: UInt8.ofNat (w % 64 + 128) :: ys := by
  refine cons_lt_cons_of (by omega) ?_
  have hbyte : v / 64 % 64 + 128 < w / 64 % 64 + 128 ∨
      v / 64 % 64 + 128 = w / 64 % 64 + 128 ∧ v % 64 < w % 64 := by omega
  exact hbyte.imp_right (And.imp_right continuation_lt)

/-- The last three bytes have the last eighteen bits. -/
theorem continuation₃_lt (h : v % 262144 < w % 262144) :
    UInt8.ofNat (v / 4096 % 64 + 128) :: UInt8.ofNat (v / 64 % 64 + 128) ::
        UInt8.ofNat (v % 64 + 128) :: xs <
      UInt8.ofNat (w / 4096 % 64 + 128) :: UInt8.ofNat (w / 64 % 64 + 128) ::
        UInt8.ofNat (w % 64 + 128) :: ys := by
  refine cons_lt_cons_of (by omega) ?_
  have hbyte : v / 4096 % 64 + 128 < w / 4096 % 64 + 128 ∨
      v / 4096 % 64 + 128 = w / 4096 % 64 + 128 ∧ v % 4096 < w % 4096 := by omega
  exact hbyte.imp_right (And.imp_right continuation₂_lt)

end Continuation

/-- A smaller character has smaller bytes, whatever follows. -/
theorem utf8EncodeChar_append_lt {c d : Char} (h : c < d) (xs ys : List UInt8) :
    String.utf8EncodeChar c ++ xs < String.utf8EncodeChar d ++ ys := by
  have hlt : c.val.toNat < d.val.toNat := h
  have hbound : d.val.toNat < 1114112 := by
    rcases d.valid with hlow | ⟨-, hhigh⟩ <;> omega
  unfold String.utf8EncodeChar
  generalize c.val.toNat = v at hlt ⊢
  generalize d.val.toNat = w at hlt hbound ⊢
  simp only
  split_ifs <;> simp only [List.cons_append, List.nil_append]
  -- what is left after this are pairs of one length: the first byte tells the length
  all_goals first
    | omega
    | exact cons_lt_cons_of (by omega) (.inl (by omega))
    | refine cons_lt_cons_of (by omega) ?_
  · have hbyte : v / 64 % 32 + 192 < w / 64 % 32 + 192 ∨
        v / 64 % 32 + 192 = w / 64 % 32 + 192 ∧ v % 64 < w % 64 := by omega
    exact hbyte.imp_right (And.imp_right continuation_lt)
  · have hbyte : v / 4096 % 16 + 224 < w / 4096 % 16 + 224 ∨
        v / 4096 % 16 + 224 = w / 4096 % 16 + 224 ∧ v % 4096 < w % 4096 := by omega
    exact hbyte.imp_right (And.imp_right continuation₂_lt)
  · have hbyte : v / 262144 % 8 + 240 < w / 262144 % 8 + 240 ∨
        v / 262144 % 8 + 240 = w / 262144 % 8 + 240 ∧ v % 262144 < w % 262144 := by omega
    exact hbyte.imp_right (And.imp_right continuation₃_lt)

/-! ## Texts -/

theorem flatMap_utf8EncodeChar_lt {xs ys : List Char} (h : xs < ys) :
    xs.flatMap String.utf8EncodeChar < ys.flatMap String.utf8EncodeChar := by
  induction h with
  | nil =>
    rename_i d ys
    obtain ⟨byte, bytes, hbytes⟩ :=
      List.exists_cons_of_ne_nil (String.utf8EncodeChar_ne_nil (c := d))
    rw [List.flatMap_nil, List.flatMap_cons, hbytes]
    exact List.nil_lt_cons _ _
  | rel hlt => exact utf8EncodeChar_append_lt hlt _ _
  | cons _ ih => exact List.append_left_lt ih

/-- One text is before another exactly when its bytes are. -/
theorem bytes_lt_bytes_iff {a b : String} : bytes a < bytes b ↔ a < b := by
  rw [bytes_eq, bytes_eq]
  constructor
  · intro h
    -- texts are totally ordered, and the other two cases are ruled out for bytes as well
    rcases lt_trichotomy a b with hlt | rfl | hgt
    · exact hlt
    · exact absurd h (List.lt_irrefl _)
    · exact absurd h (List.lt_asymm (flatMap_utf8EncodeChar_lt hgt))
  · exact flatMap_utf8EncodeChar_lt

end JobRoster.Text
