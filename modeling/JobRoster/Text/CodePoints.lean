/-!
# Sets of code points

Character classes of the Unicode standard are given as tables of inclusive ranges. A class is a
table beyond ASCII plus a rule for the ASCII characters, so that the common case needs no table.
-/

namespace JobRoster.Text

/-- Inclusive ranges of code points, in increasing order. -/
abbrev CodePoints := List (Nat × Nat)

namespace CodePoints

/-- Whether `c` lies in one of the ranges. -/
def has (ranges : CodePoints) (c : Char) : Bool :=
  ranges.any fun (first, last) => first ≤ c.toNat && c.toNat ≤ last

@[simp] theorem has_nil (c : Char) : has [] c = false := rfl

@[simp] theorem has_cons (first last : Nat) (ranges : CodePoints) (c : Char) :
    has ((first, last) :: ranges) c =
      (decide (first ≤ c.toNat ∧ c.toNat ≤ last) || has ranges c) := by
  simp [has]

end CodePoints

end JobRoster.Text
