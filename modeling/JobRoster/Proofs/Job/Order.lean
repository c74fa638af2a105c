import Mathlib.Data.String.Basic
import JobRoster.Job.Roster

/-!
# The orders of a roster

Jobs and diagnostics are sorted by comparisons that look at several parts, one after the other. Each
of these is a total order up to what it looks at: jobs are compared by id and identity, diagnostics
by the components of the file they are in, by line, and by declaration. Two paths that differ only
in how they are spelled compare as equal.
-/

namespace JobRoster

/-! ## Paths -/

namespace Files

namespace Component

/-- The name that a component stands for, if it is a name. -/
def label : Component → String
  | name label => label
  | _ => ""

theorem compare_eq_lex : Component.compare = compareLex (compareOn rank) (compareOn label) := by
  funext a b
  cases a <;> cases b <;> rfl

instance : Std.TransCmp Component.compare := by
  rw [compare_eq_lex]
  infer_instance

theorem ext_rank_label {a b : Component} (hrank : a.rank = b.rank) (hlabel : a.label = b.label) :
    a = b := by
  cases a <;> cases b <;> simp_all [rank, label]

instance : Std.LawfulEqCmp Component.compare where
  compare_self := Std.ReflCmp.compare_self
  eq_of_compare {a b} h := by
    rw [compare_eq_lex, compareLex_eq_eq] at h
    exact ext_rank_label (Std.LawfulEqOrd.eq_of_compare h.1) (Std.LawfulEqOrd.eq_of_compare h.2)

end Component

namespace FilePath

theorem compareLists_eq_lex : compareLists = List.compareLex Component.compare := by
  funext as bs
  -- on the first list, for any second one: both recursions go down the two lists together
  induction as generalizing bs with
  | nil => cases bs <;> simp [compareLists, List.compareLex_nil_nil, List.compareLex_nil_cons]
  | cons a as ih =>
    cases bs with
    | nil => simp [compareLists, List.compareLex_cons_nil]
    | cons b bs => simp [compareLists, List.compareLex_cons_cons, ih]

theorem compare_eq_lex (a b : FilePath) :
    a.compare b = List.compareLex Component.compare a.components b.components := by
  rw [FilePath.compare, compareLists_eq_lex]

instance : Std.TransCmp FilePath.compare where
  eq_swap {a b} := by
    simp only [compare_eq_lex]
    exact Std.OrientedCmp.eq_swap
  isLE_trans {a b c} := by
    simp only [compare_eq_lex]
    exact Std.TransCmp.isLE_trans

/-- Paths compare as equal exactly when they are the same path. -/
theorem compare_eq_iff {a b : FilePath} : a.compare b = .eq ↔ a.components = b.components := by
  rw [compare_eq_lex]
  exact Std.LawfulEqCmp.compare_eq_iff_eq

end FilePath

end Files

/-! ## Locations, jobs and diagnostics -/

theorem Location.compare_eq_lex :
    Location.compare =
      compareLex (fun a b => a.file.compare b.file) (compareOn Location.line) := rfl

/-- A comparison of one part of the things compared. -/
theorem transCmp_on {α β : Type} {cmp : β → β → Ordering} [Std.TransCmp cmp] (f : α → β) :
    Std.TransCmp fun a b => cmp (f a) (f b) where
  eq_swap := Std.OrientedCmp.eq_swap
  isLE_trans := Std.TransCmp.isLE_trans

instance : Std.TransCmp Location.compare := by
  have : Std.TransCmp fun a b : Location => a.file.compare b.file := transCmp_on Location.file
  rw [Location.compare_eq_lex]
  infer_instance

theorem Location.compare_eq_iff {a b : Location} :
    a.compare b = .eq ↔ a.file.components = b.file.components ∧ a.line = b.line := by
  rw [Location.compare_eq_lex, compareLex_eq_eq, Files.FilePath.compare_eq_iff]
  exact and_congr_right fun _ => Std.LawfulEqOrd.compare_eq_iff_eq

namespace Job

theorem compare_eq_lex : Job.compare = compareLex (compareOn Job.id) (compareOn Job.identity) := rfl

instance : Std.TransCmp Job.compare := by
  rw [compare_eq_lex]
  infer_instance

theorem isLE_compare_iff {a b : Job} :
    (a.compare b).isLE ↔ a.id < b.id ∨ a.id = b.id ∧ a.identity ≤ b.identity := by
  rw [Job.compare, Ordering.isLE_then_iff_or, compare_lt_iff_lt, compare_eq_iff_eq,
    Std.LawfulBCmp.isLE_iff_le]

theorem id_eq_of_compare_eq {a b : Job} (h : a.compare b = .eq) : a.id = b.id := by
  rw [compare_eq_lex, compareLex_eq_eq] at h
  exact Std.LawfulEqOrd.eq_of_compare h.1

end Job

namespace Diagnostic

/-- Two diagnostics of one place: the same file, however it is spelled, the same line and the same
    declaration. -/
def SamePlace (a b : Diagnostic) : Prop :=
  a.location.file.components = b.location.file.components ∧ a.location.line = b.location.line ∧
    a.declaration = b.declaration

theorem compare_eq_lex :
    Diagnostic.compare =
      compareLex (fun a b => a.location.compare b.location)
        (compareOn Diagnostic.declaration) := rfl

instance : Std.TransCmp Diagnostic.compare := by
  have : Std.TransCmp fun a b : Diagnostic => a.location.compare b.location :=
    transCmp_on Diagnostic.location
  rw [compare_eq_lex]
  infer_instance

theorem compare_eq_iff {a b : Diagnostic} : a.compare b = .eq ↔ a.SamePlace b := by
  rw [compare_eq_lex, compareLex_eq_eq, Location.compare_eq_iff, SamePlace, and_assoc]
  exact and_congr_right fun _ => and_congr_right fun _ => Std.LawfulEqOrd.compare_eq_iff_eq

end Diagnostic

end JobRoster
