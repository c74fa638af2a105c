import JobRoster.Job.Failure
import JobRoster.Unit.Rendering

/-!
# Sinks

Where units are published. Publishing a unit replaces an earlier one of its name; withdrawing one
that is not there is no failure. A sink in memory never fails.
-/

namespace JobRoster

/-- What can be published to. A failed operation may leave a changed sink, too. -/
class Sink (S : Type) where
  publish : S → SourceUnit → S × Except Failure Unit
  withdraw : S → String → S × Except Failure Unit

/-- Units in memory, in the order of their names. -/
structure MemorySink where
  units : List (String × String)
deriving DecidableEq, Repr

namespace MemorySink

def empty : MemorySink := ⟨[]⟩

def get? (sink : MemorySink) (name : String) : Option String :=
  (sink.units.find? (·.1 = name)).map (·.2)

def insertUnit (name text : String) : List (String × String) → List (String × String)
  | [] => [(name, text)]
  | (other, otherText) :: units =>
    if name < other then (name, text) :: (other, otherText) :: units
    else if name = other then (name, text) :: units
    else (other, otherText) :: insertUnit name text units

def add (sink : MemorySink) (u : SourceUnit) : MemorySink :=
  ⟨insertUnit u.name u.text sink.units⟩

def remove (sink : MemorySink) (name : String) : MemorySink :=
  ⟨sink.units.filter (·.1 ≠ name)⟩

instance : Sink MemorySink where
  publish sink u := (sink.add u, .ok ())
  withdraw sink name := (sink.remove name, .ok ())

theorem get?_insertUnit (name text : String) (units : List (String × String)) :
    get? ⟨insertUnit name text units⟩ name = some text := by
  induction units with
  | nil => simp [insertUnit, get?]
  | cons u units ih =>
    obtain ⟨other, otherText⟩ := u
    simp only [insertUnit]
    split
    · simp [get?]
    · split
      · simp [get?]
      · rename_i h
        simp only [get?] at ih ⊢
        rw [List.find?_cons_of_neg (by simpa using Ne.symm h)]
        exact ih

/-- What was published last under a name is what is there. -/
@[simp] theorem get?_add (sink : MemorySink) (u : SourceUnit) :
    (sink.add u).get? u.name = some u.text :=
  get?_insertUnit u.name u.text sink.units

theorem get?_insertUnit_of_ne {name other : String} (h : other ≠ name) (text : String)
    (units : List (String × String)) :
    get? ⟨insertUnit name text units⟩ other = get? ⟨units⟩ other := by
  induction units with
  | nil => simp [insertUnit, get?, Ne.symm h]
  | cons u units ih =>
    obtain ⟨first, firstText⟩ := u
    simp only [insertUnit]
    split
    · simp [get?, Ne.symm h]
    · split
      · rename_i heq
        simp [get?, ← heq, Ne.symm h]
      · simp only [get?] at ih ⊢
        rw [List.find?_cons, List.find?_cons]
        split
        · rfl
        · exact ih

/-- Publishing a unit leaves those of other names alone. -/
theorem get?_add_of_ne {u : SourceUnit} {other : String} (h : other ≠ u.name)
    (sink : MemorySink) : (sink.add u).get? other = sink.get? other :=
  get?_insertUnit_of_ne h u.text sink.units

/-- What was withdrawn is not there. -/
@[simp] theorem get?_remove (sink : MemorySink) (name : String) :
    (sink.remove name).get? name = none := by
  simp [get?, remove]

/-- Withdrawing a unit leaves those of other names alone. -/
theorem get?_remove_of_ne {name other : String} (h : other ≠ name) (sink : MemorySink) :
    (sink.remove name).get? other = sink.get? other := by
  unfold get? remove
  rw [List.find?_filter]
  congr 2
  funext u
  by_cases hu : u.1 = other <;> simp [hu, h]

end MemorySink

end JobRoster
