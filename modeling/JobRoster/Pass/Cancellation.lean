/-!
# Cancellation

A pass can be cancelled at any moment from outside. All that a pass has of it is what it sees when
it looks: before extraction, once for each candidate, after all candidates, and before it publishes.
Candidates may be extracted in any order, so any of them may be the first to see it.
-/

namespace JobRoster

/-- What a pass sees when it looks whether it is cancelled. -/
structure Cancellation where
  atStart : Bool
  /-- For a candidate by its place in the list. -/
  atCandidate : Nat → Bool
  afterCandidates : Bool
  atPublish : Bool

namespace Cancellation

/-- A pass that is cancelled stays cancelled: what is seen once is seen at every later moment. -/
structure Lasting (seen : Cancellation) : Prop where
  start : seen.atStart = true → ∀ i, seen.atCandidate i = true
  candidate : ∀ i, seen.atCandidate i = true → seen.afterCandidates = true
  afterStart : seen.atStart = true → seen.afterCandidates = true
  publish : seen.afterCandidates = true → seen.atPublish = true

/-- The pass is never cancelled. -/
def never : Cancellation :=
  ⟨false, fun _ => false, false, false⟩

/-- The pass is cancelled before it begins. -/
def before : Cancellation :=
  ⟨true, fun _ => true, true, true⟩

/-- The pass is cancelled while the arguments of a candidate are read for the `n`-th time, counted
    from one. `reads` tells of each candidate, in the order in which one worker takes them, whether
    its arguments are read. -/
def duringRead (reads : List Bool) (n : Nat) : Cancellation where
  atStart := false
  atCandidate i := n ≤ (reads.take i).count true
  afterCandidates := n ≤ reads.count true
  atPublish := n ≤ reads.count true

theorem lasting_before : Lasting before := by
  constructor <;> simp [before]

theorem lasting_duringRead (reads : List Bool) (n : Nat) : Lasting (duringRead reads n) := by
  constructor
  · simp [duringRead]
  · intro i h
    have := (List.take_sublist i reads).count_le true
    simp only [duringRead, decide_eq_true_eq] at h ⊢
    omega
  · simp [duringRead]
  · simp [duringRead]

end Cancellation

end JobRoster
