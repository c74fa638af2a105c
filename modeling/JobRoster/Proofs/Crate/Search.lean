import JobRoster.Crate.Resolution

/-!
# Searches and what they remember

A search reads and changes the memo. `Search.Ensures` states what a search makes of a memo whose
answers all have some property: its own answer has one too, and the answers remembered after it
keep theirs.
-/

namespace JobRoster.Crate

/-! ## The memo -/

namespace Memo

variable {memo : Memo} {lookup other : Lookup} {answer : Option String}

@[simp] theorem find?_empty (lookup : Lookup) : Memo.empty.find? lookup = none := rfl

theorem find?_start :
    (memo.start lookup).find? other = if lookup = other then some none else memo.find? other := by
  unfold find? start
  by_cases h : lookup = other <;> simp [h]

theorem find?_finish :
    (memo.finish lookup answer).find? other =
      if lookup = other then (memo.find? other).map fun _ => answer else memo.find? other := by
  unfold find? finish
  simp only [List.find?_map, Option.map_map]
  -- the keys stay as they are
  have hkey : ((fun entry : Lookup × Option String => decide (entry.1 = other)) ∘ fun entry =>
      if entry.1 = lookup then (lookup, answer) else entry) =
        fun entry => decide (entry.1 = other) := by
    funext entry
    by_cases h : entry.1 = lookup <;> simp [h]
  rw [hkey]
  cases hfound : memo.entries.find? fun entry => entry.1 = other with
  | none => simp
  | some entry =>
    have hentry : entry.1 = other := by simpa using List.find?_some hfound
    by_cases h : lookup = other
    · simp [hentry, h]
    · simp [hentry, h, Ne.symm h]

/-- Every answer that is remembered satisfies `K`. -/
def Holds (K : String → Prop) (memo : Memo) : Prop :=
  ∀ lookup found, memo.find? lookup = some (some found) → K found

variable {K : String → Prop}

theorem holds_empty : Memo.empty.Holds K := by
  simp [Holds]

theorem Holds.start (h : memo.Holds K) (lookup : Lookup) : (memo.start lookup).Holds K := by
  intro other found hfound
  rw [find?_start] at hfound
  split at hfound
  · cases hfound
  · exact h other found hfound

theorem Holds.finish (h : memo.Holds K) (lookup : Lookup)
    (hanswer : ∀ found, answer = some found → K found) : (memo.finish lookup answer).Holds K := by
  intro other found hfound
  rw [find?_finish] at hfound
  split at hfound
  · obtain ⟨_, _, hsome⟩ := Option.map_eq_some_iff.1 hfound
    exact hanswer found hsome
  · exact h other found hfound

end Memo

/-! ## Steps of a search -/

theorem bind_apply (s : Search) (f : Option String → Search) (memo : Memo) :
    (s >>= f) memo = f (s memo).1 (s memo).2 := rfl

/-- What leaves every answer of a search as it is need not be done. -/
theorem bind_eq_self {s : Search} {f : Option String → Search} (hnone : f none = pure none)
    (hsome : ∀ memo r, (s memo).1 = some r → f (some r) = pure (some r)) : s >>= f = s := by
  funext memo
  refine (bind_apply s f memo).trans ?_
  cases hanswer : (s memo).1 with
  | none => exact hnone ▸ Prod.ext hanswer.symm rfl
  | some r => exact hsome memo r hanswer ▸ Prod.ext hanswer.symm rfl

/-- A look-up that has begun is answered from the memo, and any other by searching the globs. -/
theorem lookupNoting_apply (noting : Noting) (c : Crate) (ask : Ask) (module : Nat) (name : String)
    (memo : Memo) :
    lookupNoting noting c ask module name memo =
      match memo.find? ⟨module, name⟩ with
      | some known => (known, memo)
      | none =>
        let (found, after) := searchGlobs c ask module name [] (c.module module).globs
          (noting.start memo ⟨module, name⟩)
        (found, noting.finish after ⟨module, name⟩ found) := by
  have hget : lookupNoting noting c ask module name memo =
      (match memo.find? ⟨module, name⟩ with
      | some known => pure known
      | none => do
        modify (noting.start · ⟨module, name⟩)
        let found ← searchGlobs c ask module name [] (c.module module).globs
        modify (noting.finish · ⟨module, name⟩ found)
        return found : Search) memo := rfl
  rw [hget]
  cases memo.find? ⟨module, name⟩ with
  | some known => rfl
  | none => rfl

theorem globLookup_apply (c : Crate) (ask : Ask) (module : Nat) (name : String) (memo : Memo) :
    globLookup c ask module name memo =
      match memo.find? ⟨module, name⟩ with
      | some known => (known, memo)
      | none =>
        let (found, after) := searchGlobs c ask module name [] (c.module module).globs
          (memo.start ⟨module, name⟩)
        (found, after.finish ⟨module, name⟩ found) :=
  lookupNoting_apply .memo c ask module name memo

theorem answer_succ (c : Crate) (budget : Nat) (question : Question) :
    answer c (budget + 1) question =
      answerBy c (answer c budget) (globLookup c (answer c budget)) question := rfl

namespace Search

/-- Where all answers that are remembered satisfy `K`, the answer satisfies `P` and all answers that
    are remembered after it satisfy `K`. -/
def Ensures (K P : String → Prop) (s : Search) : Prop :=
  ∀ memo : Memo, memo.Holds K → (∀ r, (s memo).1 = some r → P r) ∧ (s memo).2.Holds K

namespace Ensures

variable {K P Q : String → Prop}

theorem pure {answer : Option String} (h : ∀ r, answer = some r → P r) :
    Ensures K P (pure answer : Search) :=
  fun _ hmemo => ⟨h, hmemo⟩

theorem none : Ensures K P (Pure.pure .none : Search) :=
  .pure fun _ h => nomatch h

theorem some {r : String} (h : P r) : Ensures K P (Pure.pure (.some r) : Search) :=
  .pure fun _ hr => Option.some.inj hr ▸ h

theorem bind {s : Search} {f : Option String → Search} (hs : Ensures K P s)
    (hnone : Ensures K Q (f .none)) (hsome : ∀ r, P r → Ensures K Q (f (.some r))) :
    Ensures K Q (s >>= f) := by
  intro memo hmemo
  obtain ⟨hanswer, hafter⟩ := hs memo hmemo
  rw [bind_apply]
  cases h : (s memo).1 with
  | none => exact hnone _ hafter
  | some r => exact hsome r (hanswer r h) _ hafter

end Ensures

/-- From a memo of which `I` holds, the search gives an answer and leaves such a memo. -/
def Gives (I : Memo → Prop) (s : Search) (answer : Option String) : Prop :=
  ∀ memo, I memo → (s memo).1 = answer ∧ I (s memo).2

namespace Gives

variable {I : Memo → Prop}

theorem pure (answer : Option String) : Gives I (Pure.pure answer : Search) answer :=
  fun _ hmemo => ⟨rfl, hmemo⟩

theorem bind {s : Search} {f : Option String → Search} {answer result : Option String}
    (hs : Gives I s answer) (hf : Gives I (f answer) result) : Gives I (s >>= f) result := by
  intro memo hmemo
  obtain ⟨hanswer, hafter⟩ := hs memo hmemo
  rw [bind_apply, hanswer]
  exact hf _ hafter

/-- What gives the same from every memo and changes none is a value. -/
theorem eq_pure {s : Search} {answer : Option String}
    (h : ∀ memo, Gives (fun other => other = memo) s answer) : s = Pure.pure answer :=
  funext fun memo => Prod.ext (h memo memo rfl).1 (h memo memo rfl).2

end Gives

end Search

end JobRoster.Crate
