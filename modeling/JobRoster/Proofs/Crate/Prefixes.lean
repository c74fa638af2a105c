import JobRoster.Crate.Scope
import JobRoster.Proofs.Crate.Qualified

/-!
# Prefixes that name a module

A path can start at a module around the one that it is written in, by words `super`, or at the root.
All ways to name a module come to the same, except that words `super` after `self` are not read as
leading up: they are taken as names in the module. A restricted visibility, which names a module in
the same way, does read them.
-/

namespace JobRoster.Crate

open Files Text

variable {c : Crate}

/-- The module that a number of steps up from a module lead to. -/
def ancestor? (c : Crate) : (steps : Nat) → (module : Nat) → Option Nat
  | 0, module => some module
  | steps + 1, module => (c.module module).parent.bind (ancestor? c steps)

/-- Segments after as many words `super`. -/
def supers (steps : Nat) (rest : List String) : List String :=
  List.replicate steps "super" ++ rest

theorem supers_succ (steps : Nat) (rest : List String) :
    supers (steps + 1) rest = "super" :: supers steps rest := rfl

variable {rest : List String}

theorem climb?_of_head?_ne_super (hrest : rest.head? ≠ some "super") (module : Nat) :
    climb? c module rest = some (module, rest) := by
  cases rest with
  | nil => rfl
  | cons first rest =>
    apply climb?_of_ne_super
    rintro rfl
    exact hrest rfl

/-- Each word `super` leads to the module around, until there is none. -/
theorem climb?_supers (hrest : rest.head? ≠ some "super") (steps module : Nat) :
    climb? c module (supers steps rest) = (c.ancestor? steps module).map (·, rest) := by
  induction steps generalizing module with
  | zero => exact climb?_of_head?_ne_super hrest module
  | succ steps ih =>
    rw [supers_succ, climb?, ancestor?]
    cases (c.module module).parent with
    | none => rfl
    | some parent => exact ih parent

/-- Two paths denote the same if they lead to one canonical path, or to none, without any search. -/
theorem resolvePath_eq_of_written (written : Option String) {module module' : Nat}
    {path path' : ItemPath}
    (h : ∀ ask throughGlobs, resolveWritten c ask throughGlobs module path none = pure written)
    (h' : ∀ ask throughGlobs, resolveWritten c ask throughGlobs module' path' none = pure written) :
    resolvePath c module path = resolvePath c module' path' := by
  rw [resolvePath, resolvePath, searchBudget, answer_succ, answer_succ, answerBy, answerBy, h, h']

theorem resolvePath_eq_none_of_written {module : Nat} {path : ItemPath}
    (h : ∀ ask throughGlobs, resolveWritten c ask throughGlobs module path none = pure none) :
    resolvePath c module path = none := by
  rw [resolvePath, searchBudget, answer_succ, answerBy, h]
  rfl

theorem resolveWritten_supers {steps : Nat} (hsteps : 1 ≤ steps)
    (hrest : rest.head? ≠ some "super") (module : Nat) (ask : Ask) (throughGlobs : GlobSearch) :
    resolveWritten c ask throughGlobs module ⟨false, supers steps rest⟩ none =
      pure ((c.ancestor? steps module).map fun outer =>
        c.canonicalIn (c.module outer).path rest) := by
  have hclimb := climb?_supers (c := c) hrest steps module
  obtain ⟨steps, rfl⟩ : ∃ fewer, steps = fewer + 1 := ⟨steps - 1, by omega⟩
  rw [supers_succ] at hclimb ⊢
  simp only [resolveWritten, hclimb, Option.map_map]
  rfl

/-- From a module, as many words `super` as lead up to a module around it, `self` in that module,
    and the way down from the root to it all come to the same, and too many words `super` to
    nothing. After `self` come names in the module, whatever they are. -/
theorem resolvePath_supers (hrest : ∀ first ∈ rest.head?, first ∉ pathKeywords) (module : Nat)
    {steps : Nat} (hsteps : 1 ≤ steps) :
    (∀ outer, c.ancestor? steps module = some outer →
      resolvePath c module ⟨false, supers steps rest⟩ =
        resolvePath c outer ⟨false, "self" :: rest⟩ ∧
      ∀ other, resolvePath c other ⟨false, "crate" :: ((c.module outer).path ++ rest)⟩ =
        resolvePath c outer ⟨false, "self" :: rest⟩) ∧
    (c.ancestor? steps module = none →
      resolvePath c module ⟨false, supers steps rest⟩ = none) ∧
    ∀ segments other, resolvePath c module ⟨false, "self" :: segments⟩ =
      resolvePath c other ⟨false, "crate" :: ((c.module module).path ++ segments)⟩ := by
  have hsuper : rest.head? ≠ some "super" := fun hhead => hrest "super" hhead (by decide)
  have hself : ∀ module segments other, resolvePath c module ⟨false, "self" :: segments⟩ =
      resolvePath c other ⟨false, "crate" :: ((c.module module).path ++ segments)⟩ := by
    intro module segments other
    apply resolvePath_eq_of_written (some (c.canonicalIn (c.module module).path segments))
    · intro ask throughGlobs
      rfl
    · intro ask throughGlobs
      simp only [canonicalIn_eq_extend]
      rfl
  refine ⟨fun outer houter => ⟨?_, fun other => (hself outer rest other).symm⟩, fun hnone => ?_,
    hself module⟩
  · apply resolvePath_eq_of_written _ (resolveWritten_supers hsteps hsuper module)
    intro ask throughGlobs
    rw [houter]
    rfl
  · apply resolvePath_eq_none_of_written
    intro ask throughGlobs
    rw [resolveWritten_supers hsteps hsuper, hnone]
    rfl

theorem resolvePath_supers_nested :
    ∃ c, load (.ofTexts [(⟨"lib.rs"⟩, "mod a; struct N;"), (⟨"a.rs"⟩, "mod b;"),
        (⟨"a/b.rs"⟩, "")]) "app" [] ⟨"lib.rs"⟩ = .ok c ∧
      (∀ first ∈ ["N"].head?, first ∉ pathKeywords) ∧
      c.ancestor? 2 2 = some 0 ∧ c.ancestor? 3 2 = none ∧
      resolvePath c 2 ⟨false, supers 2 ["N"]⟩ = resolvePath c 0 ⟨false, ["self", "N"]⟩ ∧
      resolvePath c 2 ⟨false, supers 3 ["N"]⟩ = none := by
  refine exists_loaded_of_any (fun c => c.ancestor? 2 2 = some 0 ∧ c.ancestor? 3 2 = none)
    (by decide +kernel) fun c hload htest => ?_
  obtain ⟨hroot, hnone⟩ := of_decide_eq_true htest
  have hrest : ∀ first ∈ ["N"].head?, first ∉ pathKeywords := by decide
  exact ⟨hrest, hroot, hnone, ((resolvePath_supers hrest 2 (by decide)).1 0 hroot).1,
    (resolvePath_supers hrest 2 (by decide)).2.1 hnone⟩

/-- After `self` a word `super` does not lead up, and is not missed at the root either. -/
theorem resolvePath_supers_ne_self :
    ∃ c, load (.ofTexts [(⟨"lib.rs"⟩, "mod m; struct N;"), (⟨"m.rs"⟩, "")]) "app" [] ⟨"lib.rs"⟩ =
        .ok c ∧
      (c.modules.map (·.path)).Nodup ∧ c.ancestor? 1 1 = some 0 ∧ c.ancestor? 1 0 = none ∧
      resolvePath c 1 ⟨false, supers 1 ["N"]⟩ = some "app::N" ∧
      resolvePath c 1 ⟨false, "self" :: supers 1 ["N"]⟩ = some "app::m::super::N" ∧
      resolvePath c 0 ⟨false, supers 1 ["N"]⟩ = none ∧
      resolvePath c 0 ⟨false, "self" :: supers 1 ["N"]⟩ = some "app::super::N" :=
  exists_loaded_of_decide (by decide +kernel)

/-! ## Restricted visibilities -/

theorem follow?_supers (steps module current : Nat) :
    Scope.follow? c.modules module current (supers steps []) = c.ancestor? steps current := by
  induction steps generalizing current with
  | zero => rfl
  | succ steps ih =>
    rw [supers_succ, Scope.follow?, if_pos rfl, ancestor?, Scope.parent?, parent_module]
    cases (c.module current).parent with
    | none => rfl
    | some parent => exact ih parent

/-- A visibility names the same module by words `super` with `self` before them as without. -/
theorem restricted?_supers (module : Nat) {steps : Nat} (hsteps : 1 ≤ steps) :
    Scope.restricted? c.modules module (supers steps []) = c.ancestor? steps module ∧
      Scope.restricted? c.modules module ("self" :: supers steps []) =
        c.ancestor? steps module := by
  refine ⟨?_, follow?_supers steps module module⟩
  obtain ⟨steps, rfl⟩ : ∃ fewer, steps = fewer + 1 := ⟨steps - 1, by omega⟩
  rw [← follow?_supers (steps + 1) module module, supers_succ, Scope.follow?, if_pos rfl,
    Scope.restricted?]

end JobRoster.Crate
