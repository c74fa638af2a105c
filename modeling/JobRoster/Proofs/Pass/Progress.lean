import Mathlib.Algebra.GroupWithZero.Nat
import JobRoster.Proofs.Pass.Workers

/-!
# Passes come to an end

Every step but a cancellation leaves less work to do, and as long as a pass has not ended, some step
can be made. So a pass ends, whoever takes the steps, and it takes no patience to cancel it.
-/

namespace JobRoster

variable {δ α ε σ S : Type}

/-! ## Work that is left -/

/-- How many steps a candidate needs at most. -/
def Phase.work : Phase → Nat
  | waiting => 3
  | taken => 2
  | read => 1
  | done _ => 0

def Slot.work (slot : Slot δ) : Nat :=
  slot.phase.work

/-- How many steps a pass over so many candidates needs at most. -/
def Stage.work (found : Nat) : Stage δ → Nat
  | starting => 3 * found + 5
  | extracting slots => (slots.map Slot.work).sum + 4
  | gathered _ => 3
  | prepared _ => 2
  | cleared _ => 1
  | ended _ => 0

theorem sum_work_append (before after : List (Slot δ)) (slot : Slot δ) :
    ((before ++ slot :: after).map Slot.work).sum =
      slot.work + ((before ++ after).map Slot.work).sum := by
  simp only [List.map_append, List.map_cons, List.sum_append, List.sum_cons]
  omega

section Measure

variable {settings : Settings} {host : Declarations δ α ε σ} {m : Moment δ S}

theorem work_started (stage : m.stage = .starting) :
    (m.started settings host).stage.work (candidates host settings.markerShortName).length <
      m.stage.work (candidates host settings.markerShortName).length := by
  have hwaiting : (((candidates host settings.markerShortName).map fun decl =>
      (⟨decl, .waiting⟩ : Slot δ)).map Slot.work).sum =
        3 * (candidates host settings.markerShortName).length := by
    simp [Function.comp_def, Slot.work, Phase.work, Nat.mul_comm]
  rw [stage]
  unfold Moment.started
  simp only
  split_ifs <;> simp only [Stage.work, hwaiting] <;> omega

theorem work_gathered {slots : List (Slot δ)} (visits : List Visit)
    (stage : m.stage = .extracting slots) (found : Nat) :
    (m.gathered visits).stage.work found < m.stage.work found := by
  rw [stage]
  unfold Moment.gathered
  simp only
  split
  · simp [Stage.work]
  · cases roster (visits.map Visit.extracted) <;> simp [Stage.work]

end Measure

variable [Sink S] {regime : Regime} {settings : Settings}
  {host : Declarations δ α ε σ} {m m' : Moment δ S}

/-- Only a cancellation can leave as much work as before. -/
theorem Step.work_lt (inside : regime.outside = false) (step : Step regime settings host m m') :
    m'.stage.work (candidates host settings.markerShortName).length <
      m.stage.work (candidates host settings.markerShortName).length := by
  cases step with
  | cancel outside => simp [inside] at outside
  | start stage => exact work_started stage
  | skip stage waiting | take stage waiting =>
    simp only [stage, Stage.work, sum_work_append, Slot.work, waiting, Phase.work]
    omega
  | read stage taken =>
    simp only [stage, Stage.work, sum_work_append, Slot.work, taken, Phase.work]
    omega
  | finish stage ready =>
    rcases ready with hphase | ⟨hphase, -⟩ <;>
      simp only [stage, Stage.work, sum_work_append, Slot.work, hphase, Phase.work] <;> omega
  | gather stage => exact work_gathered _ stage _
  | prepare stage => simp [stage, Stage.work]
  | clear stage =>
    rw [stage]
    simp only
    split <;> simp [Stage.work]
  | publish stage =>
    rw [stage]
    simp [Moment.published, Stage.work]

/-! ## There is always a step -/

/-- The same workers, but nobody cancels the pass from outside. -/
def Regime.inside (regime : Regime) : Regime :=
  { regime with outside := false }

theorem Step.of_inside (step : Step regime.inside settings host m m') :
    Step regime settings host m m' := by
  cases step with
  | cancel outside => simp [Regime.inside] at outside
  | start stage => exact .start stage
  | skip stage waiting free cancelled => exact .skip stage waiting free cancelled
  | take stage waiting free cancelled => exact .take stage waiting free cancelled
  | read stage taken reads => exact .read stage taken reads
  | finish stage ready => exact .finish stage ready
  | gather stage done => exact .gather stage done
  | prepare stage => exact .prepare stage
  | clear stage => exact .clear stage
  | publish stage => exact .publish stage

omit [Sink S] in
theorem phases_of_done {slots : List (Slot δ)}
    (done : ∀ slot ∈ slots, ∃ visit, slot.phase = .done visit) :
    slots.map Slot.phase = (slots.filterMap Slot.visit?).map Phase.done := by
  induction slots with
  | nil => rfl
  | cons slot slots ih =>
    obtain ⟨visit, hphase⟩ := done slot List.mem_cons_self
    have hrest := ih fun slot hslot => done slot (List.mem_cons_of_mem _ hslot)
    have hvisit : slot.visit? = some visit := by simp [Slot.visit?, Phase.visit?, hphase]
    rw [List.filterMap_cons_some hvisit, List.map_cons, List.map_cons, hphase, hrest]

/-- While candidates are extracted, there is one that a worker can go on with, or they are all
    done. -/
theorem exists_step_extracting (workers : 0 < regime.workers) {slots : List (Slot δ)}
    (stage : m.stage = .extracting slots) : ∃ m', Step regime settings host m m' := by
  -- a candidate in hands is gone on with first, so that for a waiting one there is a worker free
  by_cases hbusy : ∃ slot ∈ slots, slot.isBusy = true
  · obtain ⟨slot, hslot, hbusy⟩ := hbusy
    obtain ⟨before, after, rfl⟩ := List.append_of_mem hslot
    cases hphase : slot.phase with
    | taken =>
      cases hreads : readsArguments host (host.symbolNamed? settings.marker) slot.decl with
      | true => exact ⟨_, .read stage hphase hreads⟩
      | false => exact ⟨_, .finish stage (.inr ⟨hphase, hreads⟩)⟩
    | read => exact ⟨_, .finish stage (.inl hphase)⟩
    | waiting => simp [Slot.isBusy, hphase] at hbusy
    | done visit => simp [Slot.isBusy, hphase] at hbusy
  by_cases hwaiting : ∃ slot ∈ slots, slot.phase = .waiting
  · obtain ⟨slot, hslot, hphase⟩ := hwaiting
    obtain ⟨before, after, rfl⟩ := List.append_of_mem hslot
    have hidle : (before ++ after).countP Slot.isBusy = 0 := by
      rw [List.countP_eq_zero]
      intro other hother hbusy'
      refine hbusy ⟨other, ?_, hbusy'⟩
      rcases List.mem_append.mp hother with hbefore | hafter
      · exact List.mem_append_left _ hbefore
      · exact List.mem_append_right _ (List.mem_cons_of_mem _ hafter)
    have hfree : (before ++ after).countP Slot.isBusy < regime.workers := by omega
    cases hcancelled : m.cancelled with
    | true => exact ⟨_, .skip stage hphase hfree hcancelled⟩
    | false => exact ⟨_, .take stage hphase hfree hcancelled⟩
  · have hdone : ∀ slot ∈ slots, ∃ visit, slot.phase = .done visit := by
      intro slot hslot
      cases hphase : slot.phase with
      | waiting => exact absurd ⟨slot, hslot, hphase⟩ hwaiting
      | taken => exact absurd ⟨slot, hslot, by simp [Slot.isBusy, hphase]⟩ hbusy
      | read => exact absurd ⟨slot, hslot, by simp [Slot.isBusy, hphase]⟩ hbusy
      | done visit => exact ⟨visit, rfl⟩
    exact ⟨_, .gather stage (phases_of_done hdone)⟩

/-- A pass that has not ended can go on. -/
theorem exists_step (regime : Regime) (settings : Settings) (host : Declarations δ α ε σ)
    (workers : 0 < regime.workers) (unended : ∀ result, m.stage ≠ .ended result) :
    ∃ m', Step regime settings host m m' := by
  cases hstage : m.stage with
  | starting => exact ⟨_, .start hstage⟩
  | extracting slots => exact exists_step_extracting workers hstage
  | gathered jobs => exact ⟨_, .prepare hstage⟩
  | prepared outcome => exact ⟨_, .clear hstage⟩
  | cleared outcome => exact ⟨_, .publish hstage⟩
  | ended result => exact absurd hstage (unended result)

/-- Whatever has happened, a pass can be brought to its end, with no cancellation more. -/
theorem exists_ended (workers : 0 < regime.workers) (m : Moment δ S) :
    ∃ m' result, Steps regime settings host m m' ∧ m'.stage = .ended result := by
  -- by the work that is left, on steps that nobody outside makes
  induction hwork : m.stage.work (candidates host settings.markerShortName).length
    using Nat.strong_induction_on generalizing m with
  | _ work ih =>
    by_cases hended : ∃ result, m.stage = .ended result
    · obtain ⟨result, hresult⟩ := hended
      exact ⟨m, result, .refl, hresult⟩
    · obtain ⟨next, hstep⟩ := exists_step regime.inside settings host workers
        fun result hresult => hended ⟨result, hresult⟩
      obtain ⟨last, result, hsteps, hresult⟩ := ih _ (hwork ▸ hstep.work_lt rfl) next rfl
      exact ⟨last, result, .head hstep.of_inside hsteps, hresult⟩

end JobRoster
