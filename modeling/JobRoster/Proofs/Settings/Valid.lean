import JobRoster.Settings.Validation

/-!
# What valid settings are

Settings pass the check exactly when each of them is what the place needs that it is spliced into.
-/

namespace JobRoster.Settings

open Syntax

theorem bind_eq_ok_iff {ε α β : Type} {x : Except ε α} {f : α → Except ε β} {b : β} :
    (x >>= f) = .ok b ↔ ∃ a, x = .ok a ∧ f a = .ok b := by
  cases x with
  | error error => exact iff_of_false (fun h => nomatch h) (by simp)
  | ok a =>
    constructor
    · intro h
      exact ⟨a, rfl, h⟩
    · rintro ⟨a', ha, h⟩
      rwa [Except.ok.inj ha]

theorem mapError_eq_ok_iff {ε ε' α : Type} {x : Except ε α} {f : ε → ε'} {a : α} :
    x.mapError f = .ok a ↔ x = .ok a := by
  cases x with
  | error error => exact iff_of_false nofun nofun
  | ok b => exact ⟨fun h => congrArg _ (Except.ok.inj h), fun h => congrArg _ (Except.ok.inj h)⟩

/-- Settings of which each can stand where generated code puts it. -/
structure Valid (settings : Settings) : Prop where
  marker : ∃ path, parsePath settings.marker = .ok path ∧ 2 ≤ path.segments.length
  registry : ∃ path, parsePath settings.registry = .ok path
  jobTrait : ∃ path, parsePath settings.jobTrait = .ok path
  method : ∃ ident, parseIdent settings.method = .ok ident
  methodWithOptions : ∃ ident, parseIdent settings.methodWithOptions = .ok ident
  output : isPlainFileName settings.output = true

theorem validateMarker_eq_ok_iff {marker : String} {u : Unit} :
    validateMarker marker = .ok u ↔
      ∃ path, parsePath marker = .ok path ∧ 2 ≤ path.segments.length := by
  simp only [validateMarker, bind_eq_ok_iff, mapError_eq_ok_iff]
  refine exists_congr fun path => and_congr_right fun _ => ?_
  split
  next hshort => exact iff_of_false (fun h => nomatch h) (Nat.not_le.2 hshort)
  next hlong => exact iff_of_true rfl (Nat.not_lt.1 hlong)

theorem validateMethod_eq_ok_iff {method : String} {u : Unit} :
    validateMethod method = .ok u ↔ ∃ ident, parseIdent method = .ok ident := by
  simp only [validateMethod, bind_eq_ok_iff, mapError_eq_ok_iff]
  refine exists_congr fun ident => and_iff_left rfl

theorem validate_eq_ok_iff {settings : Settings} : settings.validate = .ok () ↔ settings.Valid := by
  have houtput : ((if !isPlainFileName settings.output then
      throw (.outputNotPlain settings.output) else pure ()) : Except SettingsError Unit) = .ok () ↔
        isPlainFileName settings.output = true := by
    cases isPlainFileName settings.output with
    | true => exact iff_of_true rfl rfl
    | false => exact iff_of_false (fun h => nomatch h) Bool.false_ne_true
  simp only [validate, bind_eq_ok_iff, mapError_eq_ok_iff, validateMarker_eq_ok_iff,
    validateMethod_eq_ok_iff, houtput]
  constructor
  · rintro ⟨-, hmarker, registry, hregistry, jobTrait, hjobTrait, -, hmethod, -, hoptions, hname⟩
    exact ⟨hmarker, ⟨registry, hregistry⟩, ⟨jobTrait, hjobTrait⟩, hmethod, hoptions, hname⟩
  · rintro ⟨hmarker, ⟨registry, hregistry⟩, ⟨jobTrait, hjobTrait⟩, hmethod, hoptions, hname⟩
    exact ⟨(), hmarker, registry, hregistry, jobTrait, hjobTrait, (), hmethod, (), hoptions, hname⟩

end JobRoster.Settings
