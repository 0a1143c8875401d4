import Exemplar.Generation.Run
import Exemplar.Proofs.Double.UnitInterval

/-!
# What a run ensures

A run ensures a property of its values and one of its failures if both hold
however the draws fall, as long as each is of a given kind: from the unit
interval where nothing else is said. A run that does not end ensures anything.
What a sequence of runs ensures follows from what its parts do.
-/

namespace Exemplar

/-- An outcome has a good value or a bad failure, or none of either. -/
def Outcome.Satisfies {α : Type} (good : α → Prop) (bad : Failure → Prop) : Outcome α → Prop
  | .value result _ => good result
  | .failure cause _ => bad cause
  | .unfinished => True

namespace Run

variable {α β : Type} {good good' : α → Prop} {bad bad' : Failure → Prop}
  {supply : Double → Prop}

/-- Whatever the draws of a supply, a value is good and a failure bad. -/
def Ensures (run : Run α) (good : α → Prop) (bad : Failure → Prop)
    (supply : Double → Prop := Double.InUnit) : Prop :=
  ∀ (draws : Draws) (position : Nat), (∀ drawn, supply (draws drawn)) →
    (run draws position).Satisfies good bad

theorem Ensures.mono {run : Run α} (hrun : run.Ensures good bad supply)
    (hgood : ∀ result, good result → good' result) (hbad : ∀ cause, bad cause → bad' cause) :
    run.Ensures good' bad' supply := by
  intro draws position hsupply
  have hend := hrun draws position hsupply
  cases hcase : run draws position <;> rw [hcase] at hend
  · exact hgood _ hend
  · exact hbad _ hend
  · trivial

theorem Ensures.and {run : Run α} (hrun : run.Ensures good bad supply)
    (hrun' : run.Ensures good' bad' supply) :
    run.Ensures (fun result => good result ∧ good' result) (fun cause => bad cause ∧ bad' cause)
      supply := by
  intro draws position hsupply
  have hend := hrun draws position hsupply
  have hend' := hrun' draws position hsupply
  cases hcase : run draws position <;> rw [hcase] at hend hend'
  · exact ⟨hend, hend'⟩
  · exact ⟨hend, hend'⟩
  · trivial

theorem ensures_true (run : Run α) : run.Ensures (fun _ => True) (fun _ => True) supply := by
  intro draws position _
  cases run draws position <;> trivial

theorem ensures_pure {result : α} (hgood : good result) :
    (pure result : Run α).Ensures good bad supply :=
  fun _ _ _ => hgood

theorem ensures_fail {cause : Failure} (hbad : bad cause) :
    (fail cause : Run α).Ensures good bad supply :=
  fun _ _ _ => hbad

theorem ensures_unfinished : (unfinished : Run α).Ensures good bad supply :=
  fun _ _ _ => trivial

theorem ensures_draw : draw.Ensures supply bad supply := fun _ position hsupply => hsupply position

theorem Ensures.bind {run : Run α} {next : α → Run β} {final : β → Prop}
    (hrun : run.Ensures good bad supply)
    (hnext : ∀ result, good result → (next result).Ensures final bad supply) :
    (run >>= next).Ensures final bad supply := by
  intro draws position hsupply
  rw [bind_apply]
  have hend := hrun draws position hsupply
  cases hcase : run draws position <;> rw [hcase] at hend
  · exact hnext _ hend draws _ hsupply
  · exact hend
  · trivial

theorem Ensures.map {run : Run α} {f : α → β} {final : β → Prop}
    (hrun : run.Ensures good bad supply)
    (hf : ∀ result, good result → final (f result)) : (f <$> run).Ensures final bad supply := by
  rw [map_eq_pure_bind]
  exact hrun.bind fun result hresult => ensures_pure (hf result hresult)

theorem ensures_evaluate {result : Except Fault α}
    (hgood : ∀ value, result = .ok value → good value)
    (hbad : ∀ cause, result = .error cause → bad (.fault cause)) :
    (evaluate result).Ensures good bad supply := by
  cases result with
  | ok value => exact ensures_pure (hgood value rfl)
  | error cause => exact ensures_fail (hbad cause rfl)

theorem ensures_evaluate_ok {result : Except Fault α} {value : α} (hresult : result = .ok value)
    (hgood : good value) : (evaluate result).Ensures good bad supply := by
  rw [hresult]
  exact ensures_pure hgood

theorem ensures_attempt {result : Except Failure α}
    (hgood : ∀ value, result = .ok value → good value)
    (hbad : ∀ cause, result = .error cause → bad cause) :
    (attempt result).Ensures good bad supply := by
  cases result with
  | ok value => exact ensures_pure (hgood value rfl)
  | error cause => exact ensures_fail (hbad cause rfl)

theorem ensures_repeatOnto {run : Run α} (hrun : run.Ensures good bad supply) (count : Nat)
    (made : List α) : (repeatOnto run count made).Ensures
      (fun results => ∃ later, results = made.reverse ++ later ∧ later.length = count ∧
        ∀ result ∈ later, good result) bad supply := by
  induction count generalizing made with
  | zero => exact ensures_pure ⟨[], by simp⟩
  | succ count ih =>
      refine hrun.bind fun result hresult => (ih (result :: made)).mono ?_ fun _ => id
      rintro results ⟨later, rfl, hlength, hlater⟩
      refine ⟨result :: later, by simp, by simp [hlength], ?_⟩
      simpa using ⟨hresult, hlater⟩

/-- A run repeated a number of times gives that number of good results. -/
theorem Ensures.times {run : Run α} (hrun : run.Ensures good bad supply) (count : Nat) :
    (run.times count).Ensures
      (fun results => results.length = count ∧ ∀ result ∈ results, good result) bad supply := by
  refine (ensures_repeatOnto hrun count []).mono ?_ fun _ => id
  rintro results ⟨later, rfl, hlength, hlater⟩
  exact ⟨hlength, hlater⟩

end Run

end Exemplar
