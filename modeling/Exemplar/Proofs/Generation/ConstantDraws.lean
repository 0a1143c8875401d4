import Exemplar.Proofs.Generation.Accounting
import Exemplar.Proofs.Generation.Sketch
import Exemplar.Proofs.Generation.Supply

/-!
# Constant draws

Where all draws are the same, a run does the same from every place on. So whatever is
repeated gives equal results: all items of an array that is made are equal, on every
level of an example.
-/

namespace Exemplar

open Run

/-! ## Runs from any place on -/

namespace Outcome

variable {α : Type} {result : α} {count final : Nat} {outcome : Outcome α}

theorem later_eq_value :
    outcome.later count = .value result final ↔
      ∃ cost, outcome = .value result cost ∧ final = count + cost := by
  cases outcome <;> simp [later, eq_comm]

end Outcome

namespace Run

variable {α β : Type} {run : Run α} (drawn : Double)

/-- A run that looks at nothing before its place does the same on constant draws from every place
on. -/
theorem Follows.constant (hsteady : run.Follows run) (position : Nat) :
    run (Draws.constant drawn) position = (run (Draws.constant drawn) 0).later position :=
  hsteady (Draws.constant drawn) position 0

theorem Follows.constant_eq_value (hsteady : run.Follows run) {position final : Nat} {result : α} :
    run (Draws.constant drawn) position = .value result final ↔
      ∃ cost, run (Draws.constant drawn) 0 = .value result cost ∧ final = position + cost := by
  rw [hsteady.constant, Outcome.later_eq_value]

/-- On constant draws such a run gives one and the same value. -/
theorem Follows.ensures_constant (hsteady : run.Follows run) :
    run.Ensures (fun result => ∃ cost, run (Draws.constant drawn) 0 = .value result cost)
      (fun _ => True) (· = drawn) := by
  intro draws position hdraws
  obtain rfl : draws = Draws.constant drawn := funext hdraws
  cases hcase : run (Draws.constant drawn) position with
  | value result final =>
      obtain ⟨cost, hvalue, -⟩ := (hsteady.constant_eq_value drawn).mp hcase
      exact ⟨cost, hvalue⟩
  | _ => trivial

/-- What a run ensures after a conversion it ensures of what is converted. -/
theorem Ensures.of_map {f : α → β} {good : β → Prop} {bad : Failure → Prop}
    {supply : Double → Prop} (hrun : (f <$> run).Ensures good bad supply) :
    run.Ensures (fun result => good (f result)) bad supply := by
  intro draws position hsupply
  have hend := hrun draws position hsupply
  rw [map_apply] at hend
  cases hcase : run draws position <;> rw [hcase] at hend <;> exact hend

end Run

theorem exampleAt_follows (config : Config) (scope : Scope) (allowance depth : Nat)
    (schema : Json) :
    (exampleAt config scope allowance depth schema).Follows
      (exampleAt config scope allowance depth schema) :=
  follows_congruence.exampleAt (fun _ _ _ _ => rfl) (fun _ _ _ => rfl) config scope allowance depth
    schema

/-! ## Uniform arrays -/

/-- All items of every array that was made are equal. -/
inductive Sketch.Uniform : Sketch → Prop
  | copied (value : Json) : Sketch.Uniform (.copied value)
  | arr {items : List Sketch} (hequal : ∀ item ∈ items, ∀ item' ∈ items, item.value = item'.value)
      (hitems : ∀ item ∈ items, Sketch.Uniform item) : Sketch.Uniform (.arr items)
  | obj {fields : List (Str × Sketch)} (hfields : ∀ field ∈ fields, Sketch.Uniform field.2) :
      Sketch.Uniform (.obj fields)

/-- On constant draws a shape is sketched with uniform arrays if the schemas inside it are. -/
theorem sketchShape_uniform {config : Config} {child : Json → Run Sketch} {drawn : Double}
    (hsteady : ∀ schema, (Sketch.value <$> child schema).Follows (Sketch.value <$> child schema))
    (hchild : ∀ schema, (child schema).Ensures Sketch.Uniform (fun _ => True) (· = drawn))
    (shape : Shape) :
    (sketchShape config child shape).Ensures Sketch.Uniform (fun _ => True) (· = drawn) := by
  -- what a schema inside gives is uniform, and one and the same value
  have hinner (schema : Json) : (child schema).Ensures
      (fun sketch => sketch.Uniform ∧ ∃ cost,
        (Sketch.value <$> child schema) (Draws.constant drawn) 0 = .value sketch.value cost)
      (fun _ => True) (· = drawn) := by
    have hsame := ((hsteady schema).ensures_constant drawn).of_map
    exact ((hchild schema).and hsame).mono (fun _ => id) fun _ _ => trivial
  refine sketchShape_ensures hinner .copied (fun _ _ hsketch => hsketch.1) ?_ ?_ shape
  · intro schema items hitems
    refine .arr ?_ fun item hmem => (hitems item hmem).1
    intro item hmem item' hmem'
    obtain ⟨cost, hvalue⟩ := (hitems item hmem).2
    obtain ⟨cost', hvalue'⟩ := (hitems item' hmem').2
    exact (Outcome.value.inj (hvalue.symm.trans hvalue')).1
  · intro fields hfields
    refine .obj fun field hmem => ?_
    obtain ⟨-, hfield, -⟩ := hfields field hmem
    exact hfield

theorem sketchAt_uniform (config : Config) (scope : Scope) (drawn : Double) (allowance depth : Nat)
    (schema : Json) :
    (sketchAt config scope allowance depth schema).Ensures Sketch.Uniform (fun _ => True)
      (· = drawn) := by
  induction allowance generalizing depth schema with
  | zero => exact ensures_unfinished
  | succ allowance ih =>
      apply (ensures_true (checkDepth config.maxDepth depth)).bind
      intro _ _
      apply (ensures_true (attempt (shapeIn scope schema))).bind
      intro shape _
      refine sketchShape_uniform (fun inner => ?_) (ih (depth + 1)) shape
      rw [value_sketchAt]
      exact exampleAt_follows config scope allowance (depth + 1) inner

theorem sketchWithin_uniform (allowance : Nat) (config : Config) (schema root : Json)
    (drawn : Double) :
    (sketchWithin allowance config schema root).Ensures Sketch.Uniform (fun _ => True)
      (· = drawn) := by
  apply (ensures_true (evaluate (Scope.ofRoot root))).bind
  intro scope _
  exact sketchAt_uniform config scope drawn allowance 0 schema

/-- On constant draws all items of every array that is made are equal. -/
theorem Ends.uniform {config : Config} {schema root value : Json} {drawn : Double}
    {position final : Nat}
    (hends : Ends config schema root (Draws.constant drawn) position (.value value final)) :
    ∃ allowance sketch,
      sketchWithin allowance config schema root (Draws.constant drawn) position =
          .value sketch final ∧
        sketch.value = value ∧ sketch.Uniform := by
  obtain ⟨allowance, sketch, hsketch, heq⟩ := hends.exists_sketch
  have hend :=
    sketchWithin_uniform allowance config schema root drawn (Draws.constant drawn) position
    fun _ => rfl
  rw [hsketch] at hend
  exact ⟨allowance, sketch, hsketch, heq, hend⟩

end Exemplar
