import Exemplar.Generation.Example

/-!
# Relations that runs respect

A relation between runs that sequencing keeps, and that every draw and every
fault bears to itself, carries over from the runs for the schemas inside a shape
to the run for the shape. Two ways of running a schema are compared by one such
relation, whatever the shapes are that they meet.
-/

namespace Exemplar

open Run

/-- A relation between runs that sequencing keeps. -/
structure Run.Congruence (related : {α : Type} → Run α → Run α → Prop) : Prop where
  pure {α : Type} (result : α) : related (pure result) (pure result)
  bind {α β : Type} {first first' : Run α} {next next' : α → Run β} :
    related first first' → (∀ result, related (next result) (next' result)) →
      related (first >>= next) (first' >>= next')
  draw : related draw draw
  fault {α : Type} (cause : Fault) :
    related (fail (.fault cause) : Run α) (fail (.fault cause))

namespace Run.Congruence

variable {related : {α : Type} → Run α → Run α → Prop} (hrelated : Congruence related)

include hrelated

theorem evaluate {α : Type} (result : Except Fault α) :
    related (evaluate result) (evaluate result) := by
  cases result with
  | ok value => exact hrelated.pure value
  | error cause => exact hrelated.fault cause

theorem map {α β : Type} (f : α → β) {run run' : Run α} (hrun : related run run') :
    related (f <$> run) (f <$> run') := by
  rw [map_eq_pure_bind, map_eq_pure_bind]
  exact hrelated.bind hrun fun _ => hrelated.pure _

theorem repeatOnto {α : Type} {run run' : Run α} (hrun : related run run') (count : Nat)
    (made : List α) : related (repeatOnto run count made) (repeatOnto run' count made) := by
  induction count generalizing made with
  | zero => exact hrelated.pure _
  | succ count ih => exact hrelated.bind hrun fun result => ih (result :: made)

theorem times {α : Type} {run run' : Run α} (hrun : related run run') (count : Nat) :
    related (run.times count) (run'.times count) :=
  hrelated.repeatOnto hrun count []

theorem pick {α : Type} (elements : List α) : related (pick elements) (pick elements) :=
  hrelated.bind hrelated.draw fun _ => hrelated.evaluate _

theorem spread (lower upper : Json) : related (spread lower upper) (spread lower upper) :=
  hrelated.bind hrelated.draw fun _ => hrelated.evaluate _

theorem point (lower upper places : Json) :
    related (point lower upper places) (point lower upper places) :=
  hrelated.bind hrelated.draw fun _ => hrelated.evaluate _

theorem word (length : Json) : related (word length) (word length) := by
  apply hrelated.bind (hrelated.evaluate _)
  intro count
  exact hrelated.bind (hrelated.times (hrelated.pick alphabet) _) fun _ => hrelated.pure _

theorem includes (threshold : Json) (required : List Json) (name : Str) :
    related (includes threshold required name) (includes threshold required name) := by
  unfold Exemplar.includes
  split
  · exact hrelated.pure _
  · refine hrelated.bind hrelated.draw fun _ => ?_
    exact hrelated.bind (hrelated.evaluate _) fun _ => hrelated.pure _

theorem fieldsOnto {α : Type} (threshold : Json) (required : List Json)
    {child child' : Json → Run α} (hchild : ∀ schema, related (child schema) (child' schema))
    (properties : List (Str × Json)) (made : List (Str × α)) :
    related (fieldsOnto threshold required child properties made)
      (fieldsOnto threshold required child' properties made) := by
  induction properties generalizing made with
  | nil => exact hrelated.pure _
  | cons property rest ih =>
      obtain ⟨name, schema⟩ := property
      apply hrelated.bind (hrelated.includes threshold required name)
      intro kept
      cases kept with
      | false => exact ih made
      | true => exact hrelated.bind (hchild schema) fun value => ih ((name, value) :: made)

/-- What relates the runs for the schemas inside a shape relates those for the shape. -/
theorem expand (config : Config) {child child' : Json → Run Json}
    (hchild : ∀ schema, related (child schema) (child' schema)) (shape : Shape) :
    related (expand config child shape) (expand config child' shape) := by
  cases shape with
  | anyOf variants => exact hrelated.bind (hrelated.pick variants) hchild
  | enumeration values => exact hrelated.pick values
  | object properties required =>
      cases properties with
      | obj properties =>
          exact hrelated.map _ (hrelated.fieldsOnto _ required hchild properties [])
      | _ => exact hrelated.fault _
  | array items minItems maxItems =>
      by_cases hitems : items = .null
      · subst hitems
        exact hrelated.pure _
      · rw [expand_array config child hitems, expand_array config child' hitems]
        apply hrelated.bind (hrelated.spread _ _)
        intro count
        apply hrelated.bind (hrelated.evaluate _)
        intro length
        exact hrelated.map _ (hrelated.times (hchild items) _)
  | boolean => exact hrelated.bind hrelated.draw fun _ => hrelated.pure _
  | integer minimum maximum => exact hrelated.map _ (hrelated.spread _ _)
  | number minimum maximum => exact hrelated.map _ (hrelated.point _ _ _)
  | string pattern =>
      rw [Exemplar.expand, Exemplar.expand]
      split
      · exact hrelated.pure _
      · exact hrelated.map _ (hrelated.word _)
  | constant value => exact hrelated.pure _

theorem expand_self (config : Config) {child : Json → Run Json}
    (hchild : ∀ schema, related (child schema) (child schema)) (shape : Shape) :
    related (Exemplar.expand config child shape) (Exemplar.expand config child shape) :=
  hrelated.expand config hchild shape

section Failures

variable (hfail : ∀ {α : Type} (cause : Failure), related (fail cause : Run α) (fail cause))

include hfail

theorem attempt {α : Type} (result : Except Failure α) :
    related (attempt result) (attempt result) := by
  cases result with
  | ok value => exact hrelated.pure value
  | error cause => exact hfail cause

theorem checkDepth (limit : Json) (depth : Nat) :
    related (checkDepth limit depth) (checkDepth limit depth) := by
  unfold Exemplar.checkDepth
  split
  · exact hrelated.pure ()
  · apply hrelated.bind (hrelated.evaluate _)
    intro bound
    split
    · exact hfail _
    · exact hrelated.pure ()

theorem exampleAt (hunfinished : ∀ {α : Type}, related (unfinished : Run α) unfinished)
    (config : Config) (scope : Scope) (allowance depth : Nat) (schema : Json) :
    related (exampleAt config scope allowance depth schema)
      (exampleAt config scope allowance depth schema) := by
  induction allowance generalizing depth schema with
  | zero => exact hunfinished
  | succ allowance ih =>
      apply hrelated.bind (hrelated.checkDepth hfail config.maxDepth depth)
      intro _
      apply hrelated.bind (hrelated.attempt hfail _)
      intro shape
      exact hrelated.expand_self config (ih (depth + 1)) shape

/-- A relation that failures bear to themselves too is one that every example bears to itself. -/
theorem exampleWithin (hunfinished : ∀ {α : Type}, related (unfinished : Run α) unfinished)
    (allowance : Nat) (config : Config) (schema root : Json) :
    related (exampleWithin allowance config schema root)
      (exampleWithin allowance config schema root) :=
  hrelated.bind (hrelated.evaluate _) fun scope =>
    hrelated.exampleAt hfail hunfinished config scope allowance 0 schema

end Failures

end Run.Congruence

end Exemplar
