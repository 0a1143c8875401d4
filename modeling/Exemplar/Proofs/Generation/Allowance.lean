import Exemplar.Proofs.Generation.Congruence
import Exemplar.Proofs.Schema.Lookup

/-!
# Allowances

The allowance of nested schemas only decides whether a run ends. A larger one
gives the outcome of a smaller one that was enough, so that an outcome belongs to
the schema, the scope and the draws alone.
-/

namespace Exemplar

open Run

namespace Run

/-- A run gives the outcome of another one wherever that ends. -/
def Extends {α : Type} (short long : Run α) : Prop :=
  ∀ draws position, short draws position ≠ .unfinished →
    long draws position = short draws position

theorem extends_congruence : Congruence Extends where
  pure _ := fun _ _ _ => rfl
  draw := fun _ _ _ => rfl
  fault _ := fun _ _ _ => rfl
  bind := by
    intro α β first first' next next' hfirst hnext draws position hends
    rw [bind_apply] at hends ⊢
    rw [bind_apply]
    have hfirst := hfirst draws position
    cases hcase : first draws position with
    | value result middle =>
        rw [hcase] at hends hfirst
        rw [hfirst (by simp)]
        exact hnext result draws middle hends
    | failure cause middle =>
        rw [hcase] at hfirst
        rw [hfirst (by simp)]
    | unfinished => simp [hcase] at hends

end Run

/-- More allowance gives the outcome of less allowance that was enough. -/
theorem exampleAt_extends (config : Config) (scope : Scope) {allowance allowance' : Nat}
    (hle : allowance ≤ allowance') (depth : Nat) (schema : Json) :
    (exampleAt config scope allowance depth schema).Extends
      (exampleAt config scope allowance' depth schema) := by
  induction allowance generalizing allowance' depth schema with
  | zero => exact fun _ _ hends => absurd rfl hends
  | succ allowance ih =>
      cases allowance' with
      | zero => exact absurd hle (Nat.not_succ_le_zero _)
      | succ allowance' =>
          refine extends_congruence.bind (fun _ _ _ => rfl) ?_
          intro _
          apply extends_congruence.bind (extends_congruence.attempt (fun _ _ _ _ => rfl) _)
          intro shape
          exact extends_congruence.expand config
            (ih (Nat.le_of_succ_le_succ hle) (depth + 1)) shape

theorem exampleWithin_of_scope {root : Json} {scope : Scope}
    (hscope : Scope.ofRoot root = .ok scope)
    (allowance : Nat) (config : Config) (schema : Json) :
    exampleWithin allowance config schema root = exampleAt config scope allowance 0 schema := by
  rw [exampleWithin, hscope]
  rfl

/-- Two roots of which both have a scope or neither has give the same run if their scopes do. -/
theorem exampleWithin_eq_of_scopes {schema schema' root root' : Json}
    (hidentifiable : Definition.Identifiable root ↔ Definition.Identifiable root')
    (allowance : Nat) (config : Config) (draws : Draws) (position : Nat)
    (hruns : ∀ scope scope', Scope.ofRoot root = .ok scope → Scope.ofRoot root' = .ok scope' →
      exampleAt config scope allowance 0 schema draws position =
        exampleAt config scope' allowance 0 schema' draws position) :
    exampleWithin allowance config schema root draws position =
      exampleWithin allowance config schema' root' draws position := by
  have halike := Scope.ofRoot_alike hidentifiable
  rw [exampleWithin, exampleWithin]
  generalize Scope.ofRoot root = result at halike hruns ⊢
  generalize Scope.ofRoot root' = result' at halike hruns ⊢
  cases halike with
  | ok hscopes => exact hruns _ _ hscopes.1 hscopes.2
  | error cause => rfl

theorem exampleWithin_extends {allowance allowance' : Nat} (hle : allowance ≤ allowance')
    (config : Config) (schema root : Json) :
    (exampleWithin allowance config schema root).Extends
      (exampleWithin allowance' config schema root) :=
  extends_congruence.bind (extends_congruence.evaluate _) fun scope =>
    exampleAt_extends config scope hle 0 schema

/-- Making an example ends with an outcome under every allowance that is large enough. -/
def Ends (config : Config) (schema root : Json) (draws : Draws) (position : Nat)
    (outcome : Outcome Json) : Prop :=
  outcome ≠ .unfinished ∧ ∃ enough, ∀ allowance ≥ enough,
    exampleWithin allowance config schema root draws position = outcome

theorem ends_of_exampleWithin {config : Config} {schema root : Json} {draws : Draws}
    {position allowance : Nat} {outcome : Outcome Json} (hne : outcome ≠ .unfinished)
    (hrun : exampleWithin allowance config schema root draws position = outcome) :
    Ends config schema root draws position outcome := by
  refine ⟨hne, allowance, ?_⟩
  intro allowance' hle
  subst hrun
  exact exampleWithin_extends hle config schema root draws position hne

theorem Ends.unique {config : Config} {schema root : Json} {draws : Draws} {position : Nat}
    {outcome outcome' : Outcome Json} (hends : Ends config schema root draws position outcome)
    (hends' : Ends config schema root draws position outcome') : outcome = outcome' := by
  obtain ⟨-, enough, hrun⟩ := hends
  obtain ⟨-, enough', hrun'⟩ := hends'
  rw [← hrun _ (Nat.le_max_left enough enough'), hrun' _ (Nat.le_max_right enough enough')]

end Exemplar
