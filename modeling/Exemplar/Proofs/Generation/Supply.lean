import Exemplar.Proofs.Generation.Congruence

/-!
# Where a run starts

A run looks at its supply from its own place on. So a run from a later place is the
run from the beginning of the supply without the draws before that place, with all
positions counted from there.
-/

namespace Exemplar

namespace Outcome

variable {α : Type}

/-- The outcome with its position counted from further back. -/
def later (count : Nat) : Outcome α → Outcome α
  | .value result position => .value result (count + position)
  | .failure cause position => .failure cause (count + position)
  | .unfinished => .unfinished

end Outcome

namespace Run

/-- From a later place on, a run does what another one does on the supply without the draws before
that place. -/
def Follows {α : Type} (run run' : Run α) : Prop :=
  ∀ draws count position,
    run draws (count + position) = (run' (draws.dropFirst count) position).later count

theorem follows_congruence : Congruence Follows where
  pure _ := fun _ _ _ => rfl
  draw := fun _ _ _ => rfl
  fault _ := fun _ _ _ => rfl
  bind := by
    intro α β first first' next next' hfirst hnext draws count position
    rw [bind_apply, bind_apply, hfirst]
    cases first' (draws.dropFirst count) position with
    | value result middle => exact hnext result draws count middle
    | failure cause middle => rfl
    | unfinished => rfl

end Run

/-- An example from a later place is the example on the supply without the draws before it. -/
theorem exampleWithin_eq_later (allowance : Nat) (config : Config) (schema root : Json)
    (draws : Draws) (count : Nat) :
    exampleWithin allowance config schema root draws count =
      (exampleWithin allowance config schema root (draws.dropFirst count) 0).later count :=
  Run.follows_congruence.exampleWithin (fun _ _ _ _ => rfl) (fun _ _ _ => rfl) allowance config
    schema root draws count 0

end Exemplar
