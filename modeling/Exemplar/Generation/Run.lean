import Exemplar.Draws
import Exemplar.Failure

/-!
# Runs

A run reads draws from a position on and ends with a value or a failure and the
position after the draws that it took; a failed run has taken its draws too. A
run of limited allowance may also end unfinished.
-/

namespace Exemplar

/-- How a run ends. -/
inductive Outcome (α : Type) where
  | value (result : α) (position : Nat)
  | failure (cause : Failure) (position : Nat)
  | unfinished
deriving DecidableEq

/-- A computation that takes draws. -/
def Run (α : Type) : Type := Draws → Nat → Outcome α

namespace Run

variable {α β : Type}

/-- The run that takes nothing and gives a value. -/
def done (result : α) : Run α := fun _ position => .value result position

/-- One run after another, which gets the value and the position of the first. -/
def andThen (first : Run α) (second : α → Run β) : Run β := fun draws position =>
  match first draws position with
  | .value result position => second result draws position
  | .failure cause position => .failure cause position
  | .unfinished => .unfinished

instance : Monad Run where
  pure := done
  bind := andThen

@[simp]
theorem pure_apply (result : α) (draws : Draws) (position : Nat) :
    (pure result : Run α) draws position = .value result position := rfl

theorem bind_apply (first : Run α) (second : α → Run β) (draws : Draws) (position : Nat) :
    (first >>= second) draws position =
      match first draws position with
      | .value result position => second result draws position
      | .failure cause position => .failure cause position
      | .unfinished => .unfinished := rfl

theorem map_apply (f : α → β) (run : Run α) (draws : Draws) (position : Nat) :
    (f <$> run) draws position =
      match run draws position with
      | .value result position => .value (f result) position
      | .failure cause position => .failure cause position
      | .unfinished => .unfinished := rfl

instance : LawfulMonad Run := LawfulMonad.mk' Run
  (fun run => by
    funext draws position
    simp only [map_apply, id_eq]
    cases run draws position <;> rfl)
  (fun _ _ => rfl)
  (fun run _ _ => by
    funext draws position
    simp only [bind_apply]
    cases run draws position <;> rfl)

/-- The next draw. -/
def draw : Run Double := fun draws position => .value (draws position) (position + 1)

/-- The run that fails. -/
def fail (cause : Failure) : Run α := fun _ position => .failure cause position

/-- The run whose allowance is used up. -/
def unfinished : Run α := fun _ _ => .unfinished

/-- A computation that takes no draws and may fail. -/
def attempt : Except Failure α → Run α
  | .ok result => done result
  | .error cause => fail cause

/-- A computation on values that takes no draws. -/
def evaluate : Except Fault α → Run α
  | .ok result => done result
  | .error cause => fail (.fault cause)

/-- The results of a number of runs in order, `made` being those made before, the last one
first. -/
def repeatOnto (run : Run α) : Nat → List α → Run (List α)
  | 0, made => pure made.reverse
  | count + 1, made => do
      let result ← run
      repeatOnto run count (result :: made)

/-- The results of a number of runs in order. -/
def times (run : Run α) (count : Nat) : Run (List α) := repeatOnto run count []

end Run

end Exemplar
