import Exemplar.Double

/-!
# Draws

Generation takes its random choices from an endless supply of draws, which is
read one after another. The supply is a function of the position, so that what
a run takes is fully described by where it starts and how many draws it takes.
-/

namespace Exemplar

/-- An endless supply of draws. -/
abbrev Draws := Nat → Double

namespace Draws

def constant (draw : Double) : Draws := fun _ => draw

/-- The draws of a list over and over again. -/
def cycle (list : List Double) : Draws :=
  let cells := list.toArray
  fun position => cells.getD (position % cells.size) .zero

/-- The supply without its first draws. -/
def dropFirst (draws : Draws) (count : Nat) : Draws := fun position => draws (count + position)

/-- A step `state ↦ multiplier * state + increment` on 32-bit words. -/
structure WordStep where
  multiplier : UInt32
  increment : UInt32
deriving DecidableEq

namespace WordStep

def next (step : WordStep) (state : UInt32) : UInt32 := step.multiplier * state + step.increment

def andThen (first second : WordStep) : WordStep :=
  ⟨second.multiplier * first.multiplier, second.next first.increment⟩

/-- A step taken a number of times, by doubling. -/
def times (step : WordStep) (count : Nat) : WordStep :=
  if count = 0 then ⟨1, 0⟩
  else
    let half := (step.andThen step).times (count / 2)
    if count % 2 = 1 then step.andThen half else half
termination_by count
decreasing_by omega

end WordStep

/-- The step of the pseudorandom sequence. -/
def sequenceStep : WordStep := ⟨1664525, 1013904223⟩

/-- A 32-bit word as a fraction of all words. -/
def ofWord (word : UInt32) : Double :=
  .nearest false (word.toNat * (Double.unitsPerOne >>> 32)) 1

/-- The pseudorandom sequence of a seed. Its first draw is one step away from the seed. -/
def ofSeed (seed : UInt32) : Draws := fun position =>
  ofWord ((sequenceStep.times (position + 1)).next seed)

end Draws

end Exemplar
