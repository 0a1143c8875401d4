import Exemplar.Double
import Exemplar.Fault

/-!
# Numbers

A number is an integer of any size or a floating-point number. Integers among
themselves are computed with exactly; where a floating-point number takes part,
the other operand is rounded to one first, which too large an integer does not
allow. Comparison is always exact.
-/

namespace Exemplar

/-- The greatest integer that is not above a finite number. -/
def Double.floor : Double → Except Fault Int
  | .nan => .error .noSuchValue
  | .infinite _ => .error .tooLarge
  | .finite negative rank => .ok (signedUnits negative rank / unitsPerOne)

/-- An integer or a floating-point number. The two stay apart: `1` is not `1.0`. -/
inductive Number where
  | int (value : Int)
  | float (value : Double)
deriving DecidableEq

namespace Number

def toDouble : Number → Except Fault Double
  | int value =>
      match Double.ofInt? value with
      | some rounded => .ok rounded
      | none => .error .tooLarge
  | float value => .ok value

/-- The sum: exact for integers, otherwise rounded. -/
def add : Number → Number → Except Fault Number
  | int a, int b => .ok (.int (a + b))
  | a, b => do
      let x ← a.toDouble
      let y ← b.toDouble
      return .float (x + y)

/-- The difference: exact for integers, otherwise rounded. -/
def sub : Number → Number → Except Fault Number
  | int a, int b => .ok (.int (a - b))
  | a, b => do
      let x ← a.toDouble
      let y ← b.toDouble
      return .float (x - y)

/-- The product of a floating-point factor and a number. -/
def scale (factor : Double) (number : Number) : Except Fault Double :=
  number.toDouble.map (factor * ·)

/-- The exact position of a number. -/
def extent : Number → Extent
  | int value => .units (value * Double.unitsPerOne)
  | float value => value.extent

/-- Strictly less, compared exactly; false where NaN takes part. -/
def lt (a b : Number) : Bool := a.extent.lt b.extent

def isZero : Number → Bool
  | int value => value = 0
  | float value => value.isZero

end Number

end Exemplar
