import Exemplar.Decimal.Basic
import Exemplar.Fault

/-!
# Rounding to decimal places

Rounding goes to the nearest multiple of a power of ten, a half going away from
zero, and is done on the decimal that a number is written with. The rounded
coefficient may have up to 28 digits, and powers of ten beyond the range of
decimal arithmetic are refused.
-/

namespace Exemplar.Decimal

/-- The most digits of a rounded coefficient. -/
def precision : Nat := 28

/-- The largest number of places, either way, that is accepted at all. -/
def placesLimit : Nat := 2000054

/-- Places beyond this one count as this one. -/
def leastPlace : Int := 1000026

/-- The largest power of ten that can be rounded to. -/
def greatestPlace : Int := 999999

/-- The integer nearest to `coefficient * 10 ^ shift`, a half going up. -/
def scaleHalfUp (coefficient : Nat) (shift : Int) : Nat :=
  let den := Nat.pow 10 (-shift).toNat
  (2 * (coefficient * Nat.pow 10 shift.toNat) + den) / (2 * den)

/-- The most digits of a coefficient in units of `10 ^ -places`: fewer than the precision where the
leading digit would stand for too large a power of ten. -/
def roomAt (places : Int) : Int := min precision (greatestPlace + 1 + places)

/-- The coefficient of a decimal in units of `10 ^ -places`. The leading digit decides the two
extremes, so that no large power of ten is computed. -/
def coefficientAt (decimal : Decimal) (places : Int) : Except Fault Nat :=
  let shift := decimal.exponent + places
  let width := (decimal.coefficient.repr.length : Int) + shift
  -- below a width of zero even the leading digit lies under one half of a unit
  if decimal.coefficient = 0 ∨ width < 0 then .ok 0
  else if roomAt places < width then .error .invalidDecimal
  else
    let rounded := scaleHalfUp decimal.coefficient shift
    if rounded < Nat.pow 10 (roomAt places).toNat then .ok rounded else .error .invalidDecimal

/-- Whether decimals can be rounded to a number of places, and to which. -/
def placesFor (places : Int) : Except Fault Int :=
  if placesLimit < places.natAbs then .error .invalidDecimal
  else if places < -greatestPlace then .error .decimalOverflow
  else .ok (min places leastPlace)

/-- Rounds a decimal to a number of places and reads the result as a floating-point number. The
sign is kept, also by a result of zero. -/
def round (decimal : Decimal) (places : Int) : Except Fault Double := do
  let places ← placesFor places
  let rounded ← decimal.coefficientAt places
  return Double.ofDecimal decimal.negative rounded (-places)

end Exemplar.Decimal

namespace Exemplar

/-- Rounds a floating-point number by its shortest decimal. NaN stays; an infinity has no
rounded value. -/
def Double.round (number : Double) (places : Int) : Except Fault Double :=
  match number with
  | .nan => (Decimal.placesFor places).map fun _ => .nan
  | .infinite _ => Decimal.placesFor places >>= fun _ => .error .invalidDecimal
  | .finite negative rank => (shortest negative rank).round places

end Exemplar
