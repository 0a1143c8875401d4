import Exemplar.Double

/-!
# Decimal numbers

A decimal is a sign, a coefficient and a power of ten. Every finite
floating-point number has a shortest one: among the decimals that round to the
number, those of fewest digits are considered, and of them the nearest.
-/

namespace Exemplar

/-- The number `coefficient * 10 ^ exponent` with a sign, which a zero keeps. -/
structure Decimal where
  negative : Bool
  coefficient : Nat
  exponent : Int
deriving DecidableEq

namespace Decimal

/-- The floating-point number nearest to a decimal. -/
def toDouble (decimal : Decimal) : Double :=
  Double.ofDecimal decimal.negative decimal.coefficient decimal.exponent

def ofInt (n : Int) : Decimal := ⟨n < 0, n.natAbs, 0⟩

/-- Moves the zeros at the end of a coefficient into the exponent. -/
def trimZeros (coefficient : Nat) (exponent : Int) : Nat × Int :=
  if coefficient = 0 ∨ coefficient % 10 ≠ 0 then (coefficient, exponent)
  else trimZeros (coefficient / 10) (exponent + 1)
termination_by coefficient
decreasing_by omega

end Decimal

namespace Double

/-- The multiples of `10 ^ grid` next to a magnitude in units: the nearer one, an even one at a
tie, and then the one on the other side. -/
def gridNeighbours (units : Nat) (grid : Int) : Nat × Nat :=
  let num := units * Nat.pow 10 (-grid).toNat
  let den := unitsPerOne * Nat.pow 10 grid.toNat
  let near := roundHalfEven num den
  (near, 2 * (num / den) + 1 - near)

/-- Whether a decimal rounds to the magnitude of a given rank. -/
def readsBack (rank coefficient : Nat) (exponent : Int) : Bool :=
  ofDecimal false coefficient exponent = ofRank false rank

/-- The multiple of `10 ^ grid` that rounds to a rank, the nearer one if there are two. -/
def onGrid? (rank : Nat) (grid : Int) : Option (Nat × Int) :=
  let (near, far) := gridNeighbours (unitsOfRank rank) grid
  if readsBack rank near grid then some (near, grid)
  else if readsBack rank far grid then some (far, grid)
  else none

/-- Whether a magnitude in units lies below `10 ^ scale`. -/
def belowPower (units : Nat) (scale : Int) : Bool :=
  units * Nat.pow 10 (-scale).toNat < unitsPerOne * Nat.pow 10 scale.toNat

/-- The least scale such that a positive magnitude lies below `10 ^ scale`. The binary logarithm
gives it up to two steps. -/
def decimalScale (units : Nat) : Int :=
  let estimate := (((units.log2 : Int) - unitExponent) * 1233) / 4096
  if belowPower units estimate then estimate
  else if belowPower units (estimate + 1) then estimate + 1
  else estimate + 2

/-- The shortest decimal of a positive rank, as coefficient and exponent. Grids are tried from one
digit on; seventeen digits always suffice, and the exact value closes the list. -/
def shortestMagnitude (rank : Nat) : Nat × Int :=
  let units := unitsOfRank rank
  let scale := decimalScale units
  let found := (List.range 17).findSome? fun (digits : Nat) => onGrid? rank (scale - 1 - digits)
  let chosen := found.getD (Nat.pow 5 unitExponent * units, -unitExponent)
  Decimal.trimZeros chosen.1 chosen.2

/-- The decimal of fewest digits that rounds to a finite number, and of those the nearest. -/
def shortest (negative : Bool) (rank : Fin rankBound) : Decimal :=
  if rank.val = 0 then ⟨negative, 0, 0⟩
  else
    let (coefficient, exponent) := shortestMagnitude rank
    ⟨negative, coefficient, exponent⟩

end Double

end Exemplar
