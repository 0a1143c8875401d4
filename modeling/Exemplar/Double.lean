/-!
# Binary floating-point numbers

The finite nonnegative numbers of the 64-bit binary format, taken in increasing
order, are numbered from zero; a finite number is a sign and such a rank. Every
magnitude is a whole number of units, one unit being the least positive number,
so that comparison and arithmetic are exact integer computations followed by one
rounding to the nearest rank.
-/

namespace Exemplar

/-- Two to the power 52: the number of ranks between two neighbouring powers of two. -/
def significandSpan : Nat := 4503599627370496

/-- The number of finite magnitudes; the rank that an overflow reaches. -/
def rankBound : Nat := 9218868437227405312

/-- A 64-bit binary floating-point number, with a single NaN. -/
inductive Double where
  | nan
  | infinite (negative : Bool)
  | finite (negative : Bool) (rank : Fin rankBound)
deriving DecidableEq

namespace Double

/-- The binary logarithm of the units that make up one. -/
def unitExponent : Nat := 1074

/-- The units that make up one. -/
def unitsPerOne : Nat := 1 <<< unitExponent

/-- The magnitude at a rank, in units. The first two binades are evenly spaced by one unit
and the spacing doubles with each further binade. -/
def unitsOfRank (rank : Nat) : Nat :=
  if rank < significandSpan then rank
  else (significandSpan + rank % significandSpan) <<< (rank / significandSpan - 1)

/-- The quotient rounded to the nearest integer, a half going to the even neighbour. -/
def roundHalfEven (num den : Nat) : Nat :=
  let quotient := num / den
  let remainder := num % den
  if 2 * remainder < den then quotient
  else if den < 2 * remainder then quotient + 1
  else quotient + quotient % 2

/-- The rank nearest to `num / den` units, a half going to the even rank. The significand has
53 bits unless the magnitude lies in the evenly spaced first binades; a significand that rounds
up to the next power of two carries into the next binade by itself. -/
def nearestRank (num den : Nat) : Nat :=
  if num = 0 then 0
  else
    -- zero throughout the first two binades, where the subtraction stops
    let shift := (num / den).log2 - 52
    shift * significandSpan + roundHalfEven num (den <<< shift)

/-- The number with the given sign and rank, infinite from `rankBound` on. -/
def ofRank (negative : Bool) (rank : Nat) : Double :=
  if h : rank < rankBound then .finite negative ⟨rank, h⟩ else .infinite negative

/-- The number nearest to `num / den` units with the given sign. -/
def nearest (negative : Bool) (num den : Nat) : Double :=
  ofRank negative (nearestRank num den)

def zero : Double := .finite false ⟨0, by decide⟩

def half : Double := nearest false (unitsPerOne / 2) 1

/-- Puts a sign on a magnitude. -/
def withSign (negative : Bool) (magnitude : Nat) : Int :=
  if negative then -(magnitude : Int) else magnitude

/-- The signed value in units of a sign and a rank. -/
def signedUnits (negative : Bool) (rank : Fin rankBound) : Int :=
  withSign negative (unitsOfRank rank)

def neg : Double → Double
  | nan => nan
  | infinite negative => infinite (!negative)
  | finite negative rank => finite (!negative) rank

/-- The rounded sum. An exact zero is negative only where both terms are. -/
def add : Double → Double → Double
  | nan, _ | _, nan => nan
  | infinite negative, infinite negative' =>
      if negative = negative' then infinite negative else nan
  | infinite negative, finite _ _ => infinite negative
  | finite _ _, infinite negative => infinite negative
  | finite negative rank, finite negative' rank' =>
      let total := signedUnits negative rank + signedUnits negative' rank'
      nearest (total < 0 || (total = 0 && negative && negative')) total.natAbs 1

def sub (x y : Double) : Double := x.add y.neg

/-- The rounded product; the sign is the product of the signs, also for a zero. -/
def mul : Double → Double → Double
  | nan, _ | _, nan => nan
  | infinite negative, infinite negative' => infinite (negative != negative')
  | infinite negative, finite negative' rank =>
      if rank.val = 0 then nan else infinite (negative != negative')
  | finite negative rank, infinite negative' =>
      if rank.val = 0 then nan else infinite (negative != negative')
  | finite negative rank, finite negative' rank' =>
      nearest (negative != negative') (unitsOfRank rank * unitsOfRank rank') unitsPerOne

instance : Neg Double := ⟨neg⟩
instance : Add Double := ⟨add⟩
instance : Sub Double := ⟨sub⟩
instance : Mul Double := ⟨mul⟩

/-- The number nearest to an integer, unless it is too large to be finite. -/
def ofInt? (n : Int) : Option Double :=
  match nearest (n < 0) (unitsPerOne * n.natAbs) 1 with
  | finite negative rank => some (finite negative rank)
  | _ => none

/-- The number nearest to `coefficient * 10 ^ exponent`. Powers of ten far beyond either end of
the range are settled without being computed. -/
def ofDecimal (negative : Bool) (coefficient : Nat) (exponent : Int) : Double :=
  if coefficient = 0 then ofRank negative 0
  else if 400 < exponent then infinite negative
  else if exponent < -(400 + (coefficient.log2 : Int)) then ofRank negative 0
  else
    nearest negative (unitsPerOne * (coefficient * Nat.pow 10 exponent.toNat))
      (Nat.pow 10 (-exponent).toNat)

def isZero : Double → Bool
  | finite _ rank => rank.val = 0
  | _ => false

end Double

/-- Where a number lies on the line, exactly: a comparison needs nothing else. -/
inductive Extent where
  | undefined
  | belowAll
  | units (count : Int)
  | aboveAll
deriving DecidableEq

namespace Extent

/-- Strictly less. Nothing is comparable with `undefined`. -/
def lt : Extent → Extent → Bool
  | belowAll, units _ | belowAll, aboveAll | units _, aboveAll => true
  | units a, units b => a < b
  | _, _ => false

/-- Whether two numbers are equal; `undefined` differs from everything, itself included. -/
def same : Extent → Extent → Bool
  | undefined, _ => false
  | a, b => a = b

end Extent

/-- The exact position of a floating-point number. -/
def Double.extent : Double → Extent
  | .nan => .undefined
  | .infinite true => .belowAll
  | .infinite false => .aboveAll
  | .finite negative rank => .units (Double.signedUnits negative rank)

end Exemplar
