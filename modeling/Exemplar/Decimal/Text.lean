import Exemplar.Decimal.Basic

/-!
# Number texts

Integers are written in full. A floating-point number is written with its
shortest decimal: positionally while the leading digit stands for at least
`10 ^ -4` and for less than `10 ^ 16`, otherwise with an exponent. A text always
shows a point or an exponent, so that it never reads as an integer.
-/

namespace Exemplar

/-- The words that a format uses for what has no digits. -/
structure NumberWords where
  nan : String
  infinity : String

namespace Decimal

def digits (n : Nat) : List Char := n.repr.toList

def zeros (count : Nat) : List Char := List.replicate count '0'

/-- Digits with the point after the first `point` of them; zeros fill the gap on either side. -/
def positional (digits : List Char) (point : Int) : List Char :=
  if point ≤ 0 then ['0', '.'] ++ zeros (-point).toNat ++ digits
  else if (digits.length : Int) ≤ point then
    digits ++ zeros (point - digits.length).toNat ++ ['.', '0']
  else digits.take point.toNat ++ ['.'] ++ digits.drop point.toNat

/-- An exponent is written with its sign and at least two digits. -/
def exponentText (exponent : Int) : List Char :=
  let shown := digits exponent.natAbs
  ['e', if exponent < 0 then '-' else '+'] ++ zeros (2 - shown.length) ++ shown

/-- Digits with the point after the first of them, followed by an exponent. -/
def scientific (digits : List Char) (exponent : Int) : List Char :=
  digits.take 1 ++ (if digits.length ≤ 1 then [] else '.' :: digits.drop 1)
    ++ exponentText exponent

def chars (decimal : Decimal) : List Char :=
  let shown := digits decimal.coefficient
  let point := shown.length + decimal.exponent
  (if decimal.negative then ['-'] else [])
    ++ (if -4 < point ∧ point ≤ 16 then positional shown point
        else scientific shown (point - 1))

end Decimal

def Double.text (words : NumberWords) : Double → String
  | .nan => words.nan
  | .infinite negative => (if negative then "-" else "") ++ words.infinity
  | .finite negative rank => String.ofList (shortest negative rank).chars

end Exemplar
