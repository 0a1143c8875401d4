import Exemplar.Decimal.Rounding
import Exemplar.Json.Basic
import Exemplar.Text.Classes

/-!
# Decimals in texts

Rounding takes a number also from a text. White space and separators at the ends
and underscores anywhere do not count, digits may be of any script, and the words
for infinity and NaN are known in either case.
-/

namespace Exemplar

/-- What a text says of a number. -/
inductive Literal where
  | finite (decimal : Decimal)
  | infinite
  | nan
deriving DecidableEq

namespace Literal

/-- An exponent: a sign or none, and at least one digit. -/
def exponent? : List Char → Option Int
  | text =>
      let (negative, digits) := match text with
        | '-' :: rest => (true, rest)
        | '+' :: rest => (false, rest)
        | rest => (false, rest)
      if digits.isEmpty || !digits.all Char.isDigit then none
      else
        let value : Int := Nat.ofDigitChars 10 digits 0
        some (if negative then -value else value)

/-- The least exponent that a decimal in a text may have. -/
def leastExponent : Int := -1999999999999999997

/-- The greatest power of ten that the leading digit of a decimal in a text may stand for. -/
def greatestPower : Int := 999999999999999999

/-- Whether a decimal lies in the range that is read; a zero has no leading digit, and its exponent
counts in place of one. -/
def readable (decimal : Decimal) : Bool :=
  let lead := if decimal.coefficient = 0 then 0 else decimal.coefficient.repr.length - 1
  leastExponent ≤ decimal.exponent && decimal.exponent + lead ≤ greatestPower

/-- Digits with at most one point among them and at least one digit, and an optional exponent. -/
def finite? (negative : Bool) (text : List Char) : Option Decimal := do
  let mantissa := text.takeWhile (fun c => c != 'e')
  let exponent ← match text.drop mantissa.length with
    | _ :: rest => exponent? rest
    | [] => some 0
  let whole := mantissa.takeWhile Char.isDigit
  let fraction ← match mantissa.drop whole.length with
    | [] => some []
    | '.' :: rest => if rest.all Char.isDigit then some rest else none
    | _ => none
  let digits := whole ++ fraction
  let decimal : Decimal := ⟨negative, Nat.ofDigitChars 10 digits 0, exponent - fraction.length⟩
  if !digits.isEmpty && readable decimal then some decimal else none

/-- What a text says, if it says a number at all. -/
def ofText? (text : String) : Option Literal :=
  let trimmed := Text.trim Text.isBlank text.toList
  let plain := ((Text.basicDigits trimmed).filter (· != '_')).map Char.toLower
  let (negative, unsigned) := match plain with
    | '-' :: rest => (true, rest)
    | '+' :: rest => (false, rest)
    | rest => (false, rest)
  if unsigned = "inf".toList ∨ unsigned = "infinity".toList then some infinite
  else if "nan".toList.isPrefixOf unsigned && (unsigned.drop 3).all Char.isDigit then some nan
  else (finite? negative unsigned).map finite

end Literal

namespace Json

/-- Rounds a value to a number of places: a number by its shortest decimal, a text by the decimal
that it says. Nothing else can be rounded. -/
def round (value : Json) (places : Json) : Except Fault Double := do
  let places ← places.asInt
  let noRounding := Decimal.placesFor places >>= fun _ => .error .invalidDecimal
  match value with
  | number (.float amount) => amount.round places
  | number (.int amount) => (Decimal.ofInt amount).round places
  | str text =>
      match Literal.ofText? text.shown with
      | some (.finite decimal) => decimal.round places
      | some .nan => Double.nan.round places
      | some .infinite => noRounding
      | none => noRounding
  | _ => noRounding

end Json

end Exemplar
