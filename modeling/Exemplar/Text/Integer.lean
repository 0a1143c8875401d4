import Exemplar.Text.Classes

/-!
# Integers in texts

The form in which a person writes an integer: white space at the ends, an optional
sign, and digits of any script, which single underscores may group.
-/

namespace Exemplar.Text

/-- The most digits of an integer that is read. -/
def mostDigits : Nat := 4300

/-- The digits of groups that underscores separate; every group has at least one digit. -/
def groupedDigits (text : List Char) : Option (List Nat) :=
  let groups := split '_' text
  if groups.any List.isEmpty then none else groups.flatten.mapM digit?

/-- The natural number of digits, the first one most significant. -/
def natOfDigits (digits : List Nat) : Nat := digits.foldl (fun value digit => 10 * value + digit) 0

/-- The integer that a text stands for. -/
def integer? (text : String) : Option Int := do
  let (negative, digits) := match trim isWhite text.toList with
    | '-' :: rest => (true, rest)
    | '+' :: rest => (false, rest)
    | rest => (false, rest)
  let digits ← groupedDigits digits
  if mostDigits < digits.length then none
  else
    let value : Int := natOfDigits digits
    return if negative then -value else value

end Exemplar.Text
