import Exemplar.Text.Hexadecimal
import Exemplar.Text.Printable

/-!
# Quoted names

The name of a file is quoted in messages of the file system. The quotation marks
are chosen so that few characters of the name need a backslash, and characters
that do not show are written by their codes.
-/

namespace Exemplar.Text

/-- How a character stands in a quoted name between the given marks. -/
def escapeName (mark c : Char) : List Char :=
  if c = mark ∨ c = '\\' then ['\\', c]
  else if c = '\n' then ['\\', 'n']
  else if c = '\r' then ['\\', 'r']
  else if c = '\t' then ['\\', 't']
  else if isPrintable c then [c]
  else if c.toNat < 0x100 then '\\' :: 'x' :: hexDigits 2 c.toNat
  else if c.toNat < 0x10000 then '\\' :: 'u' :: hexDigits 4 c.toNat
  else '\\' :: 'U' :: hexDigits 8 c.toNat

/-- A name in quotation marks: single ones, unless the name holds those and no double ones. -/
def quoteName (name : String) : String :=
  let mark := if name.toList.contains '\'' && !name.toList.contains '"' then '"' else '\''
  String.ofList (mark :: name.toList.flatMap (escapeName mark) ++ [mark])

end Exemplar.Text
