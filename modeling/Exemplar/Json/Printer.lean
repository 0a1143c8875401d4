import Exemplar.Decimal.Text
import Exemplar.Json.Basic
import Exemplar.Text.Hexadecimal

/-!
# Writing JSON

A value is written on one line or spread over lines with a fixed indentation
per level. Only quotation marks, backslashes and control characters are escaped;
all other characters stand for themselves. Half of a pair is no character: it is
written as its escape, and the text of a value that holds one cannot be encoded.
-/

namespace Exemplar

/-- How a value is spread over lines. -/
inductive Layout where
  | oneLine
  /-- Each level is indented by a unit taken a number of times. -/
  | lines (unit : String) (count : Nat)
deriving DecidableEq

namespace Layout

/-- Whether an integer is one of the signed 64-bit words. -/
def isWord (n : Int) : Bool := -9223372036854775808 ≤ n && n ≤ 9223372036854775807

/-- A number of blanks per level, a negative one counting as zero. Where memory is bounded, there is
a widest indentation. -/
def blanks (widest : Option Nat) (count : Int) : Except Fault Layout :=
  if !isWord count then .error .tooLarge
  else if widest.any (· < count.toNat) then .error .outOfMemory
  else .ok (lines " " count.toNat)

/-- The layout of an indentation: null stands for one line, an integer for a number of blanks and a
text for itself. -/
def ofIndent (widest : Option Nat) : Json → Except Fault Layout
  | .null => .ok oneLine
  | .str unit => .ok (lines unit.shown 1)
  | indent => indent.asInt >>= blanks widest

/-- The start of a new line at a nesting level. -/
def lineBreak : Layout → Nat → String
  | oneLine, _ => ""
  | lines unit count, level =>
      String.ofList ('\n' :: (List.replicate (count * level) unit.toList).flatten)

/-- What stands between two items at a nesting level. -/
def separator : Layout → Nat → String
  | oneLine, _ => ", "
  | lines unit count, level => "," ++ (lines unit count).lineBreak level

end Layout

namespace Json

/-- The words for what has no digits. -/
def numberWords : NumberWords := ⟨"NaN", "Infinity"⟩

/-- How a character stands within a quoted text. -/
def escapeChar (c : Char) : List Char :=
  if c = '"' then ['\\', '"']
  else if c = '\\' then ['\\', '\\']
  else if c = '\n' then ['\\', 'n']
  else if c = '\r' then ['\\', 'r']
  else if c = '\t' then ['\\', 't']
  else if c = '\x08' then ['\\', 'b']
  else if c = '\x0c' then ['\\', 'f']
  else if c.toNat < 32 then '\\' :: 'u' :: Text.hexDigits 4 c.toNat
  else [c]

/-- The characters of a text as they stand between quotation marks. -/
def escaped : Str → List Char
  | .plain text => text.toList.flatMap escapeChar
  | .broken before half after => before.toList.flatMap escapeChar ++ half.shown ++ escaped after

def quote (text : Str) : String := String.ofList ('"' :: escaped text ++ ['"'])

/-- A number, which shows by a point or an exponent that it is no integer. -/
def numberText : Number → String
  | .int value => toString value
  | .float value => value.text numberWords

/-- The items of an array or object between their brackets. -/
def bracketed (layout : Layout) (level : Nat) (opening closing : String)
    (items : List String) : String :=
  if items.isEmpty then opening ++ closing
  else
    opening ++ layout.lineBreak (level + 1)
      ++ String.intercalate (layout.separator (level + 1)) items
      ++ layout.lineBreak level ++ closing

mutual

/-- The text of a value that stands at a nesting level. -/
def print (layout : Layout) (level : Nat) : Json → String
  | null => "null"
  | bool value => if value then "true" else "false"
  | number value => numberText value
  | str text => quote text
  | arr items => bracketed layout level "[" "]" (printItems layout (level + 1) items)
  | obj fields => bracketed layout level "\x7b" "\x7d" (printFields layout (level + 1) fields)

def printItems (layout : Layout) (level : Nat) : List Json → List String
  | [] => []
  | value :: rest => print layout level value :: printItems layout level rest

def printFields (layout : Layout) (level : Nat) : List (Str × Json) → List String
  | [] => []
  | (name, value) :: rest =>
      (quote name ++ ": " ++ print layout level value) :: printFields layout level rest

end

def text (layout : Layout) (value : Json) : String := print layout 0 value

def compact (value : Json) : String := value.text .oneLine

/-- The most digits that an integer may have in a JSON text. -/
def integerDigits : Nat := 4300

mutual

/-- Every integer in the value is short enough to be written. -/
def writable : Json → Bool
  | number (.int value) => value.natAbs.repr.length ≤ integerDigits
  | arr items => writableItems items
  | obj fields => writableFields fields
  | _ => true

/-- `writable` of every value of a list. -/
def writableItems : List Json → Bool
  | [] => true
  | value :: rest => writable value && writableItems rest

/-- `writable` of every value of a list of fields. -/
def writableFields : List (Str × Json) → Bool
  | [] => true
  | (_, value) :: rest => writable value && writableFields rest

end

mutual

/-- No text or name in the value holds half of a pair, so that the text of the value can be
encoded. -/
def isPlain : Json → Bool
  | str text => text.isPlain
  | arr items => isPlainItems items
  | obj fields => isPlainFields fields
  | _ => true

/-- `isPlain` of every value of a list. -/
def isPlainItems : List Json → Bool
  | [] => true
  | value :: rest => isPlain value && isPlainItems rest

/-- `isPlain` of every name and value of a list of fields. -/
def isPlainFields : List (Str × Json) → Bool
  | [] => true
  | (name, value) :: rest => name.isPlain && isPlain value && isPlainFields rest

end

/-- The text of a value with an indentation, provided that its integers are short enough. The
indentation of a value that is a text is not looked at. -/
def render (value indent : Json) (widest : Option Nat := none) : Except Fault String :=
  match value with
  | str text => .ok (quote text)
  | value => do
      let layout ← Layout.ofIndent widest indent
      if value.writable then .ok (value.text layout) else .error .noSuchValue

/-- A value as a text of its own, which ends its last line. -/
def document (value indent : Json) (widest : Option Nat := none) : Except Fault String :=
  (value.render indent widest).map (· ++ "\n")

end Json

end Exemplar
