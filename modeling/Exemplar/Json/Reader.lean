import Exemplar.Decimal.Basic
import Exemplar.Json.Basic

/-!
# Reading JSON

A text is read from left to right; the first thing that cannot be read is
reported with its place. Beyond the strict format the words `NaN`, `Infinity`
and `-Infinity` are numbers. An integer of more than 4300 digits is refused.

Inside the reader a place is the rest of the text from there on, so that no step
has to count. The recursion is bounded by an allowance of two steps per
character, which no text can use up.
-/

namespace Exemplar.Json

/-- What is wrong with a text that is no JSON. -/
inductive Reason where
  | expectedValue
  | expectedName
  | expectedColon
  | expectedComma
  | unterminatedString
  | controlCharacter
  | badEscape
  | badUnicodeEscape
  | extraData
  | byteOrderMark
deriving DecidableEq

def Reason.text : Reason → String
  | expectedValue => "Expecting value"
  | expectedName => "Expecting property name enclosed in double quotes"
  | expectedColon => "Expecting ':' delimiter"
  | expectedComma => "Expecting ',' delimiter"
  | unterminatedString => "Unterminated string starting at"
  | controlCharacter => "Invalid control character at"
  | badEscape => "Invalid \\escape"
  | badUnicodeEscape => "Invalid \\uXXXX escape"
  | extraData => "Extra data"
  | byteOrderMark => "Unexpected UTF-8 BOM (decode using utf-8-sig)"

/-- Where and why a text stops being JSON. Lines and columns count from one and characters from
zero; lines end at line feeds only. -/
structure Malformed where
  reason : Reason
  line : Nat
  column : Nat
  offset : Nat
deriving DecidableEq

/-- The place of an offset in a text. -/
def Malformed.at (reason : Reason) (text : List Char) (offset : Nat) : Malformed :=
  let before := text.take offset
  ⟨reason, before.count '\n' + 1, (before.reverse.takeWhile (· != '\n')).length + 1, offset⟩

def Malformed.message (problem : Malformed) : String :=
  problem.reason.text ++ ": line " ++ toString problem.line ++ " column "
    ++ toString problem.column ++ " (char " ++ toString problem.offset ++ ")"

/-- Why a text has no value. -/
inductive ReadError where
  | malformed (problem : Malformed)
  | integerTooLong
deriving DecidableEq

/-- Why reading stops, the place being the rest of the text. -/
inductive Stop where
  | malformed (reason : Reason) (rest : List Char)
  | integerTooLong

/-- The longest integer, in digits, that is read. -/
def longestInteger : Nat := 4300

/-- Blanks between the parts of a text. -/
def isBlank (c : Char) : Bool := c == ' ' || c == '\t' || c == '\n' || c == '\r'

/-- The text from the next character on that is no blank. -/
def skipBlanks (text : List Char) : List Char := text.dropWhile isBlank

/-- The digits before the point: a lone zero, or digits that start with another one. -/
def wholeDigits : List Char → List Char
  | '0' :: _ => ['0']
  | text => text.takeWhile Char.isDigit

/-- The digits after a point, none if the text does not start with a point and a digit. -/
def fractionDigits : List Char → List Char
  | '.' :: text => text.takeWhile Char.isDigit
  | _ => []

def digitsValue (digits : List Char) : Nat := Nat.ofDigitChars 10 digits 0

/-- The digits of an exponent and what follows them. -/
def exponentDigits (negative : Bool) (text : List Char) : Option (Int × List Char) :=
  let digits := text.takeWhile Char.isDigit
  if digits.isEmpty then none
  else some (if negative then -(digitsValue digits : Int) else digitsValue digits,
    text.drop digits.length)

/-- An exponent with its mark and optional sign, if the text starts with one. -/
def exponent? : List Char → Option (Int × List Char)
  | mark :: text =>
      if mark = 'e' ∨ mark = 'E' then
        match text with
        | '-' :: rest => exponentDigits true rest
        | '+' :: rest => exponentDigits false rest
        | rest => exponentDigits false rest
      else none
  | [] => none

/-- Reads a number whose sign has been read; `start` is the text from the sign on. -/
def readUnsigned (start : List Char) (negative : Bool) (text : List Char) :
    Except Stop (Number × List Char) :=
  let whole := wholeDigits text
  if whole.isEmpty then .error (.malformed .expectedValue start)
  else
    let afterWhole := text.drop whole.length
    let fraction := fractionDigits afterWhole
    let afterFraction :=
      if fraction.isEmpty then afterWhole else afterWhole.drop (fraction.length + 1)
    let decimal (exponent : Int) : Number := .float
      (Decimal.mk negative (digitsValue (whole ++ fraction)) (exponent - fraction.length)).toDouble
    match exponent? afterFraction with
    | some (exponent, rest) => .ok (decimal exponent, rest)
    | none =>
        if !fraction.isEmpty then .ok (decimal 0, afterFraction)
        else if longestInteger < whole.length then .error .integerTooLong
        else .ok (.int (Double.withSign negative (digitsValue whole)), afterFraction)

/-- The words that stand for a value. -/
def words : List (List Char × Json) :=
  [("null".toList, null), ("true".toList, bool true), ("false".toList, bool false),
    ("NaN".toList, float .nan), ("Infinity".toList, float (.infinite false)),
    ("-Infinity".toList, float (.infinite true))]

def readScalar (text : List Char) : Except Stop (Json × List Char) :=
  match words.find? (fun word => word.1.isPrefixOf text) with
  | some (word, value) => .ok (value, text.drop word.length)
  | none =>
      let read := match text with
        | '-' :: rest => readUnsigned text true rest
        | _ => readUnsigned text false text
      read.map fun (value, rest) => (number value, rest)

/-- The value of a hexadecimal digit of either case. -/
def hexValue? (c : Char) : Option Nat :=
  let code := c.toNat
  if 48 ≤ code ∧ code ≤ 57 then some (code - 48)
  else if 97 ≤ code ∧ code ≤ 102 then some (code - 87)
  else if 65 ≤ code ∧ code ≤ 70 then some (code - 55)
  else none

/-- The value of four hexadecimal digits. -/
def hexCode? (a b c d : Char) : Option Nat :=
  match hexValue? a, hexValue? b, hexValue? c, hexValue? d with
  | some a, some b, some c, some d => some (((a * 16 + b) * 16 + c) * 16 + d)
  | _, _, _, _ => none

/-- The character that a letter stands for behind a backslash. -/
def unescape? (c : Char) : Option Char :=
  if c = '"' then some '"'
  else if c = '\\' then some '\\'
  else if c = '/' then some '/'
  else if c = 'b' then some '\x08'
  else if c = 'f' then some '\x0c'
  else if c = 'n' then some '\n'
  else if c = 'r' then some '\r'
  else if c = 't' then some '\t'
  else none

/-- The first half of a pair that encodes a character beyond the 16-bit codes. -/
def isHighHalf (code : Nat) : Bool := 0xD800 ≤ code && code ≤ 0xDBFF

/-- The second half of such a pair. -/
def isLowHalf (code : Nat) : Bool := 0xDC00 ≤ code && code ≤ 0xDFFF

/-- The half that a code stands for, if it is no character. -/
def half? (code : Nat) : Option Half :=
  if isHighHalf code || isLowHalf code then some (Fin.ofNat _ (code - 0xD800)) else none

/-- The character that a pair of halves encodes. -/
def charOfPair (high low : Nat) : Char :=
  Char.ofNat (0x10000 + (high - 0xD800) * 0x400 + (low - 0xDC00))

/-- Looks behind an escape of the given code for the second half of a pair: `\\u` and four
hexadecimal digits with at least one more character after them. Gives the character of the pair
if there is one. -/
def pairedChar? (code : Nat) : List Char → Except Stop (Option Char)
  | '\\' :: 'u' :: a :: b :: c :: d :: rest =>
      if !isHighHalf code || rest.isEmpty then .ok none
      else
        match hexCode? a b c d with
        | none => .error (.malformed .badUnicodeEscape ('u' :: a :: b :: c :: d :: rest))
        | some low => .ok (if isLowHalf low then some (charOfPair code low) else none)
  | _ => .ok none

/-- Reads a text up to its closing quotation mark. `start` is the text from the opening one on and
`read` holds the characters read since the last half that stands alone, the last one first. A
four-digit escape is recognised only if at least one more character follows it. -/
def readString (start : List Char) : List Char → List Char → Except Stop (Str × List Char)
  | [], _ => .error (.malformed .unterminatedString start)
  | '"' :: rest, read => .ok (String.ofList read.reverse, rest)
  | '\\' :: rest, read =>
      match rest with
      | [] => .error (.malformed .unterminatedString start)
      | 'u' :: digits =>
          match digits with
          | a :: b :: c :: d :: rest =>
              match rest.isEmpty, hexCode? a b c d with
              -- there is something behind the digits, as there has to be
              | false, some code =>
                  match pairedChar? code rest with
                  | .error stop => .error stop
                  | .ok none =>
                      match half? code with
                      | none => readString start rest (Char.ofNat code :: read)
                      | some half =>
                          (readString start rest []).map fun (after, rest) =>
                            (.broken (String.ofList read.reverse) half after, rest)
                  | .ok (some paired) =>
                      match rest with
                      | _ :: _ :: _ :: _ :: _ :: _ :: rest => readString start rest (paired :: read)
                      | _ => .error (.malformed .unterminatedString start)
              | _, _ => .error (.malformed .badUnicodeEscape ('u' :: digits))
          | _ => .error (.malformed .badUnicodeEscape ('u' :: digits))
      | letter :: rest' =>
          match unescape? letter with
          | some c => readString start rest' (c :: read)
          | none => .error (.malformed .badEscape ('\\' :: rest))
  | c :: rest, read =>
      if c.toNat < 32 then .error (.malformed .controlCharacter (c :: rest))
      else readString start rest (c :: read)

mutual

/-- Reads a value at the start of a text. -/
def readValue : Nat → List Char → Except Stop (Json × List Char)
  | 0, text => .error (.malformed .expectedValue text)
  | _ + 1, '"' :: rest =>
      (readString ('"' :: rest) rest []).map fun (text, rest) => (str text, rest)
  | allowance + 1, '[' :: rest =>
      match skipBlanks rest with
      | ']' :: rest => .ok (arr [], rest)
      | rest => readItems allowance rest []
  | allowance + 1, '\x7b' :: rest =>
      match skipBlanks rest with
      | '\x7d' :: rest => .ok (obj [], rest)
      | rest => readFields allowance rest []
  | _ + 1, text => readScalar text

/-- Reads the values of an array up to its closing bracket; `read` holds those read so far, the
last one first. -/
def readItems : Nat → List Char → List Json → Except Stop (Json × List Char)
  | 0, text, _ => .error (.malformed .expectedValue text)
  | allowance + 1, text, read =>
      match readValue allowance text with
      | .error stop => .error stop
      | .ok (value, rest) =>
          match skipBlanks rest with
          | ']' :: rest => .ok (arr (value :: read).reverse, rest)
          | ',' :: rest => readItems allowance (skipBlanks rest) (value :: read)
          | rest => .error (.malformed .expectedComma rest)

/-- Reads the fields of an object up to its closing brace; `read` holds those read so far, the
last one first. -/
def readFields : Nat → List Char → List (Str × Json) → Except Stop (Json × List Char)
  | 0, text, _ => .error (.malformed .expectedName text)
  | allowance + 1, '"' :: text, read =>
      match readString ('"' :: text) text [] with
      | .error stop => .error stop
      | .ok (name, rest) =>
          match skipBlanks rest with
          | ':' :: rest =>
              match readValue allowance (skipBlanks rest) with
              | .error stop => .error stop
              | .ok (value, rest) =>
                  match skipBlanks rest with
                  | '\x7d' :: rest =>
                      .ok (obj (Fields.ofPairs ((name, value) :: read).reverse), rest)
                  | ',' :: rest => readFields allowance (skipBlanks rest) ((name, value) :: read)
                  | rest => .error (.malformed .expectedComma rest)
          | rest => .error (.malformed .expectedColon rest)
  | _ + 1, text, _ => .error (.malformed .expectedName text)

end

/-- Reads a text that holds one value and blanks around it. -/
def readWhole (text : List Char) : Except Stop Json :=
  match text with
  | '\uFEFF' :: _ => .error (.malformed .byteOrderMark text)
  | _ =>
      match readValue (2 * text.length + 2) (skipBlanks text) with
      | .error stop => .error stop
      | .ok (value, rest) =>
          match skipBlanks rest with
          | [] => .ok value
          | rest => .error (.malformed .extraData rest)

/-- The value of a JSON text. -/
def read (text : String) : Except ReadError Json :=
  match readWhole text.toList with
  | .ok value => .ok value
  | .error .integerTooLong => .error .integerTooLong
  | .error (.malformed reason rest) =>
      .error (.malformed (.at reason text.toList (text.toList.length - rest.length)))

end Exemplar.Json
