import Exemplar.Text.Hexadecimal

/-!
# Strings

Two halves of a pair encode a character beyond the 16-bit codes. A half that
stands alone is no character, but a string may hold it all the same. Such a
string cannot be encoded: it is neither shown as it is nor written to a file.
-/

namespace Exemplar

/-- Half of a pair, counted from the first of the codes that are halves. -/
abbrev Half := Fin 0x800

def Half.code (half : Half) : Nat := 0xD800 + half.val

/-- How a half is shown: by its code, since it is no character. -/
def Half.shown (half : Half) : List Char := '\\' :: 'u' :: Text.hexDigits 4 half.code

/-- A sequence of characters and of halves that stand alone. -/
inductive Str where
  /-- Characters only. -/
  | plain (text : String)
  /-- The characters before the first half, the half and what follows it. -/
  | broken (before : String) (half : Half) (after : Str)
deriving DecidableEq

namespace Str

instance : Coe String Str := ⟨plain⟩

instance : Inhabited Str := ⟨plain ""⟩

/-- Whether a string holds characters only, so that it can be encoded. -/
def isPlain : Str → Bool
  | plain _ => true
  | broken .. => false

/-- A string as it is shown, each half by its code. -/
def shown : Str → String
  | plain text => text
  | broken before half after => before ++ String.ofList half.shown ++ after.shown

/-- Where characters are asked for, a string stands for what is shown of it. -/
instance : Coe Str String := ⟨shown⟩

/-- One string after another. -/
def append : Str → Str → Str
  | plain text, plain text' => plain (text ++ text')
  | plain text, broken before half after => broken (text ++ before) half after
  | broken before half after, other => broken before half (after.append other)

instance : Append Str := ⟨append⟩

/-- The parts of a string that cannot be divided, each as a string of its own. -/
def letters : Str → List Str
  | plain text => text.toList.map fun c => plain (String.singleton c)
  | broken before half after =>
      before.toList.map (fun c => plain (String.singleton c)) ++ broken "" half "" :: after.letters

@[simp]
theorem isPlain_plain (text : String) : (plain text).isPlain = true := rfl

@[simp]
theorem shown_plain (text : String) : (plain text).shown = text := rfl

end Str

end Exemplar
