/-!
# Line ends and control sequences

Texts from files and from the terminal may end lines in three ways, which
reading makes one. Output that does not go to a terminal carries no control
sequences.
-/

namespace Exemplar.Text

/-- Turns line ends into line feeds. `done` is what has been written, the last character first; a
line feed right after a carriage return adds nothing. -/
def unifyLinesOnto (done : List Char) (afterReturn : Bool) : List Char → List Char
  | [] => done.reverse
  | c :: rest =>
      if c = '\r' then unifyLinesOnto ('\n' :: done) true rest
      else if c = '\n' ∧ afterReturn then unifyLinesOnto done false rest
      else unifyLinesOnto (c :: done) false rest

/-- A text whose lines end in line feeds, whichever of the three line ends they had. -/
def unifyLines (text : String) : String := String.ofList (unifyLinesOnto [] false text.toList)

/-- The character that starts a control sequence. -/
def escape : Char := '\x1b'

/-- Whether a character continues the held start of a control sequence: a bracket follows the first
character, and parameters follow the bracket. `held` has the last character first. -/
def continuesSequence (held : List Char) (c : Char) : Bool :=
  match held with
  | [] => false
  | [_] => c == '['
  | _ => c == ';' || c == '?' || c.isDigit

/-- Whether a character ends a control sequence, which a letter behind the bracket does. -/
def endsSequence (held : List Char) (c : Char) : Bool := 2 ≤ held.length && c.isAlpha

/-- Leaves control sequences out. What may be the start of one is held back until it is certain. -/
def stripSequencesOnto (done held : List Char) : List Char → List Char
  | [] => (held ++ done).reverse
  | c :: rest =>
      if continuesSequence held c then stripSequencesOnto done (c :: held) rest
      else if endsSequence held c then stripSequencesOnto done [] rest
      else if c = escape then stripSequencesOnto (held ++ done) [c] rest
      else stripSequencesOnto (c :: held ++ done) [] rest

/-- A text without its control sequences. -/
def stripSequences (text : String) : String :=
  String.ofList (stripSequencesOnto [] [] text.toList)

end Exemplar.Text
