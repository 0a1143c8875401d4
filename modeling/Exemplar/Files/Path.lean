import Exemplar.Text.Classes

/-!
# Paths

A place is where something stands: the names from the top of all directories
down. A path is a way to a place as it is written: it may start anywhere, go up
again, and pass through directories that do not exist.
-/

namespace Exemplar

/-- The names from the top down. -/
abbrev Place := List String

namespace Place

def text (place : Place) : String := "/" ++ String.intercalate "/" place

end Place

/-- The names of a way, which starts at the top if the first name is that of the top. -/
abbrev Path := List String

namespace Path

def top : String := "/"

/-- Whether a name is that of the top, which may also be written with two separators. -/
def isTop (name : String) : Bool := name = top || name = "//"

def up : String := ".."

/-- Whether a name only leads to a directory that has another name, or none. -/
def leadsAway (name : String) : Bool := isTop name || name = up

/-- The path of a written text. Repeated separators and the name of the same directory do not count;
the name of the directory above is kept, and so are just two separators at the start. -/
def ofText (text : String) : Path :=
  let names := ((Text.split '/' text.toList).map String.ofList).filter fun name =>
    name != "" && name != "."
  match (text.toList.takeWhile (· = '/')).length with
  | 0 => names
  | 2 => "//" :: names
  | _ => top :: names

def ofPlace (place : Place) : Path := top :: place

/-- The text of a path; no names stand for the same directory. -/
def text (path : Path) : String :=
  match path with
  | [] => "."
  | first :: rest =>
      if isTop first then first ++ String.intercalate "/" rest
      else String.intercalate "/" (first :: rest)

/-- The place that one name leads to from a place, going up by cutting the last name off. -/
def enter (place : Place) (name : String) : Place :=
  if isTop name then []
  else if name = up then place.dropLast
  else place ++ [name]

/-- The place that a path leads to from a start, found from the names alone. -/
def settle (start : Place) (path : Path) : Place := path.foldl enter start

/-- The same way from the top on, found from the names alone, so that what a path goes up from need
not be there. -/
def absolute (home : Place) : Path → Path
  | [] => ofPlace home
  | first :: rest =>
      if isTop first then first :: settle [] rest else ofPlace (settle home (first :: rest))

/-- Whether a written text asks for a directory by the way it ends. -/
def asksDirectory (text : String) : Bool :=
  match (Text.split '/' text.toList).getLast? with
  | some last => last = [] || last = ['.']
  | none => true

def longestName : Nat := 255

def longestText : Nat := 4095

/-- Whether a path holds the null character, with which no path can be looked up. -/
def holdsNull (path : Path) : Bool := path.any fun name => name.toList.contains '\x00'

end Path

end Exemplar
