import Exemplar.Files.Tree
import Exemplar.Json.Reader

/-!
# Writing a file at once

A file is never seen half written. Its content is first written piece by piece
to a temporary file beside it; then the content is checked, and only then does
the temporary file take the place of the target. When anything goes wrong the
temporary file is removed and the target stays as it was.

A write is a sequence of single steps on the file tree, so that it can be
stopped, or mixed with other writes, between any two of them.
-/

namespace Exemplar

inductive WriteError where
  /-- The file system refuses an operation, as a rule on a given path. -/
  | file (error : FileError) (path : Path)
  /-- The content was to be JSON and is not. -/
  | malformed (problem : Json.Malformed)
  /-- The content holds an integer that is too long to be read. -/
  | integerTooLong
  /-- The content did not pass a check of the caller's. -/
  | rejected
  /-- The content holds what has no encoding. -/
  | unencodable
  /-- The content cannot be stored, for a reason to which the system gives a number. -/
  | notStored (reason : Int)
  /-- All names for a temporary file are in use. -/
  | noFreeName
  /-- The target exists and may not be replaced. -/
  | targetExists (path : Path)
  /-- There is no such mode of writing. -/
  | unknownMode
deriving DecidableEq

/-- The wording for a target that exists, with the target's path as it is shown. -/
def WriteError.targetExistsText (shown : String) : String :=
  "Output file already exists: " ++ shown ++ ". Use --force to overwrite."

def WriteError.message? : WriteError → Option String
  | malformed problem => some ("Generated JSON is not valid: " ++ problem.message)
  | rejected => some "rejected"
  | targetExists path => some (targetExistsText path.text)
  | _ => none

/-- What decides whether a content may be written. -/
abbrev ContentCheck := String → Except WriteError Unit

namespace ContentCheck

/-- Accepts what can be read as JSON. -/
def json : ContentCheck := fun content =>
  match Json.read content with
  | .ok _ => .ok ()
  | .error (.malformed problem) => .error (.malformed problem)
  | .error .integerTooLong => .error .integerTooLong

def none : ContentCheck := fun _ => .ok ()

def refuse : ContentCheck := fun _ => .error .rejected

end ContentCheck

/-- A content to be written to a target in pieces, and what decides whether it may stay. -/
structure Write where
  target : Path
  pieces : List String
  check : ContentCheck

namespace Write

/-- How far a write has come. -/
inductive Stage where
  /-- Nothing has been done. -/
  | fresh
  /-- The target's directory exists. -/
  | placed
  /-- The temporary file holds all but the pieces that are left. -/
  | filling (temporary : Place) (left : List String)
  /-- The temporary file is complete and its content has passed the check. -/
  | checked (temporary : Place)
  /-- The write has failed and the temporary file is still there. -/
  | failing (temporary : Place) (error : WriteError)
  /-- The write is over. -/
  | finished (result : Except WriteError Unit)

def content (write : Write) : String := String.join write.pieces

def folder (write : Write) : Path := write.target.dropLast

/-- The name of a temporary file for the target, which a tag makes unique. -/
def temporaryName (write : Write) (tag : String) : String :=
  "." ++ write.target.getLast?.getD "" ++ "." ++ tag ++ ".tmp"

/-- What the surroundings decide about a step. -/
structure Chance where
  /-- The tag for the temporary file, if the step makes it; none if no name is left. -/
  tag : Option String := none
  /-- What keeps the step from filling the temporary file, if it is to do so. -/
  mishap : Option WriteError := none
deriving DecidableEq

/-- Makes an empty temporary file beside the target. While the tag's name is in use nothing
happens. -/
def place (write : Write) (tag : Option String) (tree : FileTree) : FileTree × Stage :=
  match tag with
  | none => (tree, .finished (.error .noFreeName))
  | some tag =>
      let name := write.temporaryName tag
      match tree.locateBelow write.folder name with
      | .error error =>
          let path := write.folder.absolute tree.home ++ [name]
          (tree, .finished (.error (.file error path)))
      | .ok temporary =>
          if (tree.get? temporary).isSome then (tree, .placed)
          else (tree.put temporary (.file ""), .filling temporary write.pieces)

/-- Writes a piece at the end of a file. -/
def append (tree : FileTree) (place : Place) (piece : String) : FileTree :=
  match tree.get? place with
  | some (.file content) => tree.put place (.file (content ++ piece))
  | _ => tree

/-- One step of a write. -/
def step (write : Write) (chance : Chance) (tree : FileTree) : Stage → FileTree × Stage
  | .fresh =>
      match tree.makeDirectories write.folder with
      | (tree, .ok ()) => (tree, .placed)
      | (tree, .error (error, path)) => (tree, .finished (.error (.file error path)))
  | .placed => write.place chance.tag tree
  | .filling temporary left =>
      match chance.mishap, left with
      | some error, _ => (tree, .failing temporary error)
      | none, piece :: left => (append tree temporary piece, .filling temporary left)
      | none, [] =>
          match write.check write.content with
          | .ok () => (tree, .checked temporary)
          | .error error => (tree, .failing temporary error)
  | .checked temporary =>
      match tree.replace temporary write.target with
      | .ok tree => (tree, .finished (.ok ()))
      | .error error => (tree, .failing temporary (.file error write.target))
  | .failing temporary error => (tree.remove temporary, .finished (.error error))
  | .finished result => (tree, .finished result)

/-! ## Writes without a break -/

/-- The characters of which tags are made. -/
def tagAlphabet : List Char :=
  ['a', 'b', 'c', 'd', 'e', 'f', 'g', 'h', 'i', 'j', 'k', 'l', 'm', 'n', 'o', 'p', 'q', 'r', 's',
    't', 'u', 'v', 'w', 'x', 'y', 'z', '0', '1', '2', '3', '4', '5', '6', '7', '8', '9', '_']

def tagLength : Nat := 8

/-- How many tags there are. -/
def tagCount : Nat := Nat.pow tagAlphabet.length tagLength

/-- The first characters of the tag of a number, which are its digits, the last one first. -/
def tagChars : (length number : Nat) → List Char
  | 0, _ => []
  | length + 1, number =>
      tagAlphabet.getD (number % tagAlphabet.length) 'a'
        :: tagChars length (number / tagAlphabet.length)

def tagOf (number : Nat) : String := String.ofList (tagChars tagLength number)

/-- Whether nothing stands under the name with a tag, be it only that nothing can. -/
def isFree (write : Write) (tree : FileTree) (tag : String) : Bool :=
  match tree.locateBelow write.folder (write.temporaryName tag) with
  | .ok temporary => (tree.get? temporary).isNone
  | .error _ => true

/-- The first tag that is free. One more than there are entries is tried, if there are so many. -/
def freeTag? (write : Write) (tree : FileTree) : Option String :=
  ((List.range (min (tree.entries.length + 1) tagCount)).map tagOf).find? (write.isFree tree)

/-- Takes steps until the write is over, at most a given number of them. A mishap befalls the first
step that is to fill the temporary file. -/
def continueFrom (write : Write) (mishap : Option WriteError) :
    Nat → FileTree → Stage → FileTree × Stage
  | 0, tree, stage => (tree, stage)
  | count + 1, tree, stage =>
      match stage with
      | .finished result => (tree, .finished result)
      | stage =>
          let (tree, stage) := write.step ⟨write.freeTag? tree, mishap⟩ tree stage
          write.continueFrom mishap count tree stage

/-- The steps that suffice if every temporary name is free at once. -/
def stepCount (write : Write) : Nat := write.pieces.length + 6

/-- The result of a write that runs without a break. -/
def perform (write : Write) (tree : FileTree) (mishap : Option WriteError := none) :
    FileTree × Except WriteError Unit :=
  match write.continueFrom mishap write.stepCount tree .fresh with
  | (tree, .finished result) => (tree, result)
  | (tree, _) => (tree, .error (.file .busy write.target))

end Write

inductive OutputMode where
  | error
  | force
deriving DecidableEq

def OutputMode.ofName? : String → Option OutputMode
  | "error" => some .error
  | "force" => some .force
  | _ => none

/-- What writes files: it knows how JSON contents are checked. -/
structure Writer where
  jsonCheck : ContentCheck := .json

namespace Writer

/-- The check for a content of a format, which is made only for JSON and only if it is wanted. -/
def checkFor (writer : Writer) (format : String) (validate : Bool) : ContentCheck :=
  if validate && format == "json" then writer.jsonCheck else .none

def write (writer : Writer) (tree : FileTree) (target : Path) (content format : String)
    (validate : Bool) (mishap : Option WriteError := none) :
    FileTree × Except WriteError Unit :=
  Write.perform ⟨target, [content], writer.checkFor format validate⟩ tree mishap

/-- Writes a content to a target, unless it exists and the mode forbids that. -/
def writeWithMode (writer : Writer) (tree : FileTree) (target : Path) (content : String)
    (mode : OutputMode) (format : String) (mishap : Option WriteError := none) :
    FileTree × Except WriteError Unit :=
  let goOn := writer.write tree target content format true mishap
  match mode, tree.lookUp target with
  | .force, _ => goOn
  | .error, .ok _ => (tree, .error (.targetExists target))
  -- of the failures to look the target up, this one alone does not count as its absence
  | .error, .error .nameTooLong => (tree, .error (.file .nameTooLong target))
  | .error, .error _ => goOn

/-- A call of a writer. A missing mode stands for a plain write. -/
structure Call where
  target : Path
  content : String
  format : String := "json"
  validate : Bool := true
  mode : Option String := none
  /-- What keeps the content from being stored, if anything does. -/
  mishap : Option WriteError := none
deriving DecidableEq

def call (writer : Writer) (tree : FileTree) (call : Call) : FileTree × Except WriteError Unit :=
  match call.mode with
  | none => writer.write tree call.target call.content call.format call.validate call.mishap
  | some name =>
      match OutputMode.ofName? name with
      | none => (tree, .error .unknownMode)
      | some mode =>
          writer.writeWithMode tree call.target call.content mode call.format call.mishap

/-- Carries out calls in order; each result comes with the tree after it. -/
def calls (writer : Writer) (tree : FileTree) :
    List Call → List (Except WriteError Unit × FileTree)
  | [] => []
  | first :: rest =>
      let (tree, result) := writer.call tree first
      (result, tree) :: writer.calls tree rest

end Writer

end Exemplar
