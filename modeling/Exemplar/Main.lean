import Exemplar.CommandLine.Command
import Std.Time

/-!
# The program

The program looks up the files that its arguments name, runs the command on
them, shows what is to be shown and makes the changes that the command made to
the files. It decides nothing itself.
-/

namespace Exemplar.CommandLine

/-- A place and all places above it. -/
def withAbove (place : Place) : List Place :=
  (List.range (place.length + 1)).map place.take

/-- The places of all that the operands and options name, and of what is on the way. -/
def namedPlaces (home : Place) (options : Options) : List Place :=
  let written := (options.settings.filter (·.1 = .config)).map (·.2) ++ options.operands
  let passed := written.flatMap fun text =>
    let path := Path.ofText text
    (List.range (path.length + 1)).map fun count => Path.settle home (path.take count)
  (passed.flatMap withAbove).eraseDups

/-- Looks up what stands at a place. -/
def lookUp (place : Place) : IO (Option Entry) := do
  let file := (← IO.currentDir) / place.text
  if ← file.isDir then return some .directory
  else if ← file.pathExists then
    try return some (.file (← IO.FS.readFile file))
    catch _ => return some (.file "")
  else return none

/-- The entries at places where something stands. -/
def lookUpAll (home : Place) (places : List Place) : IO FileTree := do
  let mut tree : FileTree := ⟨[], home⟩
  for place in places do
    if let some entry ← lookUp place then
      unless place.isEmpty do tree := tree.put place entry
  return tree

/-- Makes an entry of a new tree real, unless it was there before. -/
def realize (before : FileTree) (tag : String) : Place × Entry → IO Unit
  | (place, entry) => do
      unless before.get? place = some entry do
        match entry with
        | .directory => IO.FS.createDirAll place.text
        | .file content =>
            let write : Write := ⟨.ofPlace place, [content], .none⟩
            let temporary := Path.text (write.folder ++ [write.temporaryName tag])
            IO.FS.writeFile temporary content
            IO.FS.rename temporary place.text

/-- A random 32-bit word. -/
def randomWord : IO UInt32 := do
  let bytes ← IO.getRandomBytes 4
  return bytes.foldl (fun word byte => word * 256 + byte.toUInt32) 0

/-- What reading standard input would be needed for. -/
def readsInput (options : Options) : Bool := options.operands.head? = some "-"

end Exemplar.CommandLine

open Exemplar Exemplar.CommandLine in
/-- Runs the command in its real surroundings. -/
def main (arguments : List String) : IO UInt32 := do
  let seed ← randomWord
  let now ← Std.Time.PlainDateTime.now
  let options := (Options.read arguments).getD {}
  let home := Path.settle [] (Path.ofText (← IO.currentDir).toString)
  let tree ← lookUpAll home (namedPlaces home options)
  let input ← if readsInput options then (← IO.getStdin).readToEnd else pure ""
  let surroundings : Surroundings :=
    { tree, homeName := String.join (home.map ("/" ++ ·)), input, draws := .ofSeed seed,
      stamp := now.format "uuuu-MM-dd HH:mm:ss" ++ " " }
  let report := CommandLine.run surroundings arguments
  report.tree.entries.forM (realize tree (toString seed))
  IO.print report.output
  IO.eprint report.messages
  match report.ending with
  | .misuse =>
      IO.eprintln "Usage: [-c FILE] [-f json|html] [--indent N] [--force] [-v] PATH [OUTPUT]"
  | .crashed _ => IO.eprintln "The schema or the configuration holds a value that cannot be used."
  | _ => pure ()
  return report.ending.exitCode.toUInt32
