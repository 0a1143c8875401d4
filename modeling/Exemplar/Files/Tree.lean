import Exemplar.Files.Path

/-!
# File trees

A file tree assigns a file or a directory to places. One of its directories is
the home, where paths start that do not start at the top. A path is followed from
directory to directory, so that it fails where a directory on the way is missing.
-/

namespace Exemplar

inductive Entry where
  | file (content : String)
  | directory
deriving DecidableEq

/-- Why the file system refuses an operation. -/
inductive FileError where
  /-- A name does not exist. -/
  | missing
  /-- A name is already taken. -/
  | taken
  /-- A directory is needed where a file stands. -/
  | notDirectory
  /-- A file is needed where a directory stands. -/
  | isDirectory
  /-- The place is in use by the file system itself. -/
  | busy
  /-- A name, or a path as a whole, has too many bytes. -/
  | nameTooLong
  /-- A path holds the null character. -/
  | nullCharacter
deriving DecidableEq

/-- The entries below the top, and the directory where paths start. -/
structure FileTree where
  entries : List (Place × Entry)
  home : Place := []
deriving DecidableEq

namespace FileTree

/-- What stands at a place; the top is a directory. -/
def get? (tree : FileTree) (place : Place) : Option Entry :=
  if place = [] then some .directory else (tree.entries.find? (·.1 == place)).map (·.2)

/-- Takes whatever stands at a place away. -/
def remove (tree : FileTree) (place : Place) : FileTree :=
  { tree with entries := tree.entries.filter (·.1 != place) }

/-- Puts an entry at a place instead of what stands there. -/
def put (tree : FileTree) (place : Place) (entry : Entry) : FileTree :=
  { tree with entries := (tree.remove place).entries ++ [(place, entry)] }

/-- Nothing stands at a place after it was taken away, and elsewhere nothing changes. -/
theorem get?_remove (tree : FileTree) {place : Place} (hplace : place ≠ []) (other : Place) :
    (tree.remove place).get? other = if other = place then none else tree.get? other := by
  by_cases hother : other = []
  · subst hother
    simp [get?, Ne.symm hplace]
  · simp only [get?, hother, if_false, remove, List.find?_filter]
    by_cases heq : other = place
    · subst heq
      simp
    · simp only [heq, if_false]
      congr 2
      funext entry
      by_cases hentry : entry.1 = other
      · simp [hentry, heq]
      · simp [hentry]

/-- What was put at a place stands there, and elsewhere nothing changes. -/
theorem get?_put (tree : FileTree) {place : Place} (hplace : place ≠ []) (entry : Entry)
    (other : Place) :
    (tree.put place entry).get? other =
      if other = place then some entry else tree.get? other := by
  have hremove := tree.get?_remove hplace other
  by_cases hother : other = []
  · subst hother
    simp [get?, Ne.symm hplace]
  · simp only [get?, hother, if_false, put, List.find?_append] at hremove ⊢
    by_cases heq : other = place
    · subst heq
      simp only [if_true, Option.map_eq_none_iff] at hremove
      simp [hremove]
    · simp only [heq, if_false] at hremove ⊢
      rw [← hremove]
      have hsingle : List.find? (fun found => found.1 == other) [(place, entry)] = none := by
        simp [Ne.symm heq]
      rw [hsingle, Option.or_none]

def files (tree : FileTree) : List (Place × String) :=
  tree.entries.filterMap fun
    | (place, .file content) => some (place, content)
    | (_, .directory) => none

/-- The files below the home, their places counted from there. -/
def filesAtHome (tree : FileTree) : List (Place × String) :=
  tree.files.filterMap fun (place, content) =>
    if tree.home.isPrefixOf place then some (place.drop tree.home.length, content) else none

/-- Puts directories at a place and at all places above it. -/
def withDirectory (tree : FileTree) (place : Place) : FileTree :=
  let above := (List.range place.length).map fun count => place.take (count + 1)
  above.foldl (fun tree place => tree.put place .directory) tree

/-- Puts a file at a place and directories at the places above it. -/
def withFile (tree : FileTree) (place : Place) (content : String) : FileTree :=
  (tree.withDirectory place.dropLast).put place (.file content)

def ofFiles (home : Place) (files : List (Place × String)) : FileTree :=
  files.foldl (fun tree file => tree.withFile (home ++ file.1) file.2)
    (FileTree.withDirectory ⟨[], home⟩ home)

/-- Enters the directory of a name from a directory. -/
def enter (tree : FileTree) (directory : Place) (name : String) : Except FileError Place :=
  if Path.leadsAway name then .ok (Path.enter directory name)
  else if Path.longestName < name.utf8ByteSize then .error .nameTooLong
  else
    match tree.get? (directory ++ [name]) with
    | some .directory => .ok (directory ++ [name])
    | some (.file _) => .error .notDirectory
    | none => .error .missing

/-- Refuses a path that cannot be looked up in any tree. -/
def checkPath (path : Path) : Except FileError Unit :=
  if Path.holdsNull path then .error .nullCharacter
  else if Path.longestText < path.text.utf8ByteSize then .error .nameTooLong
  else .ok ()

/-- The directory that a path leads to. -/
def follow (tree : FileTree) (path : Path) : Except FileError Place := do
  checkPath path
  path.foldlM tree.enter tree.home

/-- The place that the last name of a path names within the directory that the others lead to; none
if the last name leads away to a directory. -/
def locate (tree : FileTree) (path : Path) : Except FileError (Option Place) := do
  checkPath path
  match path.getLast? with
  | none => .ok none
  | some last =>
      let directory ← tree.follow path.dropLast
      if Path.leadsAway last then .ok none
      else if Path.longestName < last.utf8ByteSize then .error .nameTooLong
      else .ok (some (directory ++ [last]))

/-- The place of a name within the directory that a path leads to, where both are looked up from the
top on. The names down to the home are not followed: the home is there, as work goes on in it. -/
def locateBelow (tree : FileTree) (folder : Path) (name : String) : Except FileError Place := do
  checkPath (folder.absolute tree.home ++ [name])
  let directory ← tree.follow folder
  if Path.longestName < name.utf8ByteSize then .error .nameTooLong
  else .ok (directory ++ [name])

/-- What a path leads to. -/
def lookUp (tree : FileTree) (path : Path) : Except FileError Entry := do
  match ← tree.locate path with
  | none => .ok .directory
  | some place =>
      match tree.get? place with
      | some entry => .ok entry
      | none => .error .missing

/-- What a path leads to, if anything. -/
def find? (tree : FileTree) (path : Path) : Option Entry := (tree.lookUp path).toOption

/-- Makes the directory of the last name within the directory that the other names lead to. -/
def makeDirectory (tree : FileTree) (path : Path) : Except FileError FileTree := do
  match ← tree.locate path with
  | none => .error .taken
  | some place =>
      if (tree.get? place).isSome then .error .taken else .ok (tree.put place .directory)

/-- Makes the directory of a path unless it exists. A failure comes with the path. -/
def ensureDirectory (tree : FileTree) (path : Path) :
    FileTree × Except (FileError × Path) Unit :=
  match tree.makeDirectory path with
  | .ok made => (made, .ok ())
  | .error error =>
      if tree.find? path = some .directory then (tree, .ok ())
      else (tree, .error (error, path))

/-- Makes the directory of a path, and those above it that are missing, unless it exists. The names
come with the last one first. What was made before a failure stays, and the failure comes with the
path it arose at. -/
def makeDirectoriesInward (tree : FileTree) :
    (inward : Path) → FileTree × Except (FileError × Path) Unit
  | [] => (tree, .ok ())
  | name :: outer =>
      let path := (name :: outer).reverse
      match tree.makeDirectory path with
      -- the second attempt comes after what is above has been made
      | .error .missing =>
          match tree.makeDirectoriesInward outer with
          | (made, .ok ()) => made.ensureDirectory path
          | (made, .error failure) => (made, .error failure)
      | _ => tree.ensureDirectory path

/-- Makes the directory that a path leads to, with all that is missing above it. -/
def makeDirectories (tree : FileTree) (path : Path) :
    FileTree × Except (FileError × Path) Unit :=
  tree.makeDirectoriesInward path.reverse

/-- Moves a file to where a path leads, in place of a file that stands there. -/
def replace (tree : FileTree) (source : Place) (path : Path) : Except FileError FileTree := do
  match ← tree.locate path with
  | none => .error .busy
  | some place =>
      match tree.get? source, tree.get? place with
      | some (.file _), some .directory => .error .isDirectory
      | some (.file content), _ => .ok ((tree.remove source).put place (.file content))
      | some .directory, _ => .error .isDirectory
      | none, _ => .error .missing

end FileTree

end Exemplar
