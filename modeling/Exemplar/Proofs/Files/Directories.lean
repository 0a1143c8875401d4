import Exemplar.Fault
import Exemplar.Files.Tree

/-!
# What following a path depends on

A path is followed through directories alone, so that it leads to the same place
in every tree that has them. Making directories adds directories where nothing
stood and changes nothing else.
-/

namespace Exemplar

namespace FileTree

/-- The content of the file at a place. -/
def content? (tree : FileTree) (place : Place) : Option String :=
  match tree.get? place with
  | some (.file content) => some content
  | _ => none

theorem content?_congr {tree tree' : FileTree} {place : Place}
    (heq : tree'.get? place = tree.get? place) : tree'.content? place = tree.content? place := by
  unfold content?
  rw [heq]

theorem get?_of_content? {tree : FileTree} {place : Place} {content : String}
    (hfile : tree.content? place = some content) : tree.get? place = some (.file content) := by
  unfold content? at hfile
  split at hfile
  next found hentry => rwa [← Option.some.inj hfile]
  next => cases hfile

/-! ## Following paths -/

/-- The directories of a tree are directories of another tree with the same home. -/
structure DirectoriesWithin (tree tree' : FileTree) : Prop where
  home : tree'.home = tree.home
  stay : ∀ place, tree.get? place = some .directory → tree'.get? place = some .directory

variable {tree tree' : FileTree}

theorem DirectoriesWithin.enter (hwithin : DirectoriesWithin tree tree') {directory place : Place}
    {name : String} (henter : tree.enter directory name = .ok place) :
    tree'.enter directory name = .ok place := by
  unfold FileTree.enter at henter ⊢
  split at henter
  next haway => rwa [if_pos haway]
  next hstay =>
    split at henter
    next => cases henter
    next hshort =>
      rw [if_neg hstay, if_neg hshort]
      split at henter
      next hdirectory =>
        rw [hwithin.stay _ hdirectory]
        exact henter
      next => cases henter
      next => cases henter

theorem DirectoriesWithin.foldlM (hwithin : DirectoriesWithin tree tree') {path : Path}
    {start place : Place} (hfold : path.foldlM tree.enter start = .ok place) :
    path.foldlM tree'.enter start = .ok place := by
  induction path generalizing start with
  | nil => exact hfold
  | cons name rest ih =>
      rw [List.foldlM_cons] at hfold ⊢
      obtain ⟨middle, henter, hrest⟩ := bind_eq_ok.mp hfold
      exact bind_eq_ok.mpr ⟨middle, hwithin.enter henter, ih hrest⟩

theorem DirectoriesWithin.follow (hwithin : DirectoriesWithin tree tree') {path : Path}
    {place : Place} (hfollow : tree.follow path = .ok place) : tree'.follow path = .ok place := by
  obtain ⟨_, hcheck, hfold⟩ := bind_eq_ok.mp hfollow
  refine bind_eq_ok.mpr ⟨_, hcheck, ?_⟩
  rw [hwithin.home]
  exact hwithin.foldlM hfold

/-- A path names a place within the directory that its names but the last lead to. -/
theorem locate_eq_some {path : Path} {place : Place} :
    tree.locate path = .ok (some place) ↔ ∃ last directory, checkPath path = .ok () ∧
      path.getLast? = some last ∧ tree.follow path.dropLast = .ok directory ∧
      Path.leadsAway last = false ∧ last.utf8ByteSize ≤ Path.longestName ∧
      place = directory ++ [last] := by
  constructor
  · intro hlocate
    obtain ⟨_, hcheck, hlocate⟩ := bind_eq_ok.mp hlocate
    cases hlast : path.getLast? with
    | none =>
        rw [hlast] at hlocate
        cases hlocate
    | some last =>
        rw [hlast] at hlocate
        obtain ⟨directory, hfollow, hlocate⟩ := bind_eq_ok.mp hlocate
        split at hlocate
        next => cases hlocate
        next hstay =>
          split at hlocate
          next => cases hlocate
          next hshort =>
            cases hlocate
            exact ⟨last, directory, hcheck, rfl, hfollow, Bool.eq_false_iff.mpr hstay,
              Nat.le_of_not_lt hshort, rfl⟩
  · rintro ⟨last, directory, hcheck, hlast, hfollow, hstay, hshort, rfl⟩
    refine bind_eq_ok.mpr ⟨_, hcheck, ?_⟩
    rw [hlast]
    refine bind_eq_ok.mpr ⟨directory, hfollow, ?_⟩
    rw [if_neg (Bool.eq_false_iff.mp hstay), if_neg (Nat.not_lt_of_le hshort)]

/-- So it does below a folder, which is looked up from the top on. -/
theorem locateBelow_eq_ok {folder : Path} {name : String} {place : Place} :
    tree.locateBelow folder name = .ok place ↔ ∃ directory,
      checkPath (folder.absolute tree.home ++ [name]) = .ok () ∧
        tree.follow folder = .ok directory ∧ name.utf8ByteSize ≤ Path.longestName ∧
        place = directory ++ [name] := by
  constructor
  · intro hlocate
    obtain ⟨_, hcheck, hlocate⟩ := bind_eq_ok.mp hlocate
    obtain ⟨directory, hfollow, hlocate⟩ := bind_eq_ok.mp hlocate
    split at hlocate
    next => cases hlocate
    next hshort =>
      cases hlocate
      exact ⟨directory, hcheck, hfollow, Nat.le_of_not_lt hshort, rfl⟩
  · rintro ⟨directory, hcheck, hfollow, hshort, rfl⟩
    refine bind_eq_ok.mpr ⟨_, hcheck, bind_eq_ok.mpr ⟨directory, hfollow, ?_⟩⟩
    rw [if_neg (Nat.not_lt_of_le hshort)]

theorem lookUp_of_locate {path : Path} {place : Place} {entry : Entry}
    (hlocate : tree.locate path = .ok (some place)) (hentry : tree.get? place = some entry) :
    tree.lookUp path = .ok entry := by
  refine bind_eq_ok.mpr ⟨_, hlocate, ?_⟩
  dsimp only
  rw [hentry]

/-- A path that names a place in one tree names one in any in which its folder can be followed. -/
theorem exists_locate_of_follow {tree' : FileTree} {path : Path} {place directory : Place}
    (hlocate : tree'.locate path = .ok (some place))
    (hfollow : tree.follow path.dropLast = .ok directory) :
    ∃ place', tree.locate path = .ok (some place') := by
  obtain ⟨last, _, hcheck, hlast, -, hstay, hshort, -⟩ := locate_eq_some.mp hlocate
  exact ⟨_, locate_eq_some.mpr ⟨last, directory, hcheck, hlast, hfollow, hstay, hshort, rfl⟩⟩

theorem ne_nil_of_locate {path : Path} {place : Place}
    (hlocate : tree.locate path = .ok (some place)) : place ≠ [] := by
  obtain ⟨last, directory, -, -, -, -, -, rfl⟩ := locate_eq_some.mp hlocate
  exact List.append_ne_nil_of_right_ne_nil _ (List.cons_ne_nil _ _)

theorem getLast?_of_locate {path : Path} {place : Place}
    (hlocate : tree.locate path = .ok (some place)) : path.getLast? = place.getLast? := by
  obtain ⟨last, directory, -, hlast, -, -, -, rfl⟩ := locate_eq_some.mp hlocate
  rw [hlast, List.getLast?_concat]

theorem ne_nil_of_file {place : Place} {content : String}
    (hfile : tree.get? place = some (.file content)) : place ≠ [] := by
  rintro rfl
  cases hfile

theorem DirectoriesWithin.locate (hwithin : DirectoriesWithin tree tree') {path : Path}
    {place : Place} (hlocate : tree.locate path = .ok (some place)) :
    tree'.locate path = .ok (some place) := by
  obtain ⟨last, directory, hcheck, hlast, hfollow, hstay, hshort, rfl⟩ := locate_eq_some.mp hlocate
  exact locate_eq_some.mpr
    ⟨last, directory, hcheck, hlast, hwithin.follow hfollow, hstay, hshort, rfl⟩

theorem DirectoriesWithin.trans {tree'' : FileTree} (hfirst : DirectoriesWithin tree tree')
    (hsecond : DirectoriesWithin tree' tree'') : DirectoriesWithin tree tree'' :=
  ⟨hsecond.home.trans hfirst.home, fun place hplace =>
    hsecond.stay place (hfirst.stay place hplace)⟩

/-- A file can be moved to a place that a path leads to and that is no directory, and it leaves its
own. -/
theorem replace_eq_ok_iff {source : Place} {path : Path} {content : String} {replaced : FileTree}
    (hsource : tree.get? source = some (.file content)) :
    tree.replace source path = .ok replaced ↔ ∃ place, tree.locate path = .ok (some place) ∧
      tree.get? place ≠ some .directory ∧
      (tree.remove source).put place (.file content) = replaced := by
  constructor
  · intro hreplace
    obtain ⟨found, hlocate, hreplace⟩ := bind_eq_ok.mp hreplace
    cases found with
    | none => cases hreplace
    | some place =>
        dsimp only at hreplace
        rw [hsource] at hreplace
        refine ⟨place, hlocate, ?_⟩
        split at hreplace
        next => cases hreplace
        next heq hfile =>
          cases heq
          exact ⟨hfile, Except.ok.inj hreplace⟩
        next heq => cases heq
        next heq => cases heq
  · rintro ⟨place, hlocate, hfile, rfl⟩
    refine bind_eq_ok.mpr ⟨_, hlocate, ?_⟩
    dsimp only
    rw [hsource]
    split
    next _ hdirectory => exact absurd hdirectory hfile
    next heq _ =>
      cases heq
      rfl
    next heq => cases heq
    next heq => cases heq

/-! ## Making directories -/

/-- A tree becomes another one by directories that stand where nothing stood. -/
structure AddsDirectories (before after : FileTree) : Prop where
  home : after.home = before.home
  entries : ∀ place, after.get? place = before.get? place ∨
    before.get? place = none ∧ after.get? place = some .directory

theorem AddsDirectories.refl (tree : FileTree) : AddsDirectories tree tree :=
  ⟨rfl, fun _ => Or.inl rfl⟩

theorem AddsDirectories.trans {first second third : FileTree}
    (hfirst : AddsDirectories first second)
    (hsecond : AddsDirectories second third) : AddsDirectories first third := by
  refine ⟨hsecond.home.trans hfirst.home, ?_⟩
  intro place
  rcases hfirst.entries place with hsame | ⟨hnone, hmade⟩ <;>
    rcases hsecond.entries place with hsame' | ⟨hnone', hmade'⟩
  · exact Or.inl (hsame'.trans hsame)
  · exact Or.inr ⟨hsame ▸ hnone', hmade'⟩
  · exact Or.inr ⟨hnone, hsame'.trans hmade⟩
  · exact Or.inr ⟨hnone, hmade'⟩

theorem AddsDirectories.directoriesWithin {before after : FileTree}
    (hadds : AddsDirectories before after) : DirectoriesWithin before after := by
  refine ⟨hadds.home, ?_⟩
  intro place hdirectory
  rcases hadds.entries place with hsame | ⟨hnone, hmade⟩
  · exact hsame.trans hdirectory
  · exact hmade

theorem AddsDirectories.content? {before after : FileTree} (hadds : AddsDirectories before after)
    (place : Place) : after.content? place = before.content? place := by
  rcases hadds.entries place with hsame | ⟨hnone, hmade⟩
  · exact content?_congr hsame
  · simp [FileTree.content?, hnone, hmade]

theorem addsDirectories_put {place : Place} (hplace : place ≠ []) (hnone : tree.get? place = none) :
    AddsDirectories tree (tree.put place .directory) := by
  refine ⟨rfl, ?_⟩
  intro other
  rw [tree.get?_put hplace]
  by_cases heq : other = place
  · subst heq
    exact Or.inr ⟨hnone, if_pos rfl⟩
  · exact Or.inl (if_neg heq)

theorem addsDirectories_makeDirectory {path : Path} {made : FileTree}
    (hmade : tree.makeDirectory path = .ok made) : AddsDirectories tree made := by
  obtain ⟨found, hlocate, hmade⟩ := bind_eq_ok.mp hmade
  cases found with
  | none => cases hmade
  | some place =>
      dsimp only at hmade
      split at hmade
      next => cases hmade
      next hnone =>
        cases hmade
        exact addsDirectories_put (ne_nil_of_locate hlocate) (by simpa using hnone)

theorem addsDirectories_ensureDirectory (tree : FileTree) (path : Path) :
    AddsDirectories tree (tree.ensureDirectory path).1 := by
  unfold ensureDirectory
  split
  next made hmade => exact addsDirectories_makeDirectory hmade
  next => split <;> exact .refl tree

/-- Whatever making directories ends with, directories are all that it adds. -/
theorem addsDirectories_makeDirectoriesInward (tree : FileTree) (inward : Path) :
    AddsDirectories tree (tree.makeDirectoriesInward inward).1 := by
  induction inward with
  | nil => exact .refl tree
  | cons name outer ih =>
      rw [makeDirectoriesInward]
      split
      next hmissing =>
        generalize tree.makeDirectoriesInward outer = outcome at ih
        obtain ⟨made, result⟩ := outcome
        cases result with
        | ok done => exact ih.trans (addsDirectories_ensureDirectory made _)
        | error failure => exact ih
      next => exact addsDirectories_ensureDirectory tree _

end FileTree

end Exemplar
