import Exemplar.Files.Write
import Exemplar.Proofs.Files.Directories

/-!
# Writes are all or nothing

Every step of a write keeps to one invariant: besides new directories, the tree
differs from the one that the write started on by the temporary file alone, until
in one step that file takes the place of the target. So a write that fails leaves
every file as it was, and one that succeeds changes its target alone.
-/

namespace Exemplar

namespace Write

variable {write : Write} {initial base tree : FileTree} {temporary : Place} {written : String}

/-- A tree is a base with a temporary file beside the target, where nothing stood. -/
structure Beside (write : Write) (base : FileTree) (temporary : Place) (written : String)
    (tree : FileTree) : Prop where
  home : tree.home = base.home
  free : base.get? temporary = none
  entries : ∀ place, tree.get? place =
    if place = temporary then some (.file written) else base.get? place
  sibling : ∃ directory tag, base.follow write.folder = .ok directory ∧
    temporary = directory ++ [write.temporaryName tag]

/-- A tree is a base with the content at the target, to which the target's path still leads. -/
structure Replaces (write : Write) (base tree : FileTree) : Prop where
  directories : base.DirectoriesWithin tree
  target : ∃ place, tree.locate write.target = .ok (some place) ∧ ∀ other, tree.get? other =
    if other = place then some (.file write.content) else base.get? other

/-- What holds at each stage of a write that started on an initial tree. -/
def Holds (write : Write) (initial tree : FileTree) : Stage → Prop
  | .fresh => initial.AddsDirectories tree
  | .placed => initial.AddsDirectories tree
  | .filling temporary left => ∃ base written, initial.AddsDirectories base ∧
      write.Beside base temporary written tree ∧ written ++ String.join left = write.content
  | .checked temporary => write.check write.content = .ok () ∧ ∃ base,
      initial.AddsDirectories base ∧ write.Beside base temporary write.content tree
  | .failing temporary _ => ∃ base written, initial.AddsDirectories base ∧
      write.Beside base temporary written tree
  | .finished (.ok ()) => write.check write.content = .ok () ∧ ∃ base,
      initial.AddsDirectories base ∧ write.Replaces base tree
  | .finished (.error _) => initial.AddsDirectories tree

theorem content_singleton (target : Path) (content : String) (check : ContentCheck) :
    Write.content ⟨target, [content], check⟩ = content := by
  rw [Write.content, String.join_cons, String.join_nil, String.append_empty]

/-! ## The temporary file -/

namespace Beside

theorem ne_nil (hbeside : write.Beside base temporary written tree) : temporary ≠ [] := by
  obtain ⟨directory, tag, -, rfl⟩ := hbeside.sibling
  exact List.append_ne_nil_of_right_ne_nil _ (List.cons_ne_nil _ _)

theorem append (hbeside : write.Beside base temporary written tree) (piece : String) :
    write.Beside base temporary (written ++ piece) (Write.append tree temporary piece) := by
  have hentry : tree.get? temporary = some (.file written) := by
    rw [hbeside.entries, if_pos rfl]
  unfold Write.append
  rw [hentry]
  refine ⟨hbeside.home, hbeside.free, fun place => ?_, hbeside.sibling⟩
  rw [tree.get?_put hbeside.ne_nil]
  by_cases heq : place = temporary
  · rw [if_pos heq, if_pos heq]
  · rw [if_neg heq, if_neg heq, hbeside.entries, if_neg heq]

/-- Without the temporary file everything is as in the base. -/
theorem get?_remove (hbeside : write.Beside base temporary written tree) (place : Place) :
    (tree.remove temporary).get? place = base.get? place := by
  rw [tree.get?_remove hbeside.ne_nil]
  by_cases heq : place = temporary
  · rw [if_pos heq, heq, hbeside.free]
  · rw [if_neg heq, hbeside.entries, if_neg heq]

theorem addsDirectories_remove (hbeside : write.Beside base temporary written tree) :
    base.AddsDirectories (tree.remove temporary) :=
  ⟨hbeside.home, fun place => Or.inl (hbeside.get?_remove place)⟩

theorem directoriesWithin (hbeside : write.Beside base temporary written tree) :
    base.DirectoriesWithin tree := by
  refine ⟨hbeside.home, ?_⟩
  intro place hdirectory
  have hne : place ≠ temporary := by
    rintro rfl
    rw [hbeside.free] at hdirectory
    cases hdirectory
  rw [hbeside.entries, if_neg hne]
  exact hdirectory

/-- The temporary file leads no path to another place. -/
theorem locate (hbeside : write.Beside base temporary written tree) {path : Path} {place : Place}
    (hlocate : tree.locate path = .ok (some place)) : base.locate path = .ok (some place) := by
  have hwithin : tree.DirectoriesWithin base := by
    refine ⟨hbeside.home.symm, ?_⟩
    intro other hdirectory
    rw [hbeside.entries] at hdirectory
    split at hdirectory
    · cases hdirectory
    · exact hdirectory
  exact hwithin.locate hlocate

/-- The replacement changes the base at the target alone. -/
theorem get?_put_remove (hbeside : write.Beside base temporary written tree) {place : Place}
    (hplace : place ≠ []) (entry : Entry) (other : Place) :
    ((tree.remove temporary).put place entry).get? other =
      if other = place then some entry else base.get? other := by
  rw [FileTree.get?_put _ hplace, hbeside.get?_remove]

theorem replace (hbeside : write.Beside base temporary write.content tree) {replaced : FileTree}
    (hreplace : tree.replace temporary write.target = .ok replaced) :
    write.Replaces base replaced := by
  have hsource : tree.get? temporary = some (.file write.content) := by
    rw [hbeside.entries, if_pos rfl]
  obtain ⟨place, hlocate, hnotDirectory, rfl⟩ := (FileTree.replace_eq_ok_iff hsource).mp hreplace
  have hentries := hbeside.get?_put_remove (FileTree.ne_nil_of_locate hlocate)
    (.file write.content)
  -- the directories are those of the base, as the target itself is none
  have hwithin : base.DirectoriesWithin
      ((tree.remove temporary).put place (.file write.content)) := by
    refine ⟨hbeside.home, ?_⟩
    intro other hdirectory
    have hne : other ≠ place := by
      rintro rfl
      exact hnotDirectory (hbeside.directoriesWithin.stay _ hdirectory)
    rw [hentries, if_neg hne]
    exact hdirectory
  have hlocate' := hwithin.locate (hbeside.locate hlocate)
  exact ⟨hwithin, place, hlocate', hentries⟩

end Beside

/-! ## Steps -/

theorem place_holds (hholds : initial.AddsDirectories tree) (tag : Option String) :
    write.Holds initial (write.place tag tree).1 (write.place tag tree).2 := by
  unfold place
  split
  next => exact hholds
  next tag =>
    dsimp only
    split
    next => exact hholds
    next temporary hlocate =>
      split
      next => exact hholds
      next hfree =>
        obtain ⟨directory, -, hfollow, -, rfl⟩ := FileTree.locateBelow_eq_ok.mp hlocate
        refine ⟨tree, "", hholds, ⟨rfl, by simpa using hfree, fun place => ?_, directory, tag,
          hfollow, rfl⟩, String.empty_append⟩
        exact tree.get?_put (List.append_ne_nil_of_right_ne_nil _ (List.cons_ne_nil _ _)) _ place

/-- What holds at a stage holds again after the next step. -/
theorem step_holds {stage : Stage} (hholds : write.Holds initial tree stage) (chance : Chance) :
    write.Holds initial (write.step chance tree stage).1 (write.step chance tree stage).2 := by
  cases stage with
  | fresh =>
      have hadds := hholds.trans
        (FileTree.addsDirectories_makeDirectoriesInward tree write.folder.reverse)
      rw [step, FileTree.makeDirectories]
      generalize tree.makeDirectoriesInward write.folder.reverse = outcome at hadds
      obtain ⟨made, result⟩ := outcome
      cases result with
      | ok done => exact hadds
      | error failure => exact hadds
  | placed => exact place_holds hholds chance.tag
  | filling temporary left =>
      obtain ⟨base, written, hadds, hbeside, hcontent⟩ := hholds
      unfold step
      dsimp only
      split
      -- a mishap leaves the temporary file with what has been written so far
      next => exact ⟨base, written, hadds, hbeside⟩
      next piece left _ =>
        refine ⟨base, written ++ piece, hadds, hbeside.append piece, ?_⟩
        rw [String.append_assoc, ← String.join_cons]
        exact hcontent
      next =>
        rw [String.join_nil, String.append_empty] at hcontent
        subst hcontent
        split
        next hcheck => exact ⟨hcheck, base, hadds, hbeside⟩
        next => exact ⟨base, _, hadds, hbeside⟩
  | checked temporary =>
      -- a refused replacement leaves the temporary file for the next step to remove
      obtain ⟨hcheck, base, hadds, hbeside⟩ := hholds
      rw [step]
      split
      next replaced hreplace => exact ⟨hcheck, base, hadds, hbeside.replace hreplace⟩
      next => exact ⟨base, _, hadds, hbeside⟩
  | failing temporary error =>
      obtain ⟨base, written, hadds, hbeside⟩ := hholds
      exact hadds.trans hbeside.addsDirectories_remove
  | finished result => exact hholds

/-! ## Runs -/

variable {mishap : Option WriteError}

theorem continueFrom_finished (write : Write) (mishap : Option WriteError) (count : Nat)
    (tree : FileTree) (result : Except WriteError Unit) :
    write.continueFrom mishap count tree (.finished result) = (tree, .finished result) := by
  cases count <;> rfl

theorem continueFrom_succ (write : Write) (mishap : Option WriteError) (count : Nat)
    (tree : FileTree) (stage : Stage) :
    write.continueFrom mishap (count + 1) tree stage =
      write.continueFrom mishap count (write.step ⟨write.freeTag? tree, mishap⟩ tree stage).1
        (write.step ⟨write.freeTag? tree, mishap⟩ tree stage).2 := by
  cases stage with
  | finished result => exact (write.continueFrom_finished mishap count tree result).symm
  | _ => rfl

theorem continueFrom_holds (count : Nat) {stage : Stage} (hholds : write.Holds initial tree stage) :
    write.Holds initial (write.continueFrom mishap count tree stage).1
      (write.continueFrom mishap count tree stage).2 := by
  induction count generalizing tree stage with
  | zero => exact hholds
  | succ count ih =>
      rw [continueFrom_succ]
      exact ih (step_holds hholds _)

/-- The number of steps that end a write from a stage at which the temporary file has been made. -/
def Stage.rest : Stage → Option Nat
  | .filling _ left => some (left.length + 3)
  | .checked _ => some 2
  | .failing _ _ => some 1
  | .finished _ => some 0
  | _ => none

theorem rest_step (write : Write) (chance : Chance) (tree : FileTree) {stage : Stage} {rest : Nat}
    (hrest : stage.rest = some (rest + 1)) :
    ∃ less ≤ rest, (write.step chance tree stage).2.rest = some less := by
  cases stage with
  | filling temporary left =>
      have hlength : rest = left.length + 2 := by
        simpa [Stage.rest, eq_comm] using hrest
      subst hlength
      unfold step
      dsimp only
      split
      next => exact ⟨1, by omega, rfl⟩
      next piece left _ => exact ⟨left.length + 3, by simp, rfl⟩
      next =>
        split
        next => exact ⟨2, Nat.le_refl 2, rfl⟩
        next => exact ⟨1, by omega, rfl⟩
  | checked temporary =>
      simp [Stage.rest] at hrest
      subst hrest
      rw [step]
      split
      next => exact ⟨0, by omega, rfl⟩
      next => exact ⟨1, Nat.le_refl 1, rfl⟩
  | failing temporary error => exact ⟨0, by omega, rfl⟩
  | finished result => simp [Stage.rest] at hrest
  | fresh => simp [Stage.rest] at hrest
  | placed => simp [Stage.rest] at hrest

/-- Once the temporary file has been made, the write ends. -/
theorem continueFrom_finishes {count rest : Nat} {stage : Stage} (hrest : stage.rest = some rest)
    (hle : rest ≤ count) :
    ∃ result, (write.continueFrom mishap count tree stage).2 = .finished result := by
  induction count generalizing tree stage rest with
  | zero =>
      have hzero := Nat.le_zero.mp hle
      subst hzero
      cases stage with
      | finished result => exact ⟨result, rfl⟩
      | _ => simp [Stage.rest] at hrest
  | succ count ih =>
      rw [continueFrom_succ]
      cases rest with
      | zero =>
          cases stage with
          | finished result => exact ih hrest (Nat.zero_le count)
          | _ => simp [Stage.rest] at hrest
      | succ rest =>
          obtain ⟨less, hless, hnext⟩ :=
            rest_step write ⟨write.freeTag? tree, mishap⟩ tree hrest
          exact ih hnext (by omega)

theorem place_cases (write : Write) (tag : Option String) (tree : FileTree) :
    (∃ result, write.place tag tree = (tree, .finished result)) ∨
      write.place tag tree = (tree, .placed) ∨
        ∃ made temporary, write.place tag tree = (made, .filling temporary write.pieces) := by
  unfold place
  split
  next => exact Or.inl ⟨_, rfl⟩
  next tag =>
    dsimp only
    split
    next => exact Or.inl ⟨_, rfl⟩
    next temporary _ =>
      split
      next => exact Or.inr (Or.inl rfl)
      next => exact Or.inr (Or.inr ⟨_, temporary, rfl⟩)

/-- A write whose directory exists ends, unless the name of its temporary file stays in use. -/
theorem continueFrom_placed {count : Nat} (hcount : write.pieces.length + 4 ≤ count) :
    (∃ result, (write.continueFrom mishap count tree .placed).2 = .finished result) ∨
      (write.continueFrom mishap count tree .placed).2 = .placed := by
  rcases write.place_cases (write.freeTag? tree) tree with
    ⟨result, hplace⟩ | hplace | ⟨made, temporary, hplace⟩
  · obtain ⟨less, rfl⟩ := Nat.exists_eq_add_of_le' (Nat.lt_of_lt_of_le (Nat.succ_pos _) hcount)
    rw [continueFrom_succ, step, hplace, continueFrom_finished]
    exact Or.inl ⟨result, rfl⟩
  · -- a step that waits leaves the tree as it is, so that the next one waits too
    apply Or.inr
    clear hcount
    induction count with
    | zero => rfl
    | succ count ih =>
        rw [continueFrom_succ, step, hplace]
        exact ih
  · obtain ⟨less, rfl⟩ := Nat.exists_eq_add_of_le' (Nat.lt_of_lt_of_le (Nat.succ_pos _) hcount)
    rw [continueFrom_succ, step, hplace]
    exact Or.inl (continueFrom_finishes rfl (by omega))

theorem continueFrom_fresh (write : Write) (tree : FileTree) (mishap : Option WriteError) :
    (∃ result, (write.continueFrom mishap write.stepCount tree .fresh).2 = .finished result) ∨
      (write.continueFrom mishap write.stepCount tree .fresh).2 = .placed := by
  rw [stepCount, continueFrom_succ, step]
  split
  next => exact continueFrom_placed (by omega)
  next =>
    rw [continueFrom_finished]
    exact Or.inl ⟨_, rfl⟩

/-- A write that has run is over: it has failed and changed no file, or it has put its content,
which passed the check, at its target and changed no other file. -/
theorem perform_holds (write : Write) (tree : FileTree) (mishap : Option WriteError) :
    write.Holds tree (write.perform tree mishap).1 (.finished (write.perform tree mishap).2) := by
  have hstart : write.Holds tree tree .fresh := FileTree.AddsDirectories.refl tree
  have hholds := @continueFrom_holds write tree tree mishap write.stepCount _ hstart
  have hend := write.continueFrom_fresh tree mishap
  unfold perform
  generalize write.continueFrom mishap write.stepCount tree .fresh = outcome at hholds hend
  obtain ⟨final, stage⟩ := outcome
  dsimp only at hholds hend
  rcases hend with ⟨result, rfl⟩ | rfl
  · exact hholds
  · exact hholds

end Write

end Exemplar
