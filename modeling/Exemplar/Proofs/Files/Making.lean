import Exemplar.Proofs.Files.Following

/-!
# Making directories one after the other

The directories on a path are made from the first to the last. What a tree has
already is not made again, so that directories made before, by whomever, neither
help nor hinder: two trees that differ by directories alone let the same paths be
made.
-/

namespace Exemplar

namespace FileTree

variable {tree before after made : FileTree} {path outer : Path} {directory place : Place}
  {name : String} {error : FileError}

/-! ## One directory -/

/-- A directory within a directory is made where the way into it is missing. -/
theorem ensureDirectory_concat (hcheck : checkPath (path ++ [name]) = .ok ())
    (hfollow : tree.follow path = .ok directory) :
    tree.ensureDirectory (path ++ [name]) =
      match tree.enter directory name with
      | .ok _ => (tree, .ok ())
      | .error .missing => (tree.put (directory ++ [name]) .directory, .ok ())
      | .error .notDirectory => (tree, .error (.taken, path ++ [name]))
      | .error error => (tree, .error (error, path ++ [name])) := by
  have hfind := find?_concat_eq_directory_iff hcheck hfollow
  unfold ensureDirectory makeDirectory
  unfold enter at hfind ⊢
  rw [locate_concat hcheck hfollow]
  by_cases haway : Path.leadsAway name
  · rw [if_pos haway] at hfind
    rw [if_pos haway, if_pos haway]
    exact if_pos (hfind.mpr ⟨_, rfl⟩)
  · rw [if_neg haway] at hfind
    rw [if_neg haway, if_neg haway]
    by_cases hlong : Path.longestName < name.utf8ByteSize
    · rw [if_pos hlong] at hfind
      rw [if_pos hlong, if_pos hlong]
      exact if_neg (by simp [hfind])
    · rw [if_neg hlong] at hfind
      rw [if_neg hlong, if_neg hlong]
      cases hentry : tree.get? (directory ++ [name]) with
      | none => simp [bind, Except.bind, hentry]
      | some entry => cases entry <;> simp [bind, Except.bind, hentry, hfind]

/-- Making a directory finds it, or makes it where it is missing, or fails. -/
theorem ensureDirectory_cases (hcheck : checkPath (path ++ [name]) = .ok ())
    (hfollow : tree.follow path = .ok directory) :
    (∃ place, tree.enter directory name = .ok place ∧
      tree.ensureDirectory (path ++ [name]) = (tree, .ok ())) ∨
    (tree.enter directory name = .error .missing ∧
      tree.ensureDirectory (path ++ [name]) = (tree.put (directory ++ [name]) .directory, .ok ())) ∨
    ∃ error failure, error ≠ .missing ∧ tree.enter directory name = .error error ∧
      tree.ensureDirectory (path ++ [name]) = (tree, .error failure) := by
  rw [ensureDirectory_concat hcheck hfollow]
  cases henter : tree.enter directory name with
  | ok place => exact Or.inl ⟨place, rfl, rfl⟩
  | error error =>
      cases error with
      | missing => exact Or.inr (Or.inl ⟨rfl, rfl⟩)
      | _ => exact Or.inr (Or.inr ⟨_, _, by rintro ⟨⟩, rfl, rfl⟩)

/-- A missing directory that is made can be entered. -/
theorem put_of_enter_eq_missing (henter : tree.enter directory name = .error .missing) :
    AddsDirectories tree (tree.put (directory ++ [name]) .directory) ∧
      (tree.put (directory ++ [name]) .directory).enter directory name =
        .ok (directory ++ [name]) := by
  obtain ⟨hstay, hshort, hnone⟩ := enter_eq_missing_iff.mp henter
  have hne : directory ++ [name] ≠ [] := List.append_ne_nil_of_right_ne_nil _ (List.cons_ne_nil _ _)
  exact ⟨addsDirectories_put hne hnone,
    enter_of_directory hstay hshort ((tree.get?_put hne _ _).trans (if_pos rfl))⟩

theorem makeDirectory_ne_missing (hcheck : checkPath (path ++ [name]) = .ok ())
    (hfollow : tree.follow path = .ok directory) :
    tree.makeDirectory (path ++ [name]) ≠ .error .missing := by
  unfold makeDirectory
  rw [locate_concat hcheck hfollow]
  split
  next => rintro ⟨⟩
  next =>
    split
    next => rintro ⟨⟩
    next =>
      dsimp only [bind, Except.bind]
      split <;> rintro ⟨⟩

/-! ## All directories on a path -/

theorem makeDirectoriesInward_eq_self (hfollow : tree.follow outer.reverse = .ok place) :
    tree.makeDirectoriesInward outer = (tree, .ok ()) := by
  cases outer with
  | nil => rfl
  | cons name outer =>
      rw [List.reverse_cons] at hfollow
      obtain ⟨hcheck, directory, houter, henter⟩ := follow_concat_eq_ok_iff.mp hfollow
      unfold makeDirectoriesInward
      dsimp only
      rw [List.reverse_cons]
      split
      next hmissing => exact absurd hmissing (makeDirectory_ne_missing hcheck houter)
      next => rw [ensureDirectory_concat hcheck houter, henter]

/-- Nothing but missing directories keeps a name from being reached. -/
def Open (tree : FileTree) (path : Path) (name : String) : Prop :=
  checkPath (path ++ [name]) = .ok () ∧
    ∀ error, tree.follow path = .error error → error = .missing

/-- Where the way to it is open, a directory is made after those above. -/
theorem makeDirectoriesInward_cons (hopen : tree.Open outer.reverse name) :
    tree.makeDirectoriesInward (name :: outer) =
      match tree.makeDirectoriesInward outer with
      | (made, .ok ()) => made.ensureDirectory (outer.reverse ++ [name])
      | (made, .error failure) => (made, .error failure) := by
  obtain ⟨hcheck, hmissing⟩ := hopen
  rw [makeDirectoriesInward, List.reverse_cons]
  cases hfollow : tree.follow outer.reverse with
  | error error =>
      cases hmissing error hfollow
      rw [makeDirectory, locate_concat_eq_error hcheck hfollow]
      rfl
  | ok directory =>
      rw [makeDirectoriesInward_eq_self hfollow]
      split
      next hmissing => exact absurd hmissing (makeDirectory_ne_missing hcheck hfollow)
      next => rfl

/-- Where something else bars the way, nothing is made. -/
theorem makeDirectoriesInward_barred (hbarred : ¬ tree.Open outer.reverse name) :
    ∃ failure, tree.makeDirectoriesInward (name :: outer) = (tree, .error failure) := by
  have hlocate : ∃ error, error ≠ .missing ∧
      tree.locate (outer.reverse ++ [name]) = .error error := by
    cases hcheck : checkPath (outer.reverse ++ [name]) with
    | error error =>
        refine ⟨error, ?_, locate_eq_error_of_checkPath hcheck⟩
        rintro rfl
        exact checkPath_ne_missing _ hcheck
    | ok done =>
        obtain ⟨error, hfollow, hother⟩ : ∃ error, tree.follow outer.reverse = .error error ∧
            error ≠ .missing := by
          simpa [Open, hcheck] using hbarred
        exact ⟨error, hother, locate_concat_eq_error hcheck hfollow⟩
  obtain ⟨error, hother, hlocate⟩ := hlocate
  have hmake : tree.makeDirectory (outer.reverse ++ [name]) = .error error := by
    rw [makeDirectory, hlocate]
    rfl
  refine ⟨(error, outer.reverse ++ [name]), ?_⟩
  rw [makeDirectoriesInward, List.reverse_cons, hmake]
  cases error with
  | missing => exact absurd rfl hother
  | _ => rw [ensureDirectory, hmake, find?_eq_none_of_locate hlocate]; rfl

/-! ## What has been made -/

/-- A path that has been made can be followed. -/
theorem follow_of_makeDirectoriesInward {inward : Path}
    (hmade : tree.makeDirectoriesInward inward = (made, .ok ())) :
    ∃ place, made.follow inward.reverse = .ok place := by
  induction inward generalizing made with
  | nil => exact ⟨made.home, rfl⟩
  | cons name outer ih =>
      by_cases hopen : tree.Open outer.reverse name
      · rw [makeDirectoriesInward_cons hopen] at hmade
        rw [List.reverse_cons]
        split at hmade
        next middle hmiddle =>
          obtain ⟨directory, hfollow⟩ := ih hmiddle
          rcases ensureDirectory_cases hopen.1 hfollow with
            ⟨place, henter, hensure⟩ | ⟨hmissing, hensure⟩ | ⟨error, failure, -, -, hensure⟩
          · rw [hensure] at hmade
            cases hmade
            exact ⟨place, follow_concat_eq_ok_iff.mpr ⟨hopen.1, directory, hfollow, henter⟩⟩
          · rw [hensure] at hmade
            cases hmade
            obtain ⟨hadds, henter⟩ := put_of_enter_eq_missing hmissing
            exact ⟨_, follow_concat_eq_ok_iff.mpr
              ⟨hopen.1, directory, hadds.directoriesWithin.follow hfollow, henter⟩⟩
          · rw [hensure] at hmade
            cases hmade
        next => cases hmade
      · obtain ⟨failure, hbarred⟩ := makeDirectoriesInward_barred hopen
        rw [hbarred] at hmade
        cases hmade

/-- Whatever making the directories on a path ends with, they lie on the path. -/
theorem liesOn_of_makeDirectoriesInward {inward : Path}
    (hmade : (tree.makeDirectoriesInward inward).1.get? place ≠ tree.get? place) :
    (tree.makeDirectoriesInward inward).1.LiesOn inward.reverse place := by
  induction inward with
  | nil => exact absurd rfl hmade
  | cons name outer ih =>
      by_cases hopen : tree.Open outer.reverse name
      · rw [makeDirectoriesInward_cons hopen] at hmade ⊢
        rw [List.reverse_cons]
        have hbegins := List.prefix_append outer.reverse [name]
        cases houter : tree.makeDirectoriesInward outer with
        | mk middle result =>
        rw [houter] at hmade ih
        cases result with
        | error failure => exact (ih hmade).mono (.refl middle) hbegins
        | ok done =>
            dsimp only at hmade ih ⊢
            obtain ⟨directory, hfollow⟩ := follow_of_makeDirectoriesInward houter
            rcases ensureDirectory_cases hopen.1 hfollow with
              ⟨_, -, hensure⟩ | ⟨hmissing, hensure⟩ | ⟨_, _, -, -, hensure⟩
            · rw [hensure] at hmade ⊢
              exact (ih hmade).mono (.refl middle) hbegins
            · rw [hensure] at hmade ⊢
              obtain ⟨hadds, henter⟩ := put_of_enter_eq_missing hmissing
              by_cases heq : place = directory ++ [name]
              · subst heq
                exact ⟨_, List.prefix_refl _, locate_of_enter_eq_missing hopen.1
                  (hadds.directoriesWithin.follow hfollow) hmissing⟩
              · rw [get?_put _ (by simp), if_neg heq] at hmade
                exact (ih hmade).mono hadds hbegins
            · rw [hensure] at hmade ⊢
              exact (ih hmade).mono (.refl middle) hbegins
      · obtain ⟨failure, hbarred⟩ := makeDirectoriesInward_barred hopen
        rw [hbarred] at hmade
        exact absurd rfl hmade

/-! ## Directories made before -/

/-- Making directories succeeds on both of two trees or on neither, and if so, the second has what
the first has, and perhaps more directories. -/
structure MadeAlike (first second : FileTree × Except (FileError × Path) Unit) : Prop where
  succeeds : first.2 = .ok () ↔ second.2 = .ok ()
  adds : first.2 = .ok () → AddsDirectories first.1 second.1

namespace AddsDirectories

variable (hadds : AddsDirectories before after)

include hadds

theorem put_left (hplace : place ≠ []) (hdirectory : after.get? place = some .directory) :
    AddsDirectories (before.put place .directory) after := by
  refine ⟨hadds.home, fun other => ?_⟩
  rw [before.get?_put hplace]
  by_cases heq : other = place
  · rw [if_pos heq, heq]
    exact Or.inl hdirectory
  · rw [if_neg heq]
    exact hadds.entries other

theorem ensureDirectory (hcheck : checkPath (path ++ [name]) = .ok ())
    (hfollow : before.follow path = .ok directory) :
    MadeAlike (before.ensureDirectory (path ++ [name]))
      (after.ensureDirectory (path ++ [name])) := by
  have hfollow' := hadds.directoriesWithin.follow hfollow
  have hne : directory ++ [name] ≠ [] := List.append_ne_nil_of_right_ne_nil _ (List.cons_ne_nil _ _)
  rcases ensureDirectory_cases hcheck hfollow with
    ⟨place, henter, hensure⟩ | ⟨hmissing, hensure⟩ | ⟨error, failure, hother, henter, hensure⟩
  · rw [hensure, ensureDirectory_concat hcheck hfollow', hadds.directoriesWithin.enter henter]
    exact ⟨iff_of_true rfl rfl, fun _ => hadds⟩
  · -- what is missing in the first tree may be there in the second
    have hboth : ∃ made, after.ensureDirectory (path ++ [name]) = (made, .ok ()) ∧
        AddsDirectories after made ∧ made.get? (directory ++ [name]) = some .directory := by
      obtain ⟨hstay, hshort, hnone⟩ := enter_eq_missing_iff.mp hmissing
      rw [ensureDirectory_concat hcheck hfollow']
      rcases hadds.entries (directory ++ [name]) with hsame | ⟨-, hdirectory⟩
      · have hmissing' := enter_eq_missing_iff.mpr ⟨hstay, hshort, hsame.trans hnone⟩
        rw [hmissing']
        exact ⟨_, rfl, (put_of_enter_eq_missing hmissing').1,
          (after.get?_put hne _ _).trans (if_pos rfl)⟩
      · rw [enter_of_directory hstay hshort hdirectory]
        exact ⟨after, rfl, .refl after, hdirectory⟩
    obtain ⟨made, hmade, hmore, hdirectory⟩ := hboth
    rw [hensure, hmade]
    exact ⟨iff_of_true rfl rfl, fun _ => (hadds.trans hmore).put_left hne hdirectory⟩
  · obtain ⟨failure', hensure'⟩ : ∃ failure', after.ensureDirectory (path ++ [name]) =
        (after, .error failure') := by
      rw [ensureDirectory_concat hcheck hfollow', hadds.enter_eq_error henter hother]
      cases error with
      | missing => exact absurd rfl hother
      | _ => exact ⟨_, rfl⟩
    rw [hensure, hensure']
    exact ⟨iff_of_false (by rintro ⟨⟩) (by rintro ⟨⟩), by rintro ⟨⟩⟩

theorem not_open (hbarred : ¬ before.Open path name) : ¬ after.Open path name := by
  rintro ⟨hcheck, hmissing⟩
  exact hbarred ⟨hcheck, fun error hfollow => Decidable.byContradiction fun hother =>
    hother (hmissing error (hadds.follow_eq_error hfollow hother))⟩

/-- Making directories comes to the same with directories that were there before. -/
theorem makeDirectoriesInward (inward : Path) :
    MadeAlike (before.makeDirectoriesInward inward) (after.makeDirectoriesInward inward) := by
  induction inward with
  | nil => exact ⟨Iff.rfl, fun _ => hadds⟩
  | cons name outer ih =>
      by_cases hopen : before.Open outer.reverse name
      · rw [makeDirectoriesInward_cons hopen]
        by_cases hopen' : after.Open outer.reverse name
        · rw [makeDirectoriesInward_cons hopen']
          cases houter : before.makeDirectoriesInward outer with
          | mk made result =>
          cases houter' : after.makeDirectoriesInward outer with
          | mk made' result' =>
          rw [houter, houter'] at ih
          obtain ⟨hsucceeds, hadds'⟩ := ih
          cases result with
          | error failure =>
              cases result' with
              | error failure' =>
                  exact ⟨iff_of_false (by rintro ⟨⟩) (by rintro ⟨⟩), by rintro ⟨⟩⟩
              | ok done => cases hsucceeds.mpr rfl
          | ok done =>
              cases hsucceeds.mp rfl
              obtain ⟨directory, hfollow⟩ := follow_of_makeDirectoriesInward houter
              exact (hadds' rfl).ensureDirectory hopen.1 hfollow
        · -- what bars the way in the second tree, the first meets once it has what is missing
          obtain ⟨error, hfollow', hother⟩ : ∃ error, after.follow outer.reverse = .error error ∧
              error ≠ .missing := by
            simpa [Open, hopen.1] using hopen'
          have hfails : (before.makeDirectoriesInward outer).2 ≠ .ok () := by
            intro hdone
            obtain ⟨place, hfollow⟩ := follow_of_makeDirectoriesInward
              (Prod.ext rfl (ih.succeeds.mp hdone))
            rw [(addsDirectories_makeDirectoriesInward after outer).follow_eq_error hfollow' hother]
              at hfollow
            cases hfollow
          obtain ⟨failure', hbarred⟩ := makeDirectoriesInward_barred hopen'
          rw [hbarred]
          split
          next made houter =>
            rw [houter] at hfails
            exact absurd rfl hfails
          next => exact ⟨iff_of_false (by rintro ⟨⟩) (by rintro ⟨⟩), by rintro ⟨⟩⟩
      · obtain ⟨failure, hbarred⟩ := makeDirectoriesInward_barred hopen
        obtain ⟨failure', hbarred'⟩ := makeDirectoriesInward_barred (hadds.not_open hopen)
        rw [hbarred, hbarred']
        exact ⟨iff_of_false (by rintro ⟨⟩) (by rintro ⟨⟩), by rintro ⟨⟩⟩

end AddsDirectories

/-! ## The directories of a path -/

theorem makeDirectories_eq_self (hfollow : tree.follow path = .ok place) :
    tree.makeDirectories path = (tree, .ok ()) :=
  makeDirectoriesInward_eq_self (by rwa [List.reverse_reverse])

theorem addsDirectories_makeDirectories (tree : FileTree) (path : Path) :
    AddsDirectories tree (tree.makeDirectories path).1 :=
  addsDirectories_makeDirectoriesInward tree path.reverse

theorem follow_of_makeDirectories (hmade : tree.makeDirectories path = (made, .ok ())) :
    ∃ place, made.follow path = .ok place := by
  have hfollow := follow_of_makeDirectoriesInward hmade
  rwa [List.reverse_reverse] at hfollow

theorem liesOn_of_makeDirectories
    (hmade : (tree.makeDirectories path).1.get? place ≠ tree.get? place) :
    (tree.makeDirectories path).1.LiesOn path place := by
  have hlies := liesOn_of_makeDirectoriesInward hmade
  rwa [List.reverse_reverse] at hlies

theorem AddsDirectories.makeDirectories (hadds : AddsDirectories before after) (path : Path) :
    MadeAlike (before.makeDirectories path) (after.makeDirectories path) :=
  hadds.makeDirectoriesInward path.reverse

/-- What only the second of two trees has once directories are made, it had before. -/
theorem AddsDirectories.newDirectory_of_made (hadds : AddsDirectories before after)
    {made' : FileTree} (hbefore : before.makeDirectories path = (made, .ok ()))
    (hafter : after.makeDirectories path = (made', .ok ()))
    (hnew : NewDirectory made made' place) : NewDirectory before after place := by
  have hmade := addsDirectories_makeDirectories before path
  have halike := hadds.makeDirectories path
  have hlies := @liesOn_of_makeDirectories after path place
  rw [hbefore] at hmade halike
  rw [hafter] at halike hlies
  have hnone : before.get? place = none := by
    rcases hmade.entries place with hsame | ⟨hnone, -⟩
    · exact hsame.symm.trans hnew.1
    · exact hnone
  refine hadds.newDirectory hnone fun hnone' => ?_
  -- otherwise it was made in the second tree, and so in the first
  obtain ⟨directory, hfollow⟩ := follow_of_makeDirectories hbefore
  have hmade' : made'.get? place ≠ after.get? place := by
    rw [hnew.2, hnone']
    rintro ⟨⟩
  have hdirectory := ((halike.adds rfl).liesOn hfollow (hlies hmade')).isDirectory hfollow
  rw [hnew.1] at hdirectory
  cases hdirectory

end FileTree

end Exemplar
