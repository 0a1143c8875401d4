import Mathlib.Data.List.Induction
import Exemplar.Proofs.Files.Directories

/-!
# Following a path name by name

A path is followed to its last name, and then that name is entered. What may bar
the way is a file, a name that is too long, or a directory that is missing; only
the last is cured by making directories.
-/

namespace Exemplar

/-! ## Texts of paths -/

namespace Path

/-- A name at the end of a text adds as much as the name and what stands between. -/
theorem utf8ByteSize_intercalate_concat (separator : String) (names : List String) :
    ∃ between, ∀ name, (String.intercalate separator (names ++ [name])).utf8ByteSize =
      (String.intercalate separator names).utf8ByteSize + between + name.utf8ByteSize := by
  induction names with
  | nil => exact ⟨0, fun name => by simp⟩
  | cons first rest ih =>
      cases rest with
      | nil =>
          refine ⟨separator.utf8ByteSize, fun name => ?_⟩
          rw [List.cons_append, List.nil_append, String.intercalate_cons_cons,
            String.intercalate_singleton, String.intercalate_singleton,
            String.utf8ByteSize_append, String.utf8ByteSize_append]
      | cons second rest =>
          obtain ⟨between, hbetween⟩ := ih
          refine ⟨between, fun name => ?_⟩
          rw [List.cons_append, List.cons_append, String.intercalate_cons_cons,
            String.intercalate_cons_cons, ← List.cons_append]
          simp only [String.utf8ByteSize_append, hbetween name]
          omega

/-- So it is with the text of a path, which without any name is that of a point. -/
theorem utf8ByteSize_text_concat (path : Path) :
    ∃ before, (path ≠ [] → path.text.utf8ByteSize ≤ before) ∧
      ∀ name, (Path.text (path ++ [name])).utf8ByteSize = before + name.utf8ByteSize := by
  cases path with
  | nil =>
      refine ⟨0, fun hne => absurd rfl hne, fun name => ?_⟩
      rw [List.nil_append, text]
      split <;> simp
  | cons first rest =>
      by_cases htop : isTop first
      · obtain ⟨between, hbetween⟩ := utf8ByteSize_intercalate_concat "/" rest
        refine ⟨(text (first :: rest)).utf8ByteSize + between, fun _ => Nat.le_add_right _ _,
          fun name => ?_⟩
        rw [List.cons_append, text, text, if_pos htop, if_pos htop]
        simp only [String.utf8ByteSize_append, hbetween name]
        omega
      · obtain ⟨between, hbetween⟩ := utf8ByteSize_intercalate_concat "/" (first :: rest)
        refine ⟨(text (first :: rest)).utf8ByteSize + between, fun _ => Nat.le_add_right _ _,
          fun name => ?_⟩
        rw [List.cons_append, text, text, if_neg htop, if_neg htop, ← List.cons_append]
        exact hbetween name

theorem holdsNull_concat (path : Path) (name : String) :
    holdsNull (path ++ [name]) = (holdsNull path || name.toList.contains '\x00') := by
  rw [holdsNull, List.any_append, List.any_cons, List.any_nil, Bool.or_false, holdsNull]

end Path

namespace FileTree

variable {tree tree' before after made : FileTree} {path longer outer : Path}
  {directory place : Place} {name : String} {error : FileError}

theorem checkPath_eq_ok_iff : checkPath path = .ok () ↔
    Path.holdsNull path = false ∧ path.text.utf8ByteSize ≤ Path.longestText := by
  unfold checkPath
  split
  next hnull => simp [hnull]
  next hnull =>
    rw [Bool.not_eq_true] at hnull
    split
    next hlong => simp [hnull, Nat.not_le_of_lt hlong]
    next hshort => simp [hnull, Nat.le_of_not_lt hshort]

theorem checkPath_ne_missing (path : Path) : checkPath path ≠ .error .missing := by
  unfold checkPath
  split
  next => rintro ⟨⟩
  next => split <;> rintro ⟨⟩

/-- Where a path can be looked up, so can the one that ends a name before. -/
theorem checkPath_of_concat (hcheck : checkPath (path ++ [name]) = .ok ()) :
    checkPath path = .ok () := by
  rw [checkPath_eq_ok_iff] at hcheck ⊢
  obtain ⟨hnull, hshort⟩ := hcheck
  refine ⟨?_, ?_⟩
  · rw [Path.holdsNull_concat, Bool.or_eq_false_iff] at hnull
    exact hnull.1
  · obtain ⟨length, hlength, hconcat⟩ := Path.utf8ByteSize_text_concat path
    rw [hconcat] at hshort
    by_cases hempty : path = []
    · subst hempty
      decide
    · exact Nat.le_trans (hlength hempty) (Nat.le_trans (Nat.le_add_right _ _) hshort)

/-! ## Following paths -/

theorem follow_eq_ok_iff : tree.follow path = .ok place ↔
    checkPath path = .ok () ∧ path.foldlM tree.enter tree.home = .ok place := by
  rw [follow, bind_eq_ok]
  exact ⟨fun ⟨_, hcheck, hfold⟩ => ⟨hcheck, hfold⟩, fun ⟨hcheck, hfold⟩ => ⟨(), hcheck, hfold⟩⟩

theorem follow_of_checkPath (hcheck : checkPath path = .ok ()) :
    tree.follow path = path.foldlM tree.enter tree.home := by
  rw [follow, hcheck]
  rfl

/-- A path is followed to its last name, and that name is entered. -/
theorem follow_concat (hcheck : checkPath (path ++ [name]) = .ok ()) :
    tree.follow (path ++ [name]) =
      tree.follow path >>= fun directory => tree.enter directory name := by
  rw [follow_of_checkPath hcheck, follow_of_checkPath (checkPath_of_concat hcheck),
    List.foldlM_append]
  simp only [List.foldlM_cons, List.foldlM_nil, bind_pure]

theorem follow_concat_eq_ok_iff : tree.follow (path ++ [name]) = .ok place ↔
    checkPath (path ++ [name]) = .ok () ∧
      ∃ directory, tree.follow path = .ok directory ∧ tree.enter directory name = .ok place := by
  constructor
  · intro hfollow
    have hcheck := (follow_eq_ok_iff.mp hfollow).1
    rw [follow_concat hcheck, bind_eq_ok] at hfollow
    exact ⟨hcheck, hfollow⟩
  · rintro ⟨hcheck, hfollow⟩
    rwa [follow_concat hcheck, bind_eq_ok]

theorem enter_of_directory (hstay : Path.leadsAway name = false)
    (hshort : name.utf8ByteSize ≤ Path.longestName)
    (hdirectory : tree.get? (directory ++ [name]) = some .directory) :
    tree.enter directory name = .ok (directory ++ [name]) := by
  rw [enter, if_neg (Bool.eq_false_iff.mp hstay), if_neg (Nat.not_lt_of_le hshort), hdirectory]

theorem enter_eq_missing_iff : tree.enter directory name = .error .missing ↔
    Path.leadsAway name = false ∧ name.utf8ByteSize ≤ Path.longestName ∧
      tree.get? (directory ++ [name]) = none := by
  unfold enter
  constructor
  · intro henter
    split at henter
    next => cases henter
    next hstay =>
      split at henter
      next => cases henter
      next hshort =>
        split at henter
        next => cases henter
        next => cases henter
        next hnone => exact ⟨Bool.eq_false_iff.mpr hstay, Nat.le_of_not_lt hshort, hnone⟩
  · rintro ⟨hstay, hshort, hnone⟩
    rw [if_neg (Bool.eq_false_iff.mp hstay), if_neg (Nat.not_lt_of_le hshort), hnone]

theorem locate_concat (hcheck : checkPath (path ++ [name]) = .ok ())
    (hfollow : tree.follow path = .ok directory) : tree.locate (path ++ [name]) =
      if Path.leadsAway name then .ok none
      else if Path.longestName < name.utf8ByteSize then .error .nameTooLong
      else .ok (some (directory ++ [name])) := by
  unfold locate
  rw [hcheck, List.getLast?_concat, List.dropLast_concat, hfollow]
  rfl

theorem locate_of_enter_eq_missing (hcheck : checkPath (path ++ [name]) = .ok ())
    (hfollow : tree'.follow path = .ok directory)
    (hmissing : tree.enter directory name = .error .missing) :
    tree'.locate (path ++ [name]) = .ok (some (directory ++ [name])) := by
  obtain ⟨hstay, hshort, -⟩ := enter_eq_missing_iff.mp hmissing
  rw [locate_concat hcheck hfollow, if_neg (Bool.eq_false_iff.mp hstay),
    if_neg (Nat.not_lt_of_le hshort)]

theorem locate_concat_eq_error (hcheck : checkPath (path ++ [name]) = .ok ())
    (hfollow : tree.follow path = .error error) :
    tree.locate (path ++ [name]) = .error error := by
  unfold locate
  rw [hcheck, List.getLast?_concat, List.dropLast_concat, hfollow]
  rfl

theorem locate_eq_error_of_checkPath (hcheck : checkPath path = .error error) :
    tree.locate path = .error error := by
  unfold locate
  rw [hcheck]
  rfl

theorem find?_eq_none_of_locate (hlocate : tree.locate path = .error error) :
    tree.find? path = none := by
  unfold find? lookUp
  rw [hlocate]
  rfl

/-- Only what its folder leads to matters for where a path leads. -/
theorem locate_congr (hfollow : tree'.follow path.dropLast = tree.follow path.dropLast) :
    tree'.locate path = tree.locate path := by
  unfold locate
  rw [hfollow]

theorem follow_of_locate {found : Option Place} (hlocate : tree.locate path = .ok found) :
    ∃ directory, tree.follow path.dropLast = .ok directory := by
  obtain ⟨_, -, hlocate⟩ := bind_eq_ok.mp hlocate
  split at hlocate
  next hnone =>
    rw [List.getLast?_eq_none_iff.mp hnone]
    exact ⟨tree.home, rfl⟩
  next =>
    obtain ⟨directory, hfollow, -⟩ := bind_eq_ok.mp hlocate
    exact ⟨directory, hfollow⟩

/-- A path leads to a directory just where it can be followed to its end. -/
theorem find?_concat_eq_directory_iff (hcheck : checkPath (path ++ [name]) = .ok ())
    (hfollow : tree.follow path = .ok directory) :
    tree.find? (path ++ [name]) = some .directory ↔
      ∃ place, tree.enter directory name = .ok place := by
  unfold find? lookUp
  rw [locate_concat hcheck hfollow, enter]
  split
  next => exact iff_of_true rfl ⟨_, rfl⟩
  next =>
    split
    next => exact iff_of_false (by rintro ⟨⟩) (by rintro ⟨_, ⟨⟩⟩)
    next =>
      cases hentry : tree.get? (directory ++ [name]) with
      | none => simp [bind, Except.bind, Except.toOption, hentry]
      | some entry =>
          cases entry <;> simp [bind, Except.bind, Except.toOption, hentry]

/-! ## Adding directories -/

namespace AddsDirectories

variable (hadds : AddsDirectories before after)

include hadds

/-- Directories that are added do not clear a way that something other than their absence bars. -/
theorem enter_eq_error (henter : before.enter directory name = .error error)
    (hbarred : error ≠ .missing) : after.enter directory name = .error error := by
  unfold enter at henter ⊢
  split at henter
  next => cases henter
  next hstay =>
    rw [if_neg hstay]
    split at henter
    next hlong => rwa [if_pos hlong]
    next hshort =>
      rw [if_neg hshort]
      split at henter
      next => cases henter
      next content hfile =>
        rcases hadds.entries (directory ++ [name]) with hsame | ⟨hnone, -⟩
        · rwa [hsame, hfile]
        · rw [hfile] at hnone
          cases hnone
      next =>
        cases henter
        exact absurd rfl hbarred

theorem foldlM_eq_error {start : Place} (hfold : path.foldlM before.enter start = .error error)
    (hbarred : error ≠ .missing) : path.foldlM after.enter start = .error error := by
  induction path generalizing start with
  | nil => cases hfold
  | cons name rest ih =>
      rw [List.foldlM_cons] at hfold ⊢
      cases henter : before.enter start name with
      | error cause =>
          rw [henter] at hfold
          cases hfold
          rw [hadds.enter_eq_error henter hbarred]
          rfl
      | ok next =>
          rw [henter] at hfold
          rw [hadds.directoriesWithin.enter henter]
          exact ih hfold

theorem follow_eq_error (hfollow : before.follow path = .error error)
    (hbarred : error ≠ .missing) : after.follow path = .error error := by
  unfold follow at hfollow ⊢
  cases hcheck : checkPath path with
  | error cause => rwa [hcheck] at hfollow
  | ok done =>
      rw [hcheck] at hfollow
      rw [hadds.home]
      exact hadds.foldlM_eq_error hfollow hbarred

end AddsDirectories

/-! ## What lies on a path -/

/-- A place lies on a path if a first part of the path names it. -/
def LiesOn (tree : FileTree) (path : Path) (place : Place) : Prop :=
  ∃ front, front <+: path ∧ tree.locate front = .ok (some place)

theorem LiesOn.mono (hadds : AddsDirectories before after) (hlies : before.LiesOn path place)
    (hbegins : path <+: longer) : after.LiesOn longer place := by
  obtain ⟨front, hfront, hlocate⟩ := hlies
  exact ⟨front, hfront.trans hbegins, hadds.directoriesWithin.locate hlocate⟩

/-- Where a path can be followed, so can its first part. -/
theorem follow_of_prefix {front : Path} (hbegins : front <+: path)
    (hfollow : tree.follow path = .ok place) : ∃ middle, tree.follow front = .ok middle := by
  obtain ⟨rest, rfl⟩ := hbegins
  induction rest using List.reverseRecOn generalizing place with
  | nil => exact ⟨place, by rwa [List.append_nil] at hfollow⟩
  | append_singleton rest name ih =>
      rw [← List.append_assoc] at hfollow
      obtain ⟨-, directory, hfollow, -⟩ := follow_concat_eq_ok_iff.mp hfollow
      exact ih hfollow

/-- What lies on a path that can be followed is a directory. -/
theorem LiesOn.isDirectory (hlies : tree.LiesOn path place)
    (hfollow : tree.follow path = .ok directory) : tree.get? place = some .directory := by
  obtain ⟨front, hbegins, hlocate⟩ := hlies
  obtain ⟨middle, hmiddle⟩ := follow_of_prefix hbegins hfollow
  obtain ⟨last, within, -, hlast, hwithin, hstay, hshort, rfl⟩ := locate_eq_some.mp hlocate
  obtain ⟨outer, rfl⟩ := List.getLast?_eq_some_iff.mp hlast
  rw [List.dropLast_concat] at hwithin
  obtain ⟨-, within', hwithin', henter⟩ := follow_concat_eq_ok_iff.mp hmiddle
  rw [hwithin] at hwithin'
  cases hwithin'
  rw [enter, if_neg (Bool.eq_false_iff.mp hstay), if_neg (Nat.not_lt_of_le hshort)] at henter
  split at henter
  next hdirectory => exact hdirectory
  next => cases henter
  next => cases henter

/-- A directory stands in one tree where nothing stands in another. -/
def NewDirectory (before after : FileTree) (place : Place) : Prop :=
  before.get? place = none ∧ after.get? place = some .directory

namespace AddsDirectories

variable (hadds : AddsDirectories before after)

include hadds

/-- What stands in the second of the trees alone is a directory. -/
theorem newDirectory (hnone : before.get? place = none) (hsome : after.get? place ≠ none) :
    NewDirectory before after place := by
  rcases hadds.entries place with hsame | hnew
  · exact absurd (hsame.trans hnone) hsome
  · exact hnew

theorem locate {found : Option Place} (hlocate : before.locate path = .ok found) :
    after.locate path = .ok found := by
  obtain ⟨directory, hfollow⟩ := follow_of_locate hlocate
  rw [← hlocate]
  exact locate_congr ((hadds.directoriesWithin.follow hfollow).trans hfollow.symm)

theorem lookUp {entry : Entry} (hlookUp : before.lookUp path = .ok entry) :
    after.lookUp path = .ok entry := by
  obtain ⟨found, hlocate, hentry⟩ := bind_eq_ok.mp hlookUp
  refine bind_eq_ok.mpr ⟨found, hadds.locate hlocate, ?_⟩
  cases found with
  | none => exact hentry
  | some place =>
      dsimp only at hentry ⊢
      rcases hadds.entries place with hsame | ⟨hnone, -⟩
      · rwa [hsame]
      · rw [hnone] at hentry
        cases hentry

theorem liesOn (hfollow : before.follow path = .ok directory) (hlies : after.LiesOn path place) :
    before.LiesOn path place := by
  obtain ⟨front, hbegins, hlocate⟩ := hlies
  obtain ⟨middle, hmiddle⟩ :=
    follow_of_prefix ((List.dropLast_prefix front).trans hbegins) hfollow
  refine ⟨front, hbegins, ?_⟩
  rw [← hlocate]
  exact locate_congr (hmiddle.trans (hadds.directoriesWithin.follow hmiddle).symm)

/-- A way that only the second of the trees has passes through a directory that only it has. -/
theorem newDirectory_of_follow (hbefore : before.follow path = .error error)
    (hafter : after.follow path = .ok place) :
    ∃ new, NewDirectory before after new ∧ after.LiesOn path new := by
  induction path using List.reverseRecOn generalizing place error with
  | nil => cases hbefore
  | append_singleton path name ih =>
      obtain ⟨hcheck, directory, hfollow, henter⟩ := follow_concat_eq_ok_iff.mp hafter
      rw [follow_concat hcheck] at hbefore
      cases houter : before.follow path with
      | error cause =>
          obtain ⟨new, hnew, hlies⟩ := ih houter hfollow
          exact ⟨new, hnew, hlies.mono (.refl after) (List.prefix_append _ _)⟩
      | ok directory' =>
          have heq := hadds.directoriesWithin.follow houter
          rw [hfollow] at heq
          cases heq
          rw [houter] at hbefore
          have hmissing : before.enter directory name = .error .missing := by
            by_cases hmissing : error = .missing
            · exact hmissing ▸ hbefore
            · rw [hadds.enter_eq_error hbefore hmissing] at henter
              cases henter
          have hlies : after.LiesOn (path ++ [name]) (directory ++ [name]) :=
            ⟨_, List.prefix_refl _, locate_of_enter_eq_missing hcheck hfollow hmissing⟩
          exact ⟨_, ⟨(enter_eq_missing_iff.mp hmissing).2.2, hlies.isDirectory hafter⟩, hlies⟩

/-- So it is with what is found on it. -/
theorem newDirectory_of_lookUp {entry : Entry}
    (hbefore : ∀ entry, before.lookUp path ≠ .ok entry) (hafter : after.lookUp path = .ok entry) :
    ∃ new, NewDirectory before after new ∧ after.LiesOn path new := by
  obtain ⟨found, hlocate, hentry⟩ := bind_eq_ok.mp hafter
  obtain ⟨directory, hfollow⟩ := follow_of_locate hlocate
  cases hfollow' : before.follow path.dropLast with
  | error error =>
      obtain ⟨new, hnew, hlies⟩ := hadds.newDirectory_of_follow hfollow' hfollow
      exact ⟨new, hnew, hlies.mono (.refl after) (List.dropLast_prefix path)⟩
  | ok directory' =>
      have hlocate' : before.locate path = .ok found := by
        rw [← hlocate]
        exact locate_congr (hfollow'.trans (hadds.directoriesWithin.follow hfollow').symm)
      cases found with
      | none =>
          have hfound : before.lookUp path = .ok .directory := bind_eq_ok.mpr ⟨none, hlocate', rfl⟩
          exact absurd hfound (hbefore .directory)
      | some place =>
          refine ⟨place, hadds.newDirectory ?_ ?_, path, List.prefix_refl path, hlocate⟩
          · cases hplace : before.get? place with
            | none => rfl
            | some other =>
                exact absurd (lookUp_of_locate hlocate' hplace) (hbefore other)
          · intro hnone
            dsimp only at hentry
            rw [hnone] at hentry
            cases hentry

end AddsDirectories

end FileTree

end Exemplar
