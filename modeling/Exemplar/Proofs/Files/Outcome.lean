import Exemplar.Proofs.Files.Room

/-!
# What a write ends with

A write first makes the folder of its target and then a temporary file there. If
it gets that far, its check and the place of its target decide how it ends, and
besides the target nothing differs from the tree with the folder made.
-/

namespace Exemplar

namespace FileTree

variable {tree : FileTree} {path : Path}

/-- Where a file goes that is put on a path, or why it cannot. -/
def landing (tree : FileTree) (path : Path) : Except FileError Place := do
  match ← tree.locate path with
  | none => .error .busy
  | some place => if tree.get? place = some .directory then .error .isDirectory else .ok place

theorem landing_eq_ok_iff {place : Place} : tree.landing path = .ok place ↔
    tree.locate path = .ok (some place) ∧ tree.get? place ≠ some .directory := by
  constructor
  · intro hlanding
    obtain ⟨found, hlocate, hlanding⟩ := bind_eq_ok.mp hlanding
    cases found with
    | none => cases hlanding
    | some other =>
        dsimp only at hlanding
        split at hlanding
        next => cases hlanding
        next hdirectory =>
          cases hlanding
          exact ⟨hlocate, hdirectory⟩
  · rintro ⟨hlocate, hdirectory⟩
    exact bind_eq_ok.mpr ⟨_, hlocate, if_neg hdirectory⟩

end FileTree

namespace Write

variable {write : Write} {before after base made tree : FileTree} {temporary : Place}
  {written : String} {mishap : Option WriteError}

/-! ## The verdict on a write -/

/-- The temporary file can be moved to where the base has no directory. -/
theorem Beside.replace_eq (hbeside : write.Beside base temporary written tree) :
    tree.replace temporary write.target = (base.landing write.target).map fun place =>
      (tree.remove temporary).put place (.file written) := by
  have hsource : tree.get? temporary = some (.file written) := by
    rw [hbeside.entries, if_pos rfl]
  have hdirectory (place : Place) :
      tree.get? place = some .directory ↔ base.get? place = some .directory := by
    rw [hbeside.entries]
    split
    next heq => simp [heq, hbeside.free]
    next => rfl
  obtain ⟨directory, tag, hfollow, -⟩ := hbeside.sibling
  have hlocate : tree.locate write.target = base.locate write.target :=
    FileTree.locate_congr ((hbeside.directoriesWithin.follow hfollow).trans hfollow.symm)
  unfold FileTree.replace FileTree.landing
  rw [hlocate]
  cases base.locate write.target with
  | error error => rfl
  | ok found =>
      cases found with
      | none => rfl
      | some place =>
          dsimp only [bind, Except.bind]
          rw [hsource]
          by_cases hbar : base.get? place = some .directory
          · rw [if_pos hbar, (hdirectory place).mpr hbar]
            rfl
          · rw [if_neg hbar]
            split
            next _ hother => exact absurd ((hdirectory place).mp hother) hbar
            next heq _ =>
              cases heq
              rfl
            next heq => cases heq
            next heq => cases heq

/-- Where a write puts its content, or what it fails with, once its temporary file is beside its
target. -/
def verdict (write : Write) (mishap : Option WriteError) (base : FileTree) :
    Except WriteError Place :=
  match mishap with
  | some error => .error error
  | none => do
      write.check write.content
      (base.landing write.target).mapError (.file · write.target)

theorem verdict_eq_ok_iff {place : Place} : write.verdict mishap base = .ok place ↔
    mishap = none ∧ write.check write.content = .ok () ∧
      base.locate write.target = .ok (some place) ∧ base.get? place ≠ some .directory := by
  cases mishap with
  | some error => exact iff_of_false (by rintro ⟨⟩) (by rintro ⟨⟨⟩, -⟩)
  | none =>
      rw [verdict, bind_eq_ok, ← FileTree.landing_eq_ok_iff]
      constructor
      · rintro ⟨⟨⟩, hcheck, hlanding⟩
        exact ⟨rfl, hcheck, mapError_eq_ok.mp hlanding⟩
      · rintro ⟨-, hcheck, hlanding⟩
        exact ⟨(), hcheck, mapError_eq_ok.mpr hlanding⟩

/-- What holds at a stage of a write whose temporary file was made in a base. -/
def Judged (write : Write) (mishap : Option WriteError) (base tree : FileTree) : Stage → Prop
  | .fresh => False
  | .placed => False
  | .filling temporary left => ∃ written, write.Beside base temporary written tree ∧
      written ++ String.join left = write.content
  | .checked temporary => mishap = none ∧ write.check write.content = .ok () ∧
      write.Beside base temporary write.content tree
  | .failing temporary error => write.verdict mishap base = .error error ∧
      ∃ written, write.Beside base temporary written tree
  | .finished (.ok ()) => ∃ place, write.verdict mishap base = .ok place ∧ tree.home = base.home ∧
      ∀ other, tree.get? other =
        if other = place then some (.file write.content) else base.get? other
  | .finished (.error error) => write.verdict mishap base = .error error ∧ tree.home = base.home ∧
      ∀ place, tree.get? place = base.get? place

theorem step_judged {stage : Stage} (hstage : write.Judged mishap base tree stage)
    (tag : Option String) :
    write.Judged mishap base (write.step ⟨tag, mishap⟩ tree stage).1
      (write.step ⟨tag, mishap⟩ tree stage).2 := by
  cases stage with
  | fresh => exact hstage.elim
  | placed => exact hstage.elim
  | filling temporary left =>
      obtain ⟨written, hbeside, hcontent⟩ := hstage
      cases mishap with
      | some error => exact ⟨rfl, written, hbeside⟩
      | none =>
      cases left with
      | cons piece left =>
          refine ⟨written ++ piece, hbeside.append piece, ?_⟩
          rw [String.append_assoc, ← String.join_cons]
          exact hcontent
      | nil =>
          rw [String.join_nil, String.append_empty] at hcontent
          subst hcontent
          unfold step
          dsimp only
          split
          next hcheck => exact ⟨rfl, hcheck, hbeside⟩
          next error hcheck =>
            refine ⟨?_, _, hbeside⟩
            rw [verdict, hcheck]
            rfl
  | checked temporary =>
      obtain ⟨rfl, hcheck, hbeside⟩ := hstage
      have hverdict : write.verdict none base =
          (base.landing write.target).mapError (.file · write.target) := by
        rw [verdict, hcheck]
        rfl
      rw [step, hbeside.replace_eq]
      cases hlanding : base.landing write.target with
      | error error =>
          rw [hlanding] at hverdict
          exact ⟨hverdict, _, hbeside⟩
      | ok place =>
          have hlocate := (FileTree.landing_eq_ok_iff.mp hlanding).1
          rw [hlanding] at hverdict
          exact ⟨place, hverdict, hbeside.home,
            hbeside.get?_put_remove (FileTree.ne_nil_of_locate hlocate) _⟩
  | failing temporary error =>
      obtain ⟨hverdict, written, hbeside⟩ := hstage
      exact ⟨hverdict, hbeside.home, hbeside.get?_remove⟩
  | finished result => exact hstage

theorem continueFrom_judged (count : Nat) {stage : Stage}
    (hstage : write.Judged mishap base tree stage) :
    write.Judged mishap base (write.continueFrom mishap count tree stage).1
      (write.continueFrom mishap count tree stage).2 := by
  induction count generalizing tree stage with
  | zero => exact hstage
  | succ count ih =>
      rw [continueFrom_succ]
      exact ih (step_judged hstage _)

/-! ## The whole write -/

/-- What a write does from its start to its end. -/
inductive Performs (write : Write) (mishap : Option WriteError) (before after : FileTree) :
    Except WriteError Unit → Prop
  | barred {error : FileError} {path : Path}
      (hmade : before.makeDirectories write.folder = (after, .error (error, path))) :
      Performs write mishap before after (.error (.file error path))
  | cramped {tag : String} {cause : FileError} {path : Path}
      (hmade : before.makeDirectories write.folder = (after, .ok ())) (htag : IsTag tag)
      (hlocate : after.locateBelow write.folder (write.temporaryName tag) = .error cause) :
      Performs write mishap before after (.error (.file cause path))
  | exhausted (hmade : before.makeDirectories write.folder = (after, .ok ()))
      (htaken : ∀ tag, IsTag tag → write.Taken after tag) :
      Performs write mishap before after (.error .noFreeName)
  | refused {made : FileTree} {error : WriteError}
      (hmade : before.makeDirectories write.folder = (made, .ok ())) (hroom : write.HasRoom made)
      (hverdict : write.verdict mishap made = .error error) (hhome : after.home = made.home)
      (hentries : ∀ place, after.get? place = made.get? place) :
      Performs write mishap before after (.error error)
  | replaced {made : FileTree} {place : Place}
      (hmade : before.makeDirectories write.folder = (made, .ok ())) (hroom : write.HasRoom made)
      (hverdict : write.verdict mishap made = .ok place) (hhome : after.home = made.home)
      (hentries : ∀ other, after.get? other =
        if other = place then some (.file write.content) else made.get? other) :
      Performs write mishap before after (.ok ())

theorem perform_performs (write : Write) (before : FileTree) (mishap : Option WriteError) :
    write.Performs mishap before (write.perform before mishap).1
      (write.perform before mishap).2 := by
  rw [perform, stepCount, continueFrom_succ, step]
  cases hmade : before.makeDirectories write.folder with
  | mk made result =>
  cases result with
  | error failure =>
      dsimp only
      rw [continueFrom_finished]
      exact .barred hmade
  | ok done =>
      dsimp only
      rw [continueFrom_succ, step]
      by_cases hroom : write.HasRoom made
      · obtain ⟨temporary, filled, hplace, hbeside⟩ := place_of_hasRoom hroom
        have hjudged := continueFrom_judged (write.pieces.length + 4)
          (show write.Judged mishap made filled (.filling temporary write.pieces) from
            ⟨"", hbeside, String.empty_append⟩)
        obtain ⟨result, hfinishes⟩ := @continueFrom_finishes write filled mishap
          (write.pieces.length + 4) _ (.filling temporary write.pieces) rfl (by omega)
        rw [hplace]
        dsimp only
        generalize write.continueFrom mishap (write.pieces.length + 4) filled
          (.filling temporary write.pieces) = outcome at hjudged hfinishes ⊢
        obtain ⟨after, stage⟩ := outcome
        dsimp only at hjudged hfinishes ⊢
        subst hfinishes
        cases result with
        | error error =>
            obtain ⟨hverdict, hhome, hentries⟩ := hjudged
            exact .refused hmade hroom hverdict hhome hentries
        | ok done =>
            obtain ⟨place, hverdict, hhome, hentries⟩ := hjudged
            exact .replaced hmade hroom hverdict hhome hentries
      · obtain ⟨error, hplace, hwhy⟩ := place_of_not_hasRoom hroom
        rw [hplace]
        dsimp only
        rw [continueFrom_finished]
        rcases hwhy with ⟨rfl, htaken⟩ | ⟨tag, cause, htag, hlocate, rfl⟩
        · exact .exhausted hmade htaken
        · exact .cramped hmade htag hlocate

end Write

end Exemplar
