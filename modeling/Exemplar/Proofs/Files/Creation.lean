import Exemplar.Proofs.Files.Outcome

/-!
# When a write succeeds

A write needs the directories above its target, room beside the target for the
temporary file, and a target that is no directory. It succeeds just where it has
all this, the content can be stored and its check accepts the content.
-/

namespace Exemplar

namespace FileTree

/-- A path leads to a place where a file can be put. -/
def LeadsToFile (tree : FileTree) (path : Path) : Prop :=
  ∃ place, tree.locate path = .ok (some place) ∧ tree.get? place ≠ some .directory

/-- A file can be written at once where a path leads: the directories above it can be made, there is
room for a temporary file beside it, and it is no directory itself. -/
def CanCreate (tree : FileTree) (target : Path) : Prop :=
  let write : Write := ⟨target, [], .none⟩
  ∃ made, tree.makeDirectories write.folder = (made, .ok ()) ∧ write.HasRoom made ∧
    made.LeadsToFile target

theorem canCreate_iff {tree made : FileTree} {target : Path} (write : Write)
    (htarget : write.target = target)
    (hmade : tree.makeDirectories write.folder = (made, .ok ())) :
    tree.CanCreate target ↔ write.HasRoom made ∧ made.LeadsToFile target := by
  subst htarget
  constructor
  · rintro ⟨other, hother, hroom, hleads⟩
    cases hmade.symm.trans hother
    exact ⟨hroom, hleads⟩
  · rintro ⟨hroom, hleads⟩
    exact ⟨made, hmade, hroom, hleads⟩

end FileTree

/-- A write succeeds just where its target can be written, nothing keeps its content from being
stored, and its check accepts the content. -/
theorem Write.perform_eq_ok_iff (write : Write) (tree : FileTree) (mishap : Option WriteError) :
    (write.perform tree mishap).2 = .ok () ↔
      mishap = none ∧ write.check write.content = .ok () ∧ tree.CanCreate write.target := by
  have hperforms := write.perform_performs tree mishap
  generalize write.perform tree mishap = outcome at hperforms ⊢
  obtain ⟨after, result⟩ := outcome
  dsimp only at hperforms ⊢
  cases hperforms with
  | barred hmade =>
      refine iff_of_false (by rintro ⟨⟩) ?_
      rintro ⟨-, -, made, hmade', -⟩
      cases hmade.symm.trans hmade'
  | cramped hmade htag hlocate =>
      refine iff_of_false (by rintro ⟨⟩) ?_
      rintro ⟨-, -, hcan⟩
      obtain ⟨⟨tag, temporary, htag', hlocate', -⟩, -⟩ :=
        (FileTree.canCreate_iff write rfl hmade).mp hcan
      obtain ⟨directory, -, hfollow, -⟩ := FileTree.locateBelow_eq_ok.mp hlocate'
      rw [locateBelow_of_isTag htag' htag hlocate' rfl hfollow] at hlocate
      cases hlocate
  | exhausted hmade htaken =>
      refine iff_of_false (by rintro ⟨⟩) ?_
      rintro ⟨-, -, hcan⟩
      obtain ⟨⟨tag, temporary, htag, hlocate, hnone⟩, -⟩ :=
        (FileTree.canCreate_iff write rfl hmade).mp hcan
      obtain ⟨temporary', hlocate', hused⟩ := htaken tag htag
      rw [hlocate] at hlocate'
      cases hlocate'
      exact hused hnone
  | refused hmade hroom hverdict =>
      refine iff_of_false (by rintro ⟨⟩) ?_
      rintro ⟨hmishap, hcheck, hcan⟩
      obtain ⟨-, place, hleads⟩ := (FileTree.canCreate_iff write rfl hmade).mp hcan
      rw [verdict_eq_ok_iff.mpr ⟨hmishap, hcheck, hleads⟩] at hverdict
      cases hverdict
  | replaced hmade hroom hverdict =>
      obtain ⟨hmishap, hcheck, hleads⟩ := verdict_eq_ok_iff.mp hverdict
      exact iff_of_true rfl ⟨hmishap, hcheck,
        (FileTree.canCreate_iff write rfl hmade).mpr ⟨hroom, _, hleads⟩⟩

/-! ## Modes -/

namespace FileTree

variable {tree tree' : FileTree}

/-- A name that is not too long in one tree is not too long in any. -/
theorem enter_ne_nameTooLong {directory place : Place} {name : String}
    (henter : tree.enter directory name = .ok place) (directory' : Place) :
    tree'.enter directory' name ≠ .error .nameTooLong := by
  unfold enter at henter ⊢
  split
  next => rintro ⟨⟩
  next hstay =>
    rw [if_neg hstay] at henter
    split at henter
    next => cases henter
    next hshort =>
      rw [if_neg hshort]
      split <;> rintro ⟨⟩

theorem foldlM_ne_nameTooLong {path : Path} {start place : Place}
    (hfold : path.foldlM tree.enter start = .ok place) (start' : Place) :
    path.foldlM tree'.enter start' ≠ .error .nameTooLong := by
  induction path generalizing start start' with
  | nil => rintro ⟨⟩
  | cons name rest ih =>
      rw [List.foldlM_cons] at hfold ⊢
      obtain ⟨middle, henter, hrest⟩ := bind_eq_ok.mp hfold
      cases henter' : tree'.enter start' name with
      | ok middle' => exact ih hrest middle'
      | error error =>
          have hother := @enter_ne_nameTooLong tree tree' _ _ _ henter start'
          rw [henter'] at hother
          exact hother

theorem follow_ne_nameTooLong {path : Path} {place : Place}
    (hfollow : tree.follow path = .ok place) : tree'.follow path ≠ .error .nameTooLong := by
  obtain ⟨_, hcheck, hfold⟩ := bind_eq_ok.mp hfollow
  unfold follow
  rw [hcheck]
  exact foldlM_ne_nameTooLong hfold tree'.home

theorem locate_eq_map {path : Path} {last : String} (hcheck : checkPath path = .ok ())
    (hlast : path.getLast? = some last) (hstay : Path.leadsAway last = false)
    (hshort : last.utf8ByteSize ≤ Path.longestName) :
    tree.locate path = (tree.follow path.dropLast).map fun directory =>
      some (directory ++ [last]) := by
  unfold locate
  rw [hcheck, hlast]
  simp only [hstay, if_neg (Nat.not_lt_of_le hshort), if_neg Bool.false_ne_true]
  rfl

/-- Nor is a path at which one tree has a place. -/
theorem lookUp_ne_nameTooLong {path : Path} {place : Place}
    (hlocate : tree.locate path = .ok (some place)) : tree'.lookUp path ≠ .error .nameTooLong := by
  obtain ⟨last, directory, hcheck, hlast, hfollow, hstay, hshort, -⟩ := locate_eq_some.mp hlocate
  have hother := @follow_ne_nameTooLong tree tree' _ _ hfollow
  unfold lookUp
  rw [locate_eq_map hcheck hlast hstay hshort]
  cases hfollow' : tree'.follow path.dropLast with
  | error error =>
      rw [hfollow'] at hother
      exact fun heq => hother (congrArg Except.error (Except.error.inj heq))
  | ok directory' =>
      intro heq
      dsimp only [Except.map, bind, Except.bind] at heq
      split at heq <;> cases heq

end FileTree

namespace Writer

variable (writer : Writer)

/-- A writer that is given a mode succeeds just where the mode allows the target, the target can be
written, nothing keeps the content from being stored, and the content passes the check. -/
theorem writeWithMode_eq_ok_iff (tree : FileTree) (target : Path) (content : String)
    (mode : OutputMode) (format : String) (mishap : Option WriteError) :
    (writer.writeWithMode tree target content mode format mishap).2 = .ok () ↔
      mishap = none ∧ writer.checkFor format true content = .ok () ∧
        (mode = .force ∨ tree.find? target = none) ∧ tree.CanCreate target := by
  have hwrite : (writer.write tree target content format true mishap).2 = .ok () ↔
      mishap = none ∧ writer.checkFor format true content = .ok () ∧ tree.CanCreate target := by
    have hperform :=
      Write.perform_eq_ok_iff ⟨target, [content], writer.checkFor format true⟩ tree mishap
    rwa [Write.content_singleton] at hperform
  unfold writeWithMode
  dsimp only
  cases mode with
  | force => simpa using hwrite
  | error =>
      unfold FileTree.find?
      cases hlookUp : tree.lookUp target with
      | ok entry => simp [Except.toOption]
      | error error =>
          cases error with
          | nameTooLong =>
              refine iff_of_false (by rintro ⟨⟩) ?_
              rintro ⟨-, -, -, made, -, -, place, hlocate, -⟩
              exact FileTree.lookUp_ne_nameTooLong hlocate hlookUp
          | _ => simpa [Except.toOption] using hwrite

end Writer

end Exemplar
