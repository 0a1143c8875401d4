import Exemplar.Proofs.Files.Making
import Exemplar.Proofs.Files.Outcome

/-!
# Sessions of a writer

Calls of a writer follow one another on the same tree. Whatever the calls, the
files after each of them are those before, but for the target of a call that
succeeds; so every file holds what was last written to it, or what it held at
the start, and there is no other file. A call that must not replace its target is
refused where the target exists; but whether it does is asked before directories
are made, and they may open a way to a file that stood behind a missing one.
-/

namespace Exemplar

open FileTree (AddsDirectories)

/-- What a finished write leaves: its content at its target and every other file as it was, or, if
it failed, every file as it was. -/
inductive Settles (before after : FileTree) (target : Path) (content : String) :
    Except WriteError Unit → Prop
  | returned {place : Place} (hplace : after.locate target = .ok (some place))
      (hsame : ∀ place', before.locate target = .ok (some place') → place' = place)
      (hfiles : ∀ other, after.content? other =
        if other = place then some content else before.content? other) :
      Settles before after target content (.ok ())
  | raised {error : WriteError} (hfiles : ∀ place, after.content? place = before.content? place) :
      Settles before after target content (.error error)

theorem settles_refused (tree : FileTree) (target : Path) (content : String) (error : WriteError) :
    Settles tree tree target content (.error error) :=
  .raised fun _ => rfl

theorem perform_settles (write : Write) (tree : FileTree) (mishap : Option WriteError) :
    Settles tree (write.perform tree mishap).1 write.target write.content
      (write.perform tree mishap).2 := by
  have hholds := write.perform_holds tree mishap
  generalize write.perform tree mishap = outcome at hholds
  obtain ⟨after, result⟩ := outcome
  cases result with
  | error error => exact .raised hholds.content?
  | ok done =>
      obtain ⟨-, base, hadds, hdirectories, place, hlocate, hentries⟩ := hholds
      refine .returned hlocate (fun place' hlocate' => ?_) fun other => ?_
      · have hstill := hdirectories.locate (hadds.directoriesWithin.locate hlocate')
        rw [hlocate] at hstill
        cases hstill
        rfl
      · rw [← hadds.content? other]
        unfold FileTree.content?
        by_cases heq : other = place
        · rw [hentries, if_pos heq, if_pos heq]
        · rw [hentries, if_neg heq, if_neg heq]

theorem check_of_perform {write : Write} {tree : FileTree} {mishap : Option WriteError}
    (hdone : (write.perform tree mishap).2 = .ok ()) : write.check write.content = .ok () := by
  have hholds := write.perform_holds tree mishap
  rw [hdone] at hholds
  exact hholds.1

/-- A write that succeeds has found its target's folder, or nothing but missing directories on the
way to it. -/
theorem eq_missing_of_perform {write : Write} {tree : FileTree} {mishap : Option WriteError}
    (hdone : (write.perform tree mishap).2 = .ok ()) {error : FileError}
    (hfollow : tree.follow write.folder = .error error) : error = .missing := by
  have hperforms := write.perform_performs tree mishap
  rw [hdone] at hperforms
  cases hperforms with
  | replaced hmade =>
      obtain ⟨directory, hmadeWay⟩ := FileTree.follow_of_makeDirectories hmade
      have hadds := FileTree.addsDirectories_makeDirectories tree write.folder
      rw [hmade] at hadds
      by_contra hbarred
      rw [hadds.follow_eq_error hfollow hbarred] at hmadeWay
      cases hmadeWay

namespace Writer

variable (writer : Writer)

/-! ## Calls -/

/-- The write that a call makes unless it is refused. -/
def writeFor (call : Call) : Write :=
  ⟨call.target, [call.content], writer.checkFor call.format (call.validate || call.mode.isSome)⟩

/-- Why a target may not be written in a mode. -/
def refusalFor? (mode : OutputMode) (tree : FileTree) (target : Path) : Option WriteError :=
  match mode, tree.lookUp target with
  | .force, _ => none
  | .error, .ok _ => some (.targetExists target)
  | .error, .error .nameTooLong => some (.file .nameTooLong target)
  | .error, .error _ => none

/-- Why a call is refused before anything is written. -/
def Call.refusal? (call : Call) (tree : FileTree) : Option WriteError :=
  match call.mode with
  | none => none
  | some name =>
      match OutputMode.ofName? name with
      | none => some .unknownMode
      | some mode => refusalFor? mode tree call.target

theorem writeWithMode_eq (tree : FileTree) (target : Path) (content : String) (mode : OutputMode)
    (format : String) (mishap : Option WriteError) :
    writer.writeWithMode tree target content mode format mishap =
      match refusalFor? mode tree target with
      | some error => (tree, .error error)
      | none => writer.write tree target content format true mishap := by
  unfold writeWithMode refusalFor?
  cases mode with
  | force => rfl
  | error =>
      cases tree.lookUp target with
      | ok entry => rfl
      | error error => cases error <;> rfl

theorem call_eq (tree : FileTree) (call : Call) :
    writer.call tree call =
      match call.refusal? tree with
      | some error => (tree, .error error)
      | none => (writer.writeFor call).perform tree call.mishap := by
  unfold Writer.call Call.refusal? writeFor
  cases call.mode with
  | none =>
      dsimp only [Option.isSome_none]
      rw [Bool.or_false]
      rfl
  | some name =>
      dsimp only [Option.isSome_some]
      rw [Bool.or_true]
      cases OutputMode.ofName? name with
      | none => rfl
      | some mode =>
          exact writer.writeWithMode_eq tree call.target call.content mode call.format call.mishap

theorem Call.refusal_of_exists {call : Call} {tree : FileTree} {entry : Entry}
    (hmode : call.mode = some "error") (hexists : tree.lookUp call.target = .ok entry) :
    call.refusal? tree = some (.targetExists call.target) := by
  unfold Call.refusal?
  rw [hmode]
  unfold refusalFor?
  rw [hexists]
  rfl

theorem write_settles (tree : FileTree) (target : Path) (content format : String)
    (validate : Bool) (mishap : Option WriteError) :
    Settles tree (writer.write tree target content format validate mishap).1 target content
      (writer.write tree target content format validate mishap).2 := by
  have hsettles :=
    perform_settles ⟨target, [content], writer.checkFor format validate⟩ tree mishap
  rwa [Write.content_singleton] at hsettles

theorem writeWithMode_settles (tree : FileTree) (target : Path) (content : String)
    (mode : OutputMode) (format : String) (mishap : Option WriteError) :
    Settles tree (writer.writeWithMode tree target content mode format mishap).1 target content
      (writer.writeWithMode tree target content mode format mishap).2 := by
  rw [writeWithMode_eq]
  cases refusalFor? mode tree target with
  | some error => exact settles_refused ..
  | none => exact writer.write_settles tree _ _ _ _ _

/-- A target that must not be replaced is refused wherever it exists. -/
theorem writeWithMode_of_exists {tree : FileTree} {target : Path} {entry : Entry}
    (hexists : tree.lookUp target = .ok entry) (content format : String)
    (mishap : Option WriteError) :
    writer.writeWithMode tree target content .error format mishap =
      (tree, .error (.targetExists target)) := by
  unfold writeWithMode
  rw [hexists]

theorem call_settles (tree : FileTree) (call : Call) :
    Settles tree (writer.call tree call).1 call.target call.content (writer.call tree call).2 := by
  rw [call_eq]
  cases call.refusal? tree with
  | some error => exact settles_refused ..
  | none => exact writer.write_settles tree _ _ _ _ _

/-- A call that succeeds has made its write. -/
theorem perform_of_call {tree : FileTree} {call : Call}
    (hdone : (writer.call tree call).2 = .ok ()) :
    ((writer.writeFor call).perform tree call.mishap).2 = .ok () := by
  rw [call_eq] at hdone
  cases hrefusal : call.refusal? tree with
  | some error =>
      rw [hrefusal] at hdone
      cases hdone
  | none => rwa [hrefusal] at hdone

/-- Whether the content of a call is checked as JSON: a call with a mode cannot do without. -/
def Call.checksJson (call : Call) : Bool :=
  call.format == "json" && (call.validate || call.mode.isSome)

/-- What a call that checks JSON has written passed the check. -/
theorem check_of_call {tree : FileTree} {call : Call} (hchecks : call.checksJson = true)
    (hdone : (writer.call tree call).2 = .ok ()) : writer.jsonCheck call.content = .ok () := by
  have hcheck := check_of_perform (writer.perform_of_call hdone)
  rw [Call.checksJson, Bool.and_comm] at hchecks
  rwa [writeFor, Write.content_singleton, checkFor, if_pos hchecks] at hcheck

/-- A call that must not replace its target is refused wherever the target exists. -/
theorem call_eq_of_exists {tree : FileTree} {call : Call} {entry : Entry}
    (hmode : call.mode = some "error") (hexists : tree.lookUp call.target = .ok entry) :
    writer.call tree call = (tree, .error (.targetExists call.target)) := by
  rw [call_eq, Call.refusal_of_exists hmode hexists]

/-- A call that must not replace its target changes a file only behind a directory that was missing
when the target was looked up. -/
theorem missing_of_replaced {tree : FileTree} {call : Call} (hmode : call.mode = some "error")
    {place : Place} {content : String} (hfile : tree.content? place = some content)
    (hchanged : (writer.call tree call).1.content? place ≠ some content) :
    (writer.call tree call).2 = .ok () ∧
      (writer.call tree call).1.locate call.target = .ok (some place) ∧
      tree.follow call.target.dropLast = .error .missing := by
  have hsettles := writer.call_settles tree call
  have hmissing (hdone : (writer.call tree call).2 = .ok ()) (error : FileError)
      (hfollow : tree.follow call.target.dropLast = .error error) : error = .missing :=
    eq_missing_of_perform (writer.perform_of_call hdone) hfollow
  have hrefused (entry : Entry) (hexists : tree.lookUp call.target = .ok entry) :
      (writer.call tree call).2 = .error (.targetExists call.target) := by
    rw [writer.call_eq_of_exists hmode hexists]
  generalize writer.call tree call = outcome at hsettles hmissing hrefused hchanged ⊢
  obtain ⟨after, result⟩ := outcome
  cases hsettles with
  | raised hfiles => exact absurd ((hfiles place).trans hfile) hchanged
  | @returned target hlocate hsame hfiles =>
      dsimp only at hchanged hmissing hrefused hlocate hfiles ⊢
      have heq : place = target := by
        by_contra hne
        rw [hfiles, if_neg hne] at hchanged
        exact hchanged hfile
      subst heq
      refine ⟨rfl, hlocate, ?_⟩
      cases hfollow : tree.follow call.target.dropLast with
      | error error => rw [hmissing rfl error hfollow]
      | ok directory =>
          -- then the target would have been found, and the call refused
          obtain ⟨place', hlocate'⟩ := FileTree.exists_locate_of_follow hlocate hfollow
          obtain rfl := hsame _ hlocate'
          have hexists := FileTree.lookUp_of_locate hlocate' (FileTree.get?_of_content? hfile)
          cases hrefused _ hexists

/-! ## Sessions -/

/-- The tree that calls leave. -/
def treeAfter (tree : FileTree) (calls : List Call) : FileTree :=
  calls.foldl (fun tree call => (writer.call tree call).1) tree

theorem treeAfter_cons (tree : FileTree) (first : Call) (rest : List Call) :
    writer.treeAfter tree (first :: rest) = writer.treeAfter (writer.call tree first).1 rest :=
  rfl

theorem calls_append (tree : FileTree) (done rest : List Call) :
    writer.calls tree (done ++ rest) =
      writer.calls tree done ++ writer.calls (writer.treeAfter tree done) rest := by
  induction done generalizing tree with
  | nil => rfl
  | cons first done ih =>
      exact congrArg (List.cons ((writer.call tree first).2, (writer.call tree first).1))
        (ih (writer.call tree first).1)

theorem length_calls (tree : FileTree) (calls : List Call) :
    (writer.calls tree calls).length = calls.length := by
  induction calls generalizing tree with
  | nil => rfl
  | cons first rest ih => rw [Writer.calls, List.length_cons, ih, List.length_cons]

/-- The write of a call, if it succeeded: where, and what. -/
def writeOf? (before : FileTree) (call : Call) : Option (Place × String) :=
  match writer.call before call with
  | (after, .ok ()) =>
      match after.locate call.target with
      | .ok (some place) => some (place, call.content)
      | _ => none
  | (_, .error _) => none

/-- The writes of calls that succeeded, the last one first, after those made before. -/
def writesOnto (tree : FileTree) (made : List (Place × String)) :
    List Call → List (Place × String)
  | [] => made
  | first :: rest =>
      writesOnto (writer.call tree first).1 ((writer.writeOf? tree first).toList ++ made) rest

/-- The content of the latest of writes to a place, the last one coming first. -/
def latest? (writes : List (Place × String)) (place : Place) : Option String :=
  (writes.find? (·.1 == place)).map (·.2)

theorem latest?_cons (place : Place) (content : String) (writes : List (Place × String))
    (other : Place) : latest? ((place, content) :: writes) other =
      if other = place then some content else latest? writes other := by
  unfold latest?
  by_cases heq : other = place
  · subst heq
    simp
  · rw [if_neg heq, List.find?_cons_of_neg]
    simpa using Ne.symm heq

/-- A call that succeeds makes its write the latest one, and any other call makes none. -/
theorem content?_call (initial tree : FileTree) (made : List (Place × String)) (call : Call)
    (hfiles : ∀ place, tree.content? place = (latest? made place).or (initial.content? place))
    (place : Place) : (writer.call tree call).1.content? place =
      (latest? ((writer.writeOf? tree call).toList ++ made) place).or (initial.content? place) := by
  have hsettles := writer.call_settles tree call
  unfold writeOf?
  generalize writer.call tree call = outcome at hsettles
  obtain ⟨after, result⟩ := outcome
  cases hsettles with
  | returned hplace _ hchanged =>
      dsimp only at hplace hchanged ⊢
      rw [hplace]
      dsimp only [Option.toList_some, List.singleton_append]
      rw [latest?_cons, hchanged]
      split
      next => rfl
      next => exact hfiles place
  | raised hchanged => exact (hchanged place).trans (hfiles place)

/-- After any calls every file holds the latest content written to it, or what it held before. -/
theorem content?_treeAfter (initial tree : FileTree) (made : List (Place × String))
    (calls : List Call)
    (hfiles : ∀ place, tree.content? place = (latest? made place).or (initial.content? place))
    (place : Place) : (writer.treeAfter tree calls).content? place =
      (latest? (writer.writesOnto tree made calls) place).or (initial.content? place) := by
  induction calls generalizing tree made with
  | nil => exact hfiles place
  | cons first rest ih => exact ih _ _ (writer.content?_call initial tree made first hfiles)

/-- In any session each call either puts its content at its target and changes no other file, or
fails and changes no file; so every file holds the latest content written to it, or what it held at
the start. What is to be JSON has passed the check. A target that is not to be replaced stays where
it is found; a file that is replaced all the same is one to which the target's path leads only once
directories have been made. -/
theorem session_all_or_nothing (initial : FileTree) (done : List Call) (call : Call)
    (rest : List Call) :
    ∃ result after, (writer.calls initial (done ++ call :: rest))[done.length]? =
        some (result, after) ∧
      Settles (writer.treeAfter initial done) after call.target call.content result ∧
      (∀ place, after.content? place =
        (latest? (writer.writesOnto initial [] (done ++ [call])) place).or
          (initial.content? place)) ∧
      (result = .ok () → call.checksJson = true → writer.jsonCheck call.content = .ok ()) ∧
      (call.mode = some "error" → ∀ entry,
        (writer.treeAfter initial done).lookUp call.target = .ok entry →
          result = .error (.targetExists call.target) ∧ after = writer.treeAfter initial done) ∧
      (call.mode = some "error" → ∀ place content,
        (writer.treeAfter initial done).content? place = some content →
          after.content? place ≠ some content →
            result = .ok () ∧ after.locate call.target = .ok (some place) ∧
              (writer.treeAfter initial done).follow call.target.dropLast = .error .missing) := by
  have hafter : writer.treeAfter initial (done ++ [call]) =
      (writer.call (writer.treeAfter initial done) call).1 := by
    rw [treeAfter, List.foldl_append]
    rfl
  refine ⟨(writer.call (writer.treeAfter initial done) call).2,
    (writer.call (writer.treeAfter initial done) call).1, ?_, writer.call_settles _ call, ?_,
    fun hdone hchecks => writer.check_of_call hchecks hdone, fun hmode entry hexists => ?_,
    fun hmode place content hfile hchanged => writer.missing_of_replaced hmode hfile hchanged⟩
  · rw [calls_append, List.getElem?_append_right (Nat.le_of_eq (writer.length_calls initial done)),
      writer.length_calls, Nat.sub_self]
    rfl
  · intro place
    rw [← hafter]
    exact writer.content?_treeAfter initial initial [] _ (fun _ => rfl) place
  · rw [writer.call_eq_of_exists hmode hexists]
    exact ⟨rfl, rfl⟩

/-- A target that goes up from a directory not yet made is not found, and so the file that it leads
to in the end is replaced although no file was to be. -/
theorem mode_error_replaces_file :
    let before : FileTree := ⟨[(["f.json"], .file "old")], []⟩
    let call : Call := { target := ["new", "..", "f.json"], content := "1", mode := some "error" }
    before.content? ["f.json"] = some "old" ∧ before.lookUp call.target = .error .missing ∧
      (({} : Writer).call before call).2 = .ok () ∧
      (({} : Writer).call before call).1.content? ["f.json"] = some "1" := by
  decide +kernel

end Writer

end Exemplar
