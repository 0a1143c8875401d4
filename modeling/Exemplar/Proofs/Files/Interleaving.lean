import Exemplar.Proofs.Files.Atomicity
import Mathlib.Logic.Function.Basic

/-!
# Writers at work on one tree

Any number of writes are carried out on the same tree, one step of one of them at a
time, in any order; a writer that is stopped takes no more steps. Each temporary
file belongs to one writer and holds what that writer has got to, and a target is
touched by a replacement alone. So at every moment a file holds what it held at the
start or the whole content of a write that has succeeded, besides the temporary
files of writers that are not done.
-/

namespace Exemplar

/-! ## What one step does -/

namespace Write

variable {write : Write} {tree : FileTree} {stage : Stage}

/-- The place of the temporary file that a write has at a stage. -/
def Stage.temporary? : Stage → Option Place
  | .fresh => none
  | .placed => none
  | .filling temporary _ => some temporary
  | .checked temporary => some temporary
  | .failing temporary _ => some temporary
  | .finished _ => none

/-- The temporary file is there, with what has been written so far. -/
def Progress (write : Write) (tree : FileTree) : Stage → Prop
  | .filling temporary left => ∃ written, tree.get? temporary = some (.file written) ∧
      written ++ String.join left = write.content
  | .checked temporary => write.check write.content = .ok () ∧
      tree.get? temporary = some (.file write.content)
  | .failing temporary _ => ∃ written, tree.get? temporary = some (.file written)
  | _ => True

theorem Progress.exists_file (hprogress : write.Progress tree stage) {place : Place}
    (hplace : stage.temporary? = some place) :
    ∃ written, tree.get? place = some (.file written) := by
  cases stage with
  | filling temporary left =>
      cases hplace
      obtain ⟨written, hfile, -⟩ := hprogress
      exact ⟨written, hfile⟩
  | checked temporary =>
      cases hplace
      exact ⟨_, hprogress.2⟩
  | failing temporary error =>
      cases hplace
      exact hprogress
  | fresh => cases hplace
  | placed => cases hplace
  | finished result => cases hplace

theorem Progress.congr {tree' : FileTree} (hprogress : write.Progress tree stage)
    (hsame : ∀ place, stage.temporary? = some place → tree'.get? place = tree.get? place) :
    write.Progress tree' stage := by
  cases stage with
  | filling temporary left => rwa [Progress, hsame temporary rfl]
  | checked temporary => rwa [Progress, hsame temporary rfl]
  | failing temporary error => rwa [Progress, hsame temporary rfl]
  | _ => trivial

/-- Without a temporary file, and not successful. -/
inductive Stage.Idle : Stage → Prop
  | placed : Idle .placed
  | refused (error : WriteError) : Idle (.finished (.error error))

/-- What a step of a write does to the tree and to the stage. -/
inductive Transition (write : Write) (tag : Option String) (tree : FileTree) :
    Stage → FileTree → Stage → Prop
  | enter {made : FileTree} {stage : Stage} (hadds : tree.AddsDirectories made)
      (hidle : stage.Idle) : Transition write tag tree .fresh made stage
  | wait {stage : Stage} (hidle : stage.Idle) : Transition write tag tree .placed tree stage
  | create {temporary : Place} {text : String} (htag : tag = some text) (hplace : temporary ≠ [])
      (hname : temporary.getLast? = some (write.temporaryName text))
      (hfree : tree.get? temporary = none) :
      Transition write tag tree .placed (tree.put temporary (.file ""))
        (.filling temporary write.pieces)
  | fill {temporary : Place} {written piece : String} {left : List String}
      (hfile : tree.get? temporary = some (.file written)) :
      Transition write tag tree (.filling temporary (piece :: left))
        (tree.put temporary (.file (written ++ piece))) (.filling temporary left)
  | accept {temporary : Place} (hcheck : write.check write.content = .ok ()) :
      Transition write tag tree (.filling temporary []) tree (.checked temporary)
  | giveUp {stage : Stage} {temporary : Place} (error : WriteError)
      (htemporary : stage.temporary? = some temporary) :
      Transition write tag tree stage tree (.failing temporary error)
  | replace {temporary place : Place} (hlocate : tree.locate write.target = .ok (some place))
      (hdirectory : tree.get? place ≠ some .directory) :
      Transition write tag tree (.checked temporary)
        ((tree.remove temporary).put place (.file write.content)) (.finished (.ok ()))
  | clean {temporary : Place} (error : WriteError) :
      Transition write tag tree (.failing temporary error) (tree.remove temporary)
        (.finished (.error error))
  | rest (result : Except WriteError Unit) :
      Transition write tag tree (.finished result) tree (.finished result)

theorem place_transition (write : Write) (tag : Option String) (tree : FileTree) :
    write.Transition tag tree .placed (write.place tag tree).1 (write.place tag tree).2 := by
  unfold place
  split
  next => exact .wait (.refused _)
  next text =>
    dsimp only
    split
    next => exact .wait (.refused _)
    next temporary hlocate =>
      split
      next => exact .wait .placed
      next hfree =>
        obtain ⟨directory, -, -, -, rfl⟩ := FileTree.locateBelow_eq_ok.mp hlocate
        exact .create rfl (List.append_ne_nil_of_right_ne_nil _ (List.cons_ne_nil _ _))
          List.getLast?_concat (by simpa using hfree)

/-- A step is one of the transitions. -/
theorem step_transition (hprogress : write.Progress tree stage) (chance : Chance) :
    write.Transition chance.tag tree stage (write.step chance tree stage).1
      (write.step chance tree stage).2 := by
  cases stage with
  | fresh =>
      have hadds := FileTree.addsDirectories_makeDirectoriesInward tree write.folder.reverse
      rw [step, FileTree.makeDirectories]
      generalize tree.makeDirectoriesInward write.folder.reverse = outcome at hadds
      obtain ⟨made, result⟩ := outcome
      cases result with
      | ok done => exact .enter hadds .placed
      | error failure => exact .enter hadds (.refused _)
  | placed => exact write.place_transition chance.tag tree
  | filling temporary left =>
      obtain ⟨written, hfile, -⟩ := hprogress
      unfold step
      dsimp only
      split
      next => exact .giveUp _ rfl
      next piece left _ =>
        have happend : append tree temporary piece =
            tree.put temporary (.file (written ++ piece)) := by
          unfold append
          rw [hfile]
        rw [happend]
        exact .fill hfile
      next =>
        split
        next hcheck => exact .accept hcheck
        next => exact .giveUp _ rfl
  | checked temporary =>
      rw [step]
      split
      next replaced hreplace =>
        obtain ⟨target, hlocate, hdirectory, rfl⟩ :=
          (FileTree.replace_eq_ok_iff hprogress.2).mp hreplace
        exact .replace hlocate hdirectory
      next => exact .giveUp _ rfl
  | failing temporary error => exact .clean error
  | finished result => exact .rest result

/-- What a step does to one place. -/
inductive Effect (write : Write) (before after : FileTree) (stage stage' : Stage)
    (place : Place) : Prop
  | kept (hsame : after.get? place = before.get? place)
      (htemporary : stage.temporary? = some place → stage'.temporary? = some place)
  | made (hnone : before.get? place = none) (hmade : after.get? place = some .directory)
  | held (htemporary : stage'.temporary? = some place)
  | dropped (htemporary : stage.temporary? = some place) (hnone : after.get? place = none)
  | written (hdone : stage' = .finished (.ok ())) (hcheck : write.check write.content = .ok ())
      (hlocate : before.locate write.target = .ok (some place))
      (hdirectory : before.get? place ≠ some .directory)
      (hwritten : after.get? place = some (.file write.content))

namespace Transition

variable {tag : Option String} {after : FileTree} {stage' : Stage}

/-- The temporary file stays the same, or it takes a free name. -/
theorem temporary (hstep : write.Transition tag tree stage after stage') {place : Place}
    (hplace : stage'.temporary? = some place) :
    stage.temporary? = some place ∨ tree.get? place = none ∧
      ∃ text ∈ tag, place.getLast? = some (write.temporaryName text) := by
  cases hstep with
  | enter _ hidle => cases hidle <;> cases hplace
  | wait hidle => cases hidle <;> cases hplace
  | create htag _ hname hfree =>
      cases hplace
      exact Or.inr ⟨hfree, _, htag, hname⟩
  | fill => exact Or.inl hplace
  | accept => exact Or.inl hplace
  | giveUp _ htemporary => exact Or.inl (htemporary.trans hplace)
  | replace => cases hplace
  | clean => cases hplace
  | rest => cases hplace

theorem progress (hstep : write.Transition tag tree stage after stage')
    (hprogress : write.Progress tree stage) : write.Progress after stage' := by
  cases hstep with
  | enter _ hidle => cases hidle <;> trivial
  | wait hidle => cases hidle <;> trivial
  | create _ hplace =>
      exact ⟨"", (tree.get?_put hplace _ _).trans (if_pos rfl), String.empty_append⟩
  | @fill temporary written piece left hfile =>
      obtain ⟨written', hfile', hcontent⟩ := hprogress
      rw [hfile] at hfile'
      cases hfile'
      refine ⟨written ++ piece, ?_, ?_⟩
      · exact (tree.get?_put (FileTree.ne_nil_of_file hfile) _ _).trans (if_pos rfl)
      · rw [String.append_assoc, ← String.join_cons]
        exact hcontent
  | accept hcheck =>
      obtain ⟨written, hfile, hcontent⟩ := hprogress
      rw [String.join_nil, String.append_empty] at hcontent
      subst hcontent
      exact ⟨hcheck, hfile⟩
  | giveUp _ htemporary => exact hprogress.exists_file htemporary
  | replace => trivial
  | clean => trivial
  | rest => trivial

/-- A write succeeds by putting its content at its target. -/
theorem succeeds (hstep : write.Transition tag tree stage after stage')
    (hprogress : write.Progress tree stage) (hdone : stage' = .finished (.ok ())) :
    stage = .finished (.ok ()) ∨ write.check write.content = .ok () ∧ ∃ place,
      tree.locate write.target = .ok (some place) ∧
        after.get? place = some (.file write.content) := by
  cases hstep with
  | enter _ hidle => cases hidle <;> cases hdone
  | wait hidle => cases hidle <;> cases hdone
  | replace hlocate =>
      refine Or.inr ⟨hprogress.1, _, hlocate, ?_⟩
      exact (FileTree.get?_put _ (FileTree.ne_nil_of_locate hlocate) _ _).trans (if_pos rfl)
  | rest => exact Or.inl hdone
  | create => cases hdone
  | fill => cases hdone
  | accept => cases hdone
  | giveUp => cases hdone
  | clean => cases hdone

/-- A file changes only where it is the temporary file or the target. -/
theorem effect (hstep : write.Transition tag tree stage after stage')
    (hprogress : write.Progress tree stage) (place : Place) :
    write.Effect tree after stage stage' place := by
  cases hstep with
  | enter hadds =>
      rcases hadds.entries place with hsame | ⟨hnone, hmade⟩
      · exact .kept hsame nofun
      · exact .made hnone hmade
  | wait => exact .kept rfl nofun
  | @create temporary _ _ hplace =>
      by_cases heq : place = temporary
      · exact .held (congrArg some heq.symm)
      · exact .kept ((tree.get?_put hplace _ place).trans (if_neg heq)) nofun
  | @fill temporary _ _ _ hfile =>
      by_cases heq : place = temporary
      · exact .held (congrArg some heq.symm)
      · exact .kept ((tree.get?_put (FileTree.ne_nil_of_file hfile) _ place).trans (if_neg heq)) id
  | accept => exact .kept rfl id
  | giveUp _ htemporary => exact .kept rfl htemporary.symm.trans
  | @replace temporary target hlocate hdirectory =>
      obtain ⟨hcheck, hfile⟩ := hprogress
      have hentry := FileTree.get?_put (tree.remove temporary)
        (FileTree.ne_nil_of_locate hlocate) (.file write.content) place
      by_cases htarget : place = target
      · subst htarget
        exact .written rfl hcheck hlocate hdirectory (hentry.trans (if_pos rfl))
      · rw [if_neg htarget, tree.get?_remove (FileTree.ne_nil_of_file hfile)] at hentry
        by_cases heq : place = temporary
        · exact .dropped (congrArg some heq.symm) (hentry.trans (if_pos heq))
        · exact .kept (hentry.trans (if_neg heq)) fun hsome =>
            absurd (Option.some.inj hsome).symm heq
  | @clean temporary error =>
      obtain ⟨written, hfile⟩ := hprogress
      have hentry := tree.get?_remove (FileTree.ne_nil_of_file hfile) place
      by_cases heq : place = temporary
      · exact .dropped (congrArg some heq.symm) (hentry.trans (if_pos heq))
      · exact .kept (hentry.trans (if_neg heq)) fun hsome =>
          absurd (Option.some.inj hsome).symm heq
  | rest => exact .kept rfl id

theorem home (hstep : write.Transition tag tree stage after stage') : after.home = tree.home := by
  cases hstep with
  | enter hadds => exact hadds.home
  | _ => rfl

/-- No step takes a directory away. -/
theorem directoriesWithin (hstep : write.Transition tag tree stage after stage')
    (hprogress : write.Progress tree stage) : tree.DirectoriesWithin after := by
  refine ⟨hstep.home, ?_⟩
  intro place hdirectory
  have hnotTemporary : stage.temporary? ≠ some place := by
    intro htemporary
    obtain ⟨written, hfile⟩ := hprogress.exists_file htemporary
    rw [hdirectory] at hfile
    cases hfile
  cases hstep.effect hprogress place with
  | kept hsame => exact hsame.trans hdirectory
  | made hnone =>
      rw [hdirectory] at hnone
      cases hnone
  | held htemporary =>
      rcases hstep.temporary htemporary with hheld | ⟨hnone, -⟩
      · exact absurd hheld hnotTemporary
      · rw [hdirectory] at hnone
        cases hnone
  | dropped htemporary => exact absurd htemporary hnotTemporary
  | written _ _ _ hother => exact absurd hdirectory hother

end Transition

end Write

/-! ## Several writers -/

/-- A tree and how far each of several writers has come on it. -/
structure Joint (ι : Type) where
  tree : FileTree
  stage : ι → Write.Stage

namespace Joint

variable {ι : Type} (writes : ι → Write)

/-- Nobody has done anything. -/
def start (tree : FileTree) : Joint ι := ⟨tree, fun _ => .fresh⟩

/-- A file is the whole content of a write to its place that is over and passed its check. -/
def Written (state : Joint ι) (place : Place) : Prop :=
  ∃ writer, state.stage writer = .finished (.ok ()) ∧
    (writes writer).check (writes writer).content = .ok () ∧
    state.tree.locate (writes writer).target = .ok (some place) ∧
    state.tree.get? place = some (.file (writes writer).content)

/-- Where the entry at a place comes from. -/
inductive Origin (initial : FileTree) (state : Joint ι) (place : Place) : Prop
  | kept (hsame : state.tree.get? place = initial.get? place)
  | made (hnone : initial.get? place = none) (hmade : state.tree.get? place = some .directory)
  | held (writer : ι) (htemporary : (state.stage writer).temporary? = some place)
  | written (hwritten : state.Written writes place)

/-- What holds at every moment: each entry has an origin, and each temporary file belongs to one
writer, stands where nothing stood and is no target. -/
structure Consistent (initial : FileTree) (state : Joint ι) : Prop where
  directories : initial.DirectoriesWithin state.tree
  progress : ∀ writer, (writes writer).Progress state.tree (state.stage writer)
  fresh : ∀ writer place, (state.stage writer).temporary? = some place → initial.get? place = none
  apart : ∀ writer place, (state.stage writer).temporary? = some place →
    ∀ other, (writes other).target.getLast? ≠ place.getLast?
  owned : ∀ writer writer' place, (state.stage writer).temporary? = some place →
    (state.stage writer').temporary? = some place → writer = writer'
  origin : ∀ place, Origin writes initial state place
  succeeded : ∀ writer, state.stage writer = .finished (.ok ()) →
    ∃ place, state.tree.locate (writes writer).target = .ok (some place) ∧
      state.Written writes place

variable {writes} {initial tree : FileTree} {state : Joint ι} {writer : ι}
  {tag : Option String} {stage : Write.Stage} {place : Place}

theorem consistent_start (initial : FileTree) : (start initial).Consistent writes initial where
  directories := ⟨rfl, fun _ => id⟩
  progress _ := trivial
  fresh _ _ := nofun
  apart _ _ := nofun
  owned _ _ _ := nofun
  origin _ := .kept rfl
  succeeded _ := nofun

/-- Nothing that stood at the start is taken away. -/
theorem Consistent.initial_none (hconsistent : state.Consistent writes initial)
    (hnone : state.tree.get? place = none) : initial.get? place = none := by
  cases hconsistent.origin place with
  | kept hsame => exact hsame.symm.trans hnone
  | made _ hmade =>
      rw [hnone] at hmade
      cases hmade
  | held writer htemporary =>
      obtain ⟨written, hfile⟩ := (hconsistent.progress writer).exists_file htemporary
      rw [hnone] at hfile
      cases hfile
  | written hwritten =>
      obtain ⟨_, _, _, _, hfile⟩ := hwritten
      rw [hnone] at hfile
      cases hfile

/-! ## What can be found -/

variable (writes)

/-- The file at a place is the temporary file of a writer that is not done. -/
def Unfinished (state : Joint ι) (writer : ι) (place : Place) : Prop :=
  (∀ result, state.stage writer ≠ .finished result) ∧
    (state.stage writer).temporary? = some place

/-- What anyone who looks at the files may find, writers having started on an initial tree. -/
structure KeepsFilesWhole (initial : FileTree) (state : Joint ι) : Prop where
  /-- A target holds what it held at the start, or the whole content of a write to it. -/
  targets : ∀ writer place, state.tree.locate (writes writer).target = .ok (some place) →
    state.tree.content? place = initial.content? place ∨ state.Written writes place
  /-- A file is as it was, or it has been written, or it is new and somebody's temporary file. -/
  files : ∀ place, state.tree.content? place = initial.content? place ∨
    state.Written writes place ∨ initial.get? place = none ∧
      ∃! writer, state.Unfinished writer place
  /-- A writer has no more than one temporary file. -/
  temporaries : ∀ writer place place', state.Unfinished writer place →
    state.Unfinished writer place' → place = place'
  /-- When all writers are done, no temporary file remains. -/
  finished : (∀ writer, ∃ result, state.stage writer = .finished result) →
    ∀ place, state.tree.content? place = initial.content? place ∨ state.Written writes place
  /-- A write that has succeeded has reached its target. -/
  succeeded : ∀ writer, state.stage writer = .finished (.ok ()) →
    ∃ place, state.tree.locate (writes writer).target = .ok (some place) ∧
      state.Written writes place

variable {writes}

theorem Consistent.content?_cases (hconsistent : state.Consistent writes initial) (place : Place) :
    state.tree.content? place = initial.content? place ∨ state.Written writes place ∨
      initial.get? place = none ∧
        ∃ writer, (state.stage writer).temporary? = some place := by
  cases hconsistent.origin place with
  | kept hsame => exact Or.inl (FileTree.content?_congr hsame)
  | made hnone hmade =>
      refine Or.inl ?_
      simp [FileTree.content?, hnone, hmade]
  | held writer htemporary =>
      exact Or.inr (Or.inr ⟨hconsistent.fresh writer place htemporary, writer, htemporary⟩)
  | written hwritten => exact Or.inr (Or.inl hwritten)

theorem ne_finished_of_temporary {stage : Write.Stage} {place : Place}
    (htemporary : stage.temporary? = some place) (result : Except WriteError Unit) :
    stage ≠ .finished result := by
  rintro rfl
  cases htemporary

theorem Consistent.keepsFilesWhole (hconsistent : state.Consistent writes initial) :
    state.KeepsFilesWhole writes initial where
  targets writer place hlocate := by
    rcases hconsistent.content?_cases place with hsame | hwritten | ⟨-, holder, htemporary⟩
    · exact Or.inl hsame
    · exact Or.inr hwritten
    · exact absurd (FileTree.getLast?_of_locate hlocate)
        (hconsistent.apart holder place htemporary writer)
  files place := by
    rcases hconsistent.content?_cases place with hsame | hwritten | ⟨hnone, holder, htemporary⟩
    · exact Or.inl hsame
    · exact Or.inr (Or.inl hwritten)
    · refine Or.inr (Or.inr ⟨hnone, holder, ⟨ne_finished_of_temporary htemporary, htemporary⟩, ?_⟩)
      intro other hother
      exact hconsistent.owned other holder place hother.2 htemporary
  temporaries writer place place' hplace hplace' :=
    Option.some.inj (hplace.2.symm.trans hplace'.2)
  finished hfinished place := by
    rcases hconsistent.content?_cases place with hsame | hwritten | ⟨-, holder, htemporary⟩
    · exact Or.inl hsame
    · exact Or.inr hwritten
    · obtain ⟨result, hdone⟩ := hfinished holder
      exact absurd hdone (ne_finished_of_temporary htemporary result)
  succeeded := hconsistent.succeeded

/-! ## Steps of one writer among several -/

section Turns

variable [DecidableEq ι]

/-- One writer has changed the tree and come to a stage. -/
def moved (state : Joint ι) (writer : ι) (tree : FileTree) (stage : Write.Stage) : Joint ι :=
  ⟨tree, Function.update state.stage writer stage⟩

theorem stage_moved_self (state : Joint ι) (writer : ι) (tree : FileTree) (stage : Write.Stage) :
    (state.moved writer tree stage).stage writer = stage :=
  Function.update_self ..

theorem stage_moved_of_ne (state : Joint ι) {writer other : ι} (hother : other ≠ writer)
    (tree : FileTree) (stage : Write.Stage) :
    (state.moved writer tree stage).stage other = state.stage other :=
  Function.update_of_ne hother ..

variable (writes) in
/-- One writer takes a step. -/
def turn (state : Joint ι) (writer : ι) (chance : Write.Chance) : Joint ι :=
  let (tree, stage) := (writes writer).step chance state.tree (state.stage writer)
  state.moved writer tree stage

variable (writes) in
/-- Writers take steps in order, and whether a step of theirs fails is left to chance. -/
def turns (state : Joint ι) (order : List (ι × Write.Chance)) : Joint ι :=
  order.foldl (fun state next => state.turn writes next.1 next.2) state

/-- A write without a break is one of the orders, that in which its writer alone takes steps. -/
theorem exists_turns_eq_continueFrom (writes : ι → Write) (state : Joint ι) (writer : ι)
    (mishap : Option WriteError) (count : Nat) :
    ∃ order : List (ι × Write.Chance), (∀ next ∈ order, next.1 = writer) ∧
      state.turns writes order = state.moved writer
        ((writes writer).continueFrom mishap count state.tree (state.stage writer)).1
        ((writes writer).continueFrom mishap count state.tree (state.stage writer)).2 := by
  induction count generalizing state with
  | zero =>
      refine ⟨[], nofun, ?_⟩
      rw [Write.continueFrom, moved, Function.update_eq_self]
      rfl
  | succ count ih =>
      let chance : Write.Chance := ⟨(writes writer).freeTag? state.tree, mishap⟩
      obtain ⟨order, howner, hturns⟩ := ih (state.turn writes writer chance)
      refine ⟨(writer, chance) :: order, List.forall_mem_cons.mpr ⟨rfl, howner⟩, ?_⟩
      have hstage : (state.turn writes writer chance).stage writer =
          ((writes writer).step chance state.tree (state.stage writer)).2 := stage_moved_self ..
      rw [Write.continueFrom_succ, turns, List.foldl_cons, ← turns, hturns, hstage]
      simp only [moved, turn, Function.update_idem]
      rfl

/-- A temporary file after a step was there before, or it is the one that the step makes. -/
theorem temporary_moved
    (hstep : (writes writer).Transition tag state.tree (state.stage writer) tree stage) {other : ι}
    (hplace : ((state.moved writer tree stage).stage other).temporary? = some place) :
    (state.stage other).temporary? = some place ∨ other = writer ∧
      state.tree.get? place = none ∧
      ∃ text ∈ tag, place.getLast? = some ((writes writer).temporaryName text) := by
  by_cases heq : other = writer
  · subst heq
    rw [stage_moved_self] at hplace
    exact (hstep.temporary hplace).imp_right fun hfree => ⟨rfl, hfree⟩
  · rw [state.stage_moved_of_ne heq] at hplace
    exact Or.inl hplace

/-- What was written stays written where a step changes nothing. -/
theorem Written.moved (hwritten : state.Written writes place)
    (hconsistent : state.Consistent writes initial)
    (hstep : (writes writer).Transition tag state.tree (state.stage writer) tree stage)
    (hsame : tree.get? place = state.tree.get? place) :
    (state.moved writer tree stage).Written writes place := by
  obtain ⟨other, hdone, hcheck, hlocate, hfile⟩ := hwritten
  have hwithin := hstep.directoriesWithin (hconsistent.progress writer)
  refine ⟨other, ?_, hcheck, hwithin.locate hlocate, hsame.trans hfile⟩
  by_cases heq : other = writer
  · subst heq
    rw [hdone] at hstep
    cases hstep with
    | giveUp _ htemporary => cases htemporary
    | rest => exact stage_moved_self ..
  · exact (state.stage_moved_of_ne heq ..).trans hdone

section OneStep

variable (hconsistent : state.Consistent writes initial)
  (hstep : (writes writer).Transition tag state.tree (state.stage writer) tree stage)

include hconsistent hstep

omit [DecidableEq ι] in
/-- A step leaves the temporary files of the others alone. -/
theorem get?_of_other {other : ι} (hother : other ≠ writer)
    (hplace : (state.stage other).temporary? = some place) :
    tree.get? place = state.tree.get? place := by
  obtain ⟨written, hfile⟩ := (hconsistent.progress other).exists_file hplace
  have hmine : (state.stage writer).temporary? ≠ some place := fun hheld =>
    hother (hconsistent.owned other writer place hplace hheld)
  cases hstep.effect (hconsistent.progress writer) place with
  | kept hsame => exact hsame
  | made hnone =>
      rw [hfile] at hnone
      cases hnone
  | held htemporary =>
      rcases hstep.temporary htemporary with hheld | ⟨hnone, -⟩
      · exact absurd hheld hmine
      · rw [hfile] at hnone
        cases hnone
  | dropped htemporary => exact absurd htemporary hmine
  | written _ _ hlocate =>
      exact absurd (FileTree.getLast?_of_locate hlocate)
        (hconsistent.apart other place hplace writer)

theorem origin_moved (place : Place) :
    Origin writes initial (state.moved writer tree stage) place := by
  have hwithin := hstep.directoriesWithin (hconsistent.progress writer)
  cases hstep.effect (hconsistent.progress writer) place with
  | kept hsame htemporary =>
      cases hconsistent.origin place with
      | kept hkept => exact .kept (hsame.trans hkept)
      | made hnone hmade => exact .made hnone (hsame.trans hmade)
      | held other hheld =>
          refine .held other ?_
          by_cases heq : other = writer
          · subst heq
            rw [stage_moved_self]
            exact htemporary hheld
          · rwa [state.stage_moved_of_ne heq]
      | written hwritten => exact .written (hwritten.moved hconsistent hstep hsame)
  | made hnone hmade => exact .made (hconsistent.initial_none hnone) hmade
  | held htemporary => exact .held writer (by rwa [stage_moved_self])
  | dropped htemporary hnone =>
      exact .kept (hnone.trans (hconsistent.fresh writer place htemporary).symm)
  | written hdone hcheck hlocate _ hwritten =>
      exact .written ⟨writer, (stage_moved_self ..).trans hdone, hcheck,
        hwithin.locate hlocate, hwritten⟩

/-- A target that has been written stays written. -/
theorem written_of_succeeded {other : ι}
    (hlocate : state.tree.locate (writes other).target = .ok (some place))
    (hwritten : state.Written writes place) :
    (state.moved writer tree stage).Written writes place := by
  have hname := FileTree.getLast?_of_locate hlocate
  have hmine : (state.stage writer).temporary? ≠ some place := fun hheld =>
    hconsistent.apart writer place hheld other hname
  have hnotFree : state.tree.get? place ≠ none := by
    obtain ⟨_, _, _, _, hfile⟩ := hwritten
    rw [hfile]
    exact Option.some_ne_none _
  cases hstep.effect (hconsistent.progress writer) place with
  | kept hsame => exact hwritten.moved hconsistent hstep hsame
  | made hnone => exact absurd hnone hnotFree
  | held htemporary =>
      rcases hstep.temporary htemporary with hheld | ⟨hnone, -⟩
      · exact absurd hheld hmine
      · exact absurd hnone hnotFree
  | dropped htemporary => exact absurd htemporary hmine
  | written hdone hcheck hlocate _ hfile =>
      have hwithin := hstep.directoriesWithin (hconsistent.progress writer)
      exact ⟨writer, (stage_moved_self ..).trans hdone, hcheck, hwithin.locate hlocate, hfile⟩

theorem succeeded_moved {other : ι}
    (hdone : (state.moved writer tree stage).stage other = .finished (.ok ())) :
    ∃ place, tree.locate (writes other).target = .ok (some place) ∧
      (state.moved writer tree stage).Written writes place := by
  have hwithin := hstep.directoriesWithin (hconsistent.progress writer)
  have hbefore (hdone : state.stage other = .finished (.ok ())) :
      ∃ place, tree.locate (writes other).target = .ok (some place) ∧
        (state.moved writer tree stage).Written writes place := by
    obtain ⟨place, hlocate, hwritten⟩ := hconsistent.succeeded other hdone
    exact ⟨place, hwithin.locate hlocate,
      written_of_succeeded hconsistent hstep hlocate hwritten⟩
  by_cases heq : other = writer
  · subst heq
    have hstage := (stage_moved_self ..).symm.trans hdone
    rcases hstep.succeeds (hconsistent.progress other) hstage with
      hold | ⟨hcheck, place, hlocate, hfile⟩
    · exact hbefore hold
    · exact ⟨place, hwithin.locate hlocate, other, hdone, hcheck, hwithin.locate hlocate, hfile⟩
  · exact hbefore ((state.stage_moved_of_ne heq ..).symm.trans hdone)

theorem consistent_moved
    (hname : ∀ text ∈ tag, ∀ other, (writes other).target.getLast? ≠
      some ((writes writer).temporaryName text)) :
    (state.moved writer tree stage).Consistent writes initial where
  directories := hconsistent.directories.trans
    (hstep.directoriesWithin (hconsistent.progress writer))
  progress other := by
    by_cases heq : other = writer
    · subst heq
      rw [stage_moved_self]
      exact hstep.progress (hconsistent.progress other)
    · rw [state.stage_moved_of_ne heq]
      exact (hconsistent.progress other).congr fun place hplace =>
        get?_of_other hconsistent hstep heq hplace
  fresh other place hplace := by
    rcases temporary_moved hstep hplace with hheld | ⟨-, hnone, -⟩
    · exact hconsistent.fresh other place hheld
    · exact hconsistent.initial_none hnone
  apart other place hplace another := by
    rcases temporary_moved hstep hplace with hheld | ⟨-, -, text, htext, hlast⟩
    · exact hconsistent.apart other place hheld another
    · rw [hlast]
      exact hname text htext another
  owned other another place hplace hplace' := by
    -- a name that is free now is nobody's
    have hnotFree {holder : ι} (hheld : (state.stage holder).temporary? = some place)
        (hnone : state.tree.get? place = none) : False := by
      obtain ⟨written, hfile⟩ := (hconsistent.progress holder).exists_file hheld
      rw [hnone] at hfile
      cases hfile
    rcases temporary_moved hstep hplace with hheld | ⟨heq, hnone, -⟩ <;>
      rcases temporary_moved hstep hplace' with hheld' | ⟨heq', hnone', -⟩
    · exact hconsistent.owned other another place hheld hheld'
    · exact (hnotFree hheld hnone').elim
    · exact (hnotFree hheld' hnone).elim
    · exact heq.trans heq'.symm
  origin := origin_moved hconsistent hstep
  succeeded _ := succeeded_moved hconsistent hstep

end OneStep

/-- What holds before a turn holds after it, if no target has the name that the turn may give to a
temporary file. -/
theorem Consistent.turn (hconsistent : state.Consistent writes initial) (writer : ι)
    (chance : Write.Chance)
    (hname : ∀ text ∈ chance.tag, ∀ other, (writes other).target.getLast? ≠
      some ((writes writer).temporaryName text)) :
    (state.turn writes writer chance).Consistent writes initial :=
  consistent_moved hconsistent (Write.step_transition (hconsistent.progress writer) chance) hname

/-- No target has a name that one of the turns may give to a temporary file. -/
def NamesApart (writes : ι → Write) (order : List (ι × Write.Chance)) : Prop :=
  ∀ next ∈ order, ∀ text ∈ next.2.tag, ∀ other,
    (writes other).target.getLast? ≠ some ((writes next.1).temporaryName text)

theorem Consistent.turns (hconsistent : state.Consistent writes initial)
    {order : List (ι × Write.Chance)} (hnames : NamesApart writes order) :
    (state.turns writes order).Consistent writes initial := by
  induction order generalizing state with
  | nil => exact hconsistent
  | cons next rest ih =>
      obtain ⟨hname, hrest⟩ := List.forall_mem_cons.mp hnames
      exact ih (hconsistent.turn next.1 next.2 hname) hrest

/-- However the steps of any number of writes are mixed, whichever of them fail, and wherever each
of the writes has stopped, no file is ever seen half written or with a content that its check
refuses. -/
theorem interleaved_writes_stay_whole (writes : ι → Write) (initial : FileTree)
    (order : List (ι × Write.Chance)) (hnames : NamesApart writes order) :
    ((start initial).turns writes order).KeepsFilesWhole writes initial :=
  ((consistent_start initial).turns hnames).keepsFilesWhole

end Turns

namespace Sample

/-- Four writes to one target, the second of a content that is refused. -/
def four : Fin 4 → Write
  | 0 => ⟨["out"], ["[1,", "2]"], .json⟩
  | 1 => ⟨["out"], ["[1,"], .json⟩
  | 2 => ⟨["out"], ["[", "]"], .json⟩
  | 3 => ⟨["out"], ["[3,", "4]"], .json⟩

def takes (writer : Fin 4) (tag : String) : Fin 4 × Write.Chance := (writer, ⟨some tag, none⟩)

def fails (writer : Fin 4) (error : WriteError) : Fin 4 × Write.Chance :=
  (writer, ⟨none, some error⟩)

/-- The first writer stops behind its first piece, the last one fails there, and the others go on to
their ends. -/
def order : List (Fin 4 × Write.Chance) :=
  [takes 0 "a", takes 1 "b", takes 2 "c", takes 3 "d", takes 0 "a", takes 1 "a", takes 1 "b",
    takes 2 "c", takes 3 "d", takes 0 "a", takes 1 "b", takes 2 "c", takes 3 "d", takes 1 "b",
    takes 2 "c", fails 3 (.notStored 28), takes 2 "c", takes 1 "b", takes 3 "d", takes 2 "c"]

def before : FileTree := ⟨[(["out"], .file "old"), (["other"], .file "kept")], []⟩

end Sample

theorem interleaved_sample :
    NamesApart Sample.four Sample.order ∧
      ((start Sample.before).turns Sample.four Sample.order).tree.files =
        [(["other"], "kept"), ([".out.a.tmp"], "[1,"), (["out"], "[]")] ∧
      ((start Sample.before).turns Sample.four Sample.order).KeepsFilesWhole Sample.four
        Sample.before := by
  have hnames : NamesApart Sample.four Sample.order := by
    unfold NamesApart
    decide +kernel
  exact ⟨hnames, by decide +kernel,
    interleaved_writes_stay_whole Sample.four Sample.before Sample.order hnames⟩

end Joint

end Exemplar
