import Exemplar.Proofs.Files.Creation
import Exemplar.Proofs.Files.Session

/-!
# What failed calls leave

A call that fails leaves no new file, but the directories that it has made on the
way to its target stay. A session is therefore compared with that of its
successful calls alone: the files are the same, and a directory that only the
first has is all that can keep a call from succeeding there.
-/

namespace Exemplar

open FileTree (AddsDirectories NewDirectory)

/-! ## One write on two trees -/

namespace Write

variable {write : Write} {alone full alone' full' made made' : FileTree} {place : Place}
  {error : WriteError} {mishap : Option WriteError}

/-- Where the folder is there in the first of two trees, a write is judged there no worse. -/
theorem verdict_of_adds (hadds : AddsDirectories made made') {directory : Place}
    (hfollow : made.follow write.folder = .ok directory)
    (hverdict : write.verdict mishap made' = .ok place) :
    write.verdict mishap made = .ok place := by
  obtain ⟨hmishap, hcheck, hlocate, hdirectory⟩ := verdict_eq_ok_iff.mp hverdict
  refine verdict_eq_ok_iff.mpr ⟨hmishap, hcheck, ?_, ?_⟩
  · rw [← hlocate]
    exact FileTree.locate_congr (hfollow.trans (hadds.directoriesWithin.follow hfollow).symm)
  · exact fun hother => hdirectory (hadds.directoriesWithin.stay place hother)

/-- A name that is free among more directories is free among fewer. -/
theorem hasRoom_of_adds (hadds : AddsDirectories made made') {directory : Place}
    (hfollow : made.follow write.folder = .ok directory) (hroom : write.HasRoom made') :
    write.HasRoom made := by
  obtain ⟨tag, temporary, htag, hlocate, hnone⟩ := hroom
  obtain ⟨directory', -, hfollow', -, rfl⟩ := FileTree.locateBelow_eq_ok.mp hlocate
  rw [hadds.directoriesWithin.follow hfollow] at hfollow'
  cases hfollow'
  refine ⟨tag, _, htag, locateBelow_of_isTag htag htag hlocate hadds.home.symm hfollow, ?_⟩
  rcases hadds.entries (directory ++ [write.temporaryName tag]) with hsame | ⟨hfree, -⟩
  · rwa [← hsame]
  · exact hfree

/-- If all names are taken only among more directories, one of those has such a name. -/
theorem newDirectory_of_taken (hadds : AddsDirectories made made') (hroom : write.HasRoom made)
    (htaken : ∀ tag, IsTag tag → write.Taken made' tag) : ∃ directory tag,
      made'.follow write.folder = .ok directory ∧ IsTag tag ∧
        NewDirectory made made' (directory ++ [write.temporaryName tag]) := by
  obtain ⟨tag, temporary, htag, hlocate, hnone⟩ := hroom
  obtain ⟨directory, -, hfollow, -, rfl⟩ := FileTree.locateBelow_eq_ok.mp hlocate
  obtain ⟨temporary', hlocate', hused⟩ := htaken tag htag
  obtain ⟨directory', -, hfollow', -, rfl⟩ := FileTree.locateBelow_eq_ok.mp hlocate'
  rw [hadds.directoriesWithin.follow hfollow] at hfollow'
  cases hfollow'
  exact ⟨directory, tag, hadds.directoriesWithin.follow hfollow, htag,
    hadds.newDirectory hnone hused⟩

namespace Performs

variable {result : Except WriteError Unit}

/-- A write leaves what it leaves in the tree in which it has made its folder, and its failure
changes nothing there. -/
theorem same_of_error {before after : FileTree}
    (hperforms : write.Performs mishap before after (.error error)) :
    AddsDirectories (before.makeDirectories write.folder).1 after ∧
      ∀ place, after.get? place = (before.makeDirectories write.folder).1.get? place := by
  cases hperforms with
  | barred hmade =>
      rw [hmade]
      exact ⟨.refl after, fun _ => rfl⟩
  | cramped hmade =>
      rw [hmade]
      exact ⟨.refl after, fun _ => rfl⟩
  | exhausted hmade =>
      rw [hmade]
      exact ⟨.refl after, fun _ => rfl⟩
  | refused hmade _ _ hhome hentries =>
      rw [hmade]
      exact ⟨⟨hhome, fun place => Or.inl (hentries place)⟩, hentries⟩

theorem locate_target {before after : FileTree}
    (hperforms : write.Performs mishap before after (.ok ())) :
    ∃ made place, FileTree.locate made write.target = .ok (some place) := by
  cases hperforms with
  | @replaced made place _ _ hverdict =>
      exact ⟨made, place, (verdict_eq_ok_iff.mp hverdict).2.2.1⟩

variable (hadds : AddsDirectories alone full)

include hadds

/-- A write that succeeds also succeeds without directories that were added. -/
theorem ok_alone (hfull : write.Performs mishap full full' (.ok ()))
    (halone : write.Performs mishap alone alone' result) : result = .ok () := by
  cases hfull with
  | @replaced made' place hmade' hroom' hverdict' =>
  have halike := hadds.makeDirectories write.folder
  rw [hmade'] at halike
  cases halone with
  | barred hmade =>
      rw [hmade] at halike
      cases halike.succeeds.mpr rfl
  | cramped hmade htag hlocate =>
      rw [hmade] at halike
      obtain ⟨directory, hfollow⟩ := FileTree.follow_of_makeDirectories hmade
      obtain ⟨tag, temporary, htag', hroom, -⟩ :=
        hasRoom_of_adds (halike.adds rfl) hfollow hroom'
      rw [locateBelow_of_isTag htag' htag hroom rfl hfollow] at hlocate
      cases hlocate
  | exhausted hmade htaken =>
      rw [hmade] at halike
      obtain ⟨directory, hfollow⟩ := FileTree.follow_of_makeDirectories hmade
      obtain ⟨tag, temporary, htag, hroom, hnone⟩ :=
        hasRoom_of_adds (halike.adds rfl) hfollow hroom'
      obtain ⟨_, hlocate, hused⟩ := htaken tag htag
      rw [hroom] at hlocate
      cases hlocate
      exact absurd hnone hused
  | refused hmade _ hverdict =>
      rw [hmade] at halike
      obtain ⟨directory, hfollow⟩ := FileTree.follow_of_makeDirectories hmade
      rw [verdict_of_adds (halike.adds rfl) hfollow hverdict'] at hverdict
      cases hverdict
  | replaced => rfl

/-- A write that succeeds on both of two trees puts its content in the same place. -/
theorem adds (halone : write.Performs mishap alone alone' (.ok ()))
    (hfull : write.Performs mishap full full' (.ok ())) : AddsDirectories alone' full' := by
  cases halone with
  | @replaced made place hmade _ hverdict hhome hentries =>
  cases hfull with
  | @replaced made' place' hmade' _ hverdict' hhome' hentries' =>
  have halike := hadds.makeDirectories write.folder
  rw [hmade, hmade'] at halike
  have hmore := halike.adds rfl
  obtain ⟨directory, hfollow⟩ := FileTree.follow_of_makeDirectories hmade
  have hplace := verdict_of_adds hmore hfollow hverdict'
  rw [hverdict] at hplace
  cases hplace
  refine ⟨hhome'.trans (hmore.home.trans hhome.symm), fun other => ?_⟩
  rw [hentries, hentries']
  by_cases heq : other = place
  · rw [if_pos heq, if_pos heq]
    exact Or.inl rfl
  · rw [if_neg heq, if_neg heq]
    exact hmore.entries other

/-- A write that fails only because directories were added finds one of them at its target, or finds
that one of them has the last free name for its temporary file. -/
theorem obstructed (halone : write.Performs mishap alone alone' (.ok ()))
    (hfull : write.Performs mishap full full' (.error error)) :
    ∃ place, NewDirectory alone full place ∧
      (error = .file .isDirectory write.target ∧ full'.locate write.target = .ok (some place) ∨
        error = .noFreeName ∧ ∃ directory tag, full'.follow write.folder = .ok directory ∧
          IsTag tag ∧ place = directory ++ [write.temporaryName tag] ∧
          ∀ tag, IsTag tag → full'.get? (directory ++ [write.temporaryName tag]) ≠ none) := by
  cases halone with
  | @replaced made place hmade hroom hverdict =>
  have halike := hadds.makeDirectories write.folder
  rw [hmade] at halike
  cases hfull with
  | barred hmade' =>
      rw [hmade'] at halike
      cases halike.succeeds.mp rfl
  | cramped hmade' htag hlocate' =>
      rw [hmade'] at halike
      obtain ⟨directory, hfollow⟩ := FileTree.follow_of_makeDirectories hmade'
      obtain ⟨tag, temporary, htag', hlocate, -⟩ := hroom
      rw [locateBelow_of_isTag htag' htag hlocate (halike.adds rfl).home hfollow] at hlocate'
      cases hlocate'
  | exhausted hmade' htaken =>
      rw [hmade'] at halike
      obtain ⟨directory, tag, hfollow, htag, hnew⟩ :=
        newDirectory_of_taken (halike.adds rfl) hroom htaken
      refine ⟨_, hadds.newDirectory_of_made hmade hmade' hnew,
        Or.inr ⟨rfl, directory, tag, hfollow, htag, rfl, fun other hother => ?_⟩⟩
      obtain ⟨_, hlocate, hused⟩ := htaken other hother
      obtain ⟨_, -, hfollow', -, rfl⟩ := FileTree.locateBelow_eq_ok.mp hlocate
      rw [hfollow] at hfollow'
      cases hfollow'
      exact hused
  | @refused made' _ hmade' _ hverdict' hhome' hentries' =>
      rw [hmade'] at halike
      have hmore := halike.adds rfl
      obtain ⟨rfl, hcheck, hlocate, hdirectory⟩ := verdict_eq_ok_iff.mp hverdict
      have hlocate' := hmore.locate hlocate
      have hlanding' : made'.landing write.target =
          if made'.get? place = some .directory then .error .isDirectory else .ok place := by
        rw [FileTree.landing, hlocate']
        rfl
      have hsame : AddsDirectories made' full' :=
        ⟨hhome', fun other => Or.inl (hentries' other)⟩
      rw [verdict, hcheck, hlanding'] at hverdict'
      split at hverdict'
      next hdirectory' =>
        cases hverdict'
        refine ⟨place, hadds.newDirectory_of_made hmade hmade' ?_,
          Or.inl ⟨rfl, hsame.locate hlocate'⟩⟩
        rcases hmore.entries place with heq | hnew
        · exact absurd (heq.symm.trans hdirectory') hdirectory
        · exact hnew
      next => cases hverdict'

end Performs

end Write

/-- A tree becomes another one by making what is missing on a path. -/
structure FileTree.MakesWay (before after : FileTree) (path : Path) : Prop where
  adds : AddsDirectories before after
  liesOn : ∀ place, after.get? place ≠ before.get? place → after.LiesOn path place
  same : ∀ directory, before.follow path = .ok directory →
    ∀ place, after.get? place = before.get? place

theorem FileTree.MakesWay.refl (tree : FileTree) (path : Path) : tree.MakesWay tree path :=
  ⟨.refl tree, fun _ hchanged => absurd rfl hchanged, fun _ _ _ => rfl⟩

/-- A write that fails has made no more than the way to its target's folder. -/
theorem Write.Performs.makesWay {write : Write} {before after : FileTree} {error : WriteError}
    {mishap : Option WriteError} (hperforms : write.Performs mishap before after (.error error)) :
    before.MakesWay after write.folder := by
  obtain ⟨hadds, hsame⟩ := hperforms.same_of_error
  refine ⟨(FileTree.addsDirectories_makeDirectories before _).trans hadds, ?_, ?_⟩
  · intro place hchanged
    rw [hsame] at hchanged
    exact (FileTree.liesOn_of_makeDirectories hchanged).mono hadds (List.prefix_refl _)
  · intro directory hfollow place
    rw [hsame, FileTree.makeDirectories_eq_self hfollow]

theorem OutputMode.ofName?_eq_error {name : String} (hname : ofName? name = some .error) :
    name = "error" := by
  unfold ofName? at hname
  split at hname
  next => rfl
  next => cases hname
  next => cases hname

namespace Writer

variable (writer : Writer) {alone full : FileTree} {call : Call} {error : WriteError}

/-! ## One call on two trees -/

/-- A call is refused, or it makes its write. -/
inductive Acts (writer : Writer) (call : Call) (before after : FileTree) :
    Except WriteError Unit → Prop
  | refused {error : WriteError} (hrefusal : call.refusal? before = some error)
      (hsame : after = before) : Acts writer call before after (.error error)
  | performed {result : Except WriteError Unit} (hrefusal : call.refusal? before = none)
      (hperforms : (writer.writeFor call).Performs call.mishap before after result) :
      Acts writer call before after result

theorem call_acts (tree : FileTree) (call : Call) :
    writer.Acts call tree (writer.call tree call).1 (writer.call tree call).2 := by
  rw [call_eq]
  cases hrefusal : call.refusal? tree with
  | some error => exact .refused hrefusal rfl
  | none => exact .performed hrefusal (Write.perform_performs _ tree call.mishap)

/-- A call is refused everywhere for its mode, or here for what its target is. -/
theorem Call.refusal_cases {tree : FileTree} (hrefusal : call.refusal? tree = some error) :
    (∀ tree', ∃ error', call.refusal? tree' = some error') ∨ call.mode = some "error" ∧
      ((∃ entry, tree.lookUp call.target = .ok entry) ∧ error = .targetExists call.target ∨
        tree.lookUp call.target = .error .nameTooLong) := by
  unfold Call.refusal? at hrefusal ⊢
  cases hmode : call.mode with
  | none =>
      rw [hmode] at hrefusal
      cases hrefusal
  | some name =>
      rw [hmode] at hrefusal
      dsimp only at hrefusal ⊢
      cases hname : OutputMode.ofName? name with
      | none => exact Or.inl fun _ => ⟨_, rfl⟩
      | some mode =>
          rw [hname] at hrefusal
          dsimp only at hrefusal
          unfold refusalFor? at hrefusal
          split at hrefusal
          next => cases hrefusal
          next entry hlookUp =>
            cases hrefusal
            exact Or.inr ⟨congrArg some (OutputMode.ofName?_eq_error hname),
              Or.inl ⟨⟨entry, hlookUp⟩, rfl⟩⟩
          next hlookUp =>
            exact Or.inr ⟨congrArg some (OutputMode.ofName?_eq_error hname), Or.inr hlookUp⟩
          next => cases hrefusal

/-- How a directory keeps a call from succeeding: it stands where the target is to go, it lies on
the way to a target that exists, or it has a name for the temporary file when all other such names
are taken. -/
inductive Call.ObstructedBy (call : Call) (before after : FileTree) (place : Place) :
    WriteError → Prop
  | target (hlocate : after.locate call.target = .ok (some place)) :
      ObstructedBy call before after place (.file .isDirectory call.target)
  | way (hmode : call.mode = some "error") (hlies : before.LiesOn call.target place) :
      ObstructedBy call before after place (.targetExists call.target)
  | temporary {directory : Place} {tag : String}
      (hfollow : after.follow call.target.dropLast = .ok directory) (htag : Write.IsTag tag)
      (hplace : place = directory ++ [Write.temporaryName ⟨call.target, [], .none⟩ tag])
      (htaken : ∀ tag, Write.IsTag tag →
        after.get? (directory ++ [Write.temporaryName ⟨call.target, [], .none⟩ tag]) ≠ none) :
      ObstructedBy call before after place .noFreeName

namespace Acts

variable {writer : Writer} {alone' full' : FileTree} {result : Except WriteError Unit}

/-- A call that fails has made no more than the way to its target's folder. -/
theorem makesWay (hacts : writer.Acts call full full' (.error error)) :
    full.MakesWay full' call.target.dropLast := by
  cases hacts with
  | refused _ hsame =>
      subst hsame
      exact .refl full' _
  | performed _ hperforms => exact hperforms.makesWay

variable (hadds : AddsDirectories alone full)

include hadds

theorem ok_alone (hfull : writer.Acts call full full' (.ok ()))
    (halone : writer.Acts call alone alone' result) : result = .ok () := by
  cases hfull with
  | performed hrefusal hperforms =>
  cases halone with
  | performed _ hperforms' => exact hperforms.ok_alone hadds hperforms'
  | refused hrefusal' =>
      rcases Call.refusal_cases hrefusal' with hever | ⟨hmode, ⟨⟨entry, hexists⟩, -⟩ | hlong⟩
      · obtain ⟨error', hrefused⟩ := hever full
        rw [hrefusal] at hrefused
        cases hrefused
      · rw [Call.refusal_of_exists hmode (hadds.lookUp hexists)] at hrefusal
        cases hrefusal
      · obtain ⟨made, place, hlocate⟩ := hperforms.locate_target
        exact absurd hlong (FileTree.lookUp_ne_nameTooLong hlocate)

theorem adds (halone : writer.Acts call alone alone' (.ok ()))
    (hfull : writer.Acts call full full' (.ok ())) : AddsDirectories alone' full' := by
  cases halone with
  | performed _ hperforms =>
  cases hfull with
  | performed _ hperforms' => exact hperforms.adds hadds hperforms'

theorem obstructed (halone : writer.Acts call alone alone' (.ok ()))
    (hfull : writer.Acts call full full' (.error error)) :
    ∃ place, NewDirectory alone full place ∧ call.ObstructedBy full full' place error := by
  cases halone with
  | performed hrefusal hperforms =>
  cases hfull with
  | performed _ hperforms' =>
      obtain ⟨place, hnew, ⟨rfl, hlocate⟩ | ⟨rfl, directory, tag, hfollow, htag, hplace, htaken⟩⟩ :=
        hperforms.obstructed hadds hperforms'
      · exact ⟨place, hnew, .target hlocate⟩
      · exact ⟨place, hnew, .temporary hfollow htag hplace htaken⟩
  | refused hrefusal' =>
      rcases Call.refusal_cases hrefusal' with hever | ⟨hmode, ⟨⟨entry, hexists⟩, rfl⟩ | hlong⟩
      · obtain ⟨error', hrefused⟩ := hever alone
        rw [hrefusal] at hrefused
        cases hrefused
      · have habsent (entry : Entry) : alone.lookUp call.target ≠ .ok entry := by
          intro hexists'
          rw [Call.refusal_of_exists hmode hexists'] at hrefusal
          cases hrefusal
        obtain ⟨place, hnew, hlies⟩ := hadds.newDirectory_of_lookUp habsent hexists
        exact ⟨place, hnew, .way hmode hlies⟩
      · obtain ⟨made, place, hlocate⟩ := hperforms.locate_target
        exact absurd hlong (FileTree.lookUp_ne_nameTooLong hlocate)

end Acts

/-! ## Sessions -/

/-- The calls of a session that succeed in it. -/
def succeeded (tree : FileTree) : List Call → List Call
  | [] => []
  | first :: rest =>
      match writer.call tree first with
      | (after, .ok ()) => first :: succeeded after rest
      | (after, .error _) => succeeded after rest

/-- The calls that succeed in a session succeed on a tree with fewer directories, and end with
one. -/
theorem succeeded_alone (hadds : AddsDirectories alone full) (calls : List Call) :
    (∀ outcome ∈ writer.calls alone (writer.succeeded full calls), outcome.1 = .ok ()) ∧
      AddsDirectories (writer.treeAfter alone (writer.succeeded full calls))
        (writer.treeAfter full calls) := by
  induction calls generalizing alone full with
  | nil => exact ⟨nofun, hadds⟩
  | cons first rest ih =>
      have hfull := writer.call_acts full first
      have halone := writer.call_acts alone first
      rw [succeeded, treeAfter_cons]
      generalize writer.call full first = outcome at hfull ⊢
      obtain ⟨full', result⟩ := outcome
      cases result with
      | error error => exact ih (hadds.trans hfull.makesWay.adds)
      | ok done =>
          have hdone := hfull.ok_alone hadds halone
          rw [hdone] at halone
          obtain ⟨hrest, hafter⟩ := ih (halone.adds hadds hfull)
          refine ⟨fun outcome houtcome => ?_, hafter⟩
          rcases List.mem_cons.mp houtcome with rfl | houtcome
          · exact hdone
          · exact hrest outcome houtcome

/-- What the failed calls of a session leave for a call: nothing but directories. -/
structure LeavesDirectories (alone full : FileTree) (call : Call) : Prop where
  adds : AddsDirectories alone full
  files : ∀ place, full.content? place = alone.content? place
  succeeds : (writer.call full call).2 = .ok () → (writer.call alone call).2 = .ok ()
  obstructed : (writer.call alone call).2 = .ok () →
    ∀ error, (writer.call full call).2 = .error error → ∃ place, NewDirectory alone full place ∧
      call.ObstructedBy full (writer.call full call).1 place error
  fails : ∀ error, (writer.call full call).2 = .error error →
    full.MakesWay (writer.call full call).1 call.target.dropLast

/-- The calls that succeed in a session succeed without those that fail, and the files are the same
then. A call succeeds in the session if it does after the successful calls alone, unless a directory
that failed calls have left is in its way, and it succeeds in no other case. When it fails, it makes
no more than the directories on the way to its target. -/
theorem failed_calls_leave_directories (initial : FileTree) (done : List Call) (call : Call) :
    (∀ outcome ∈ writer.calls initial (writer.succeeded initial done), outcome.1 = .ok ()) ∧
      writer.LeavesDirectories (writer.treeAfter initial (writer.succeeded initial done))
        (writer.treeAfter initial done) call := by
  obtain ⟨hsucceeded, hadds⟩ := writer.succeeded_alone (.refl initial) done
  generalize writer.treeAfter initial (writer.succeeded initial done) = alone at hadds ⊢
  generalize writer.treeAfter initial done = full at hadds ⊢
  have hfull := writer.call_acts full call
  have halone := writer.call_acts alone call
  refine ⟨hsucceeded, hadds, hadds.content?, fun hdone => ?_, fun hdone error herror => ?_,
    fun error herror => ?_⟩
  · rw [hdone] at hfull
    exact hfull.ok_alone hadds halone
  · rw [hdone] at halone
    rw [herror] at hfull
    exact halone.obstructed hadds hfull
  · rw [herror] at hfull
    exact hfull.makesWay

/-- A failed call whose content is no JSON leaves a directory where the next call cannot write
then. -/
theorem left_directory_obstructs :
    let writer : Writer := {}
    let failed : Call := { target := ["a", "b.json"], content := "\x7bbroken" }
    let call : Call := { target := ["a"], content := "1" }
    let full := writer.treeAfter ⟨[], []⟩ [failed]
    writer.succeeded ⟨[], []⟩ [failed] = [] ∧ full.get? ["a"] = some .directory ∧
      (writer.call ⟨[], []⟩ call).2 = .ok () ∧
      (writer.call full call).2 = .error (.file .isDirectory ["a"]) := by
  decide +kernel

end Writer

end Exemplar
