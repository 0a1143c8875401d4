import Exemplar.Proofs.Files.Session

/-!
# What a check decides

A write consults its check once, on its whole content. Two checks that agree on the
content make the same write, step by step; a check that accepts the content makes
the write that is not checked at all.
-/

namespace Exemplar

namespace Write

variable (write : Write) {check : ContentCheck}

section Congruence

variable (hcheck : check write.content = write.check write.content)

include hcheck

theorem step_congr (chance : Chance) (tree : FileTree) (stage : Stage) :
    ({ write with check } : Write).step chance tree stage = write.step chance tree stage := by
  have hverdict : ({ write with check } : Write).check
      ({ write with check } : Write).content = write.check write.content := hcheck
  cases stage with
  | filling temporary left =>
      unfold step
      rw [hverdict]
  | _ => rfl

theorem continueFrom_congr (mishap : Option WriteError) (count : Nat) (tree : FileTree)
    (stage : Stage) : ({ write with check } : Write).continueFrom mishap count tree stage =
      write.continueFrom mishap count tree stage := by
  induction count generalizing tree stage with
  | zero => rfl
  | succ count ih =>
      have htag : ({ write with check } : Write).freeTag? tree = write.freeTag? tree := rfl
      rw [continueFrom_succ, continueFrom_succ, htag, write.step_congr hcheck, ih]

/-- A write depends on its check through the verdict on its content alone. -/
theorem perform_congr (tree : FileTree) (mishap : Option WriteError) :
    ({ write with check } : Write).perform tree mishap = write.perform tree mishap := by
  have hcount : ({ write with check } : Write).stepCount = write.stepCount := rfl
  have htarget : ({ write with check } : Write).target = write.target := rfl
  rw [perform, perform, hcount, htarget, write.continueFrom_congr hcheck]

end Congruence

end Write

/-- Where the check of a writer accepts a content, a write that is checked is one that is not. -/
theorem Writer.write_eq_unchecked (writer : Writer) {content : String}
    (haccepts : writer.jsonCheck content = .ok ()) (tree : FileTree) (target : Path)
    (format : String) (validate : Bool) (mishap : Option WriteError) :
    writer.write tree target content format validate mishap =
      writer.write tree target content format false mishap := by
  apply Write.perform_congr ⟨target, [content], writer.checkFor format false⟩
  rw [Write.content_singleton, checkFor, checkFor, Bool.false_and, if_neg Bool.false_ne_true]
  split
  · exact haccepts
  · rfl

end Exemplar
