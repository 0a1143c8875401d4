import Exemplar.Proofs.CommandLine.Delivery
import Exemplar.Proofs.CommandLine.PageOutput

/-!
# Runs that put out a page

A run that is to put out a page does so even if the schema has no example: the page
then shows why, beside an empty value, and the run fails once the page has reached
its destination. A file receives the page in full; what is shown lacks the control
sequences in it. A page that cannot be encoded reaches nothing.
-/

namespace Exemplar.CommandLine

namespace Command

variable {command : Command}

/-- How a command that is to put out a page ends with a value and, if there is one, an error. There
is a page unless the value cannot be written, and it is put out unless a string in the value or the
error cannot be encoded; it is shown as it is just if neither the schema's text nor the error holds
a control sequence. -/
def EndsWithPage (command : Command) (before : FileTree) (value : Json) (error : Option Str)
    (report : Report) : Prop :=
  match (command.page value error).render with
  | .ok text =>
      if encodable value error then
        Outputs command before text (if error.isSome then 1 else 0) report ∧
          (Text.stripSequences text = text ↔
            Text.holdsSequence command.schema.text.toList = false ∧
              Text.holdsSequence (error.elim "" Str.shown).toList = false)
      else Fails before report
  | .error _ =>
      (value.writable = false ∨ ¬ value.TakesIndent none (.int command.indent)) ∧
        Refuses before report

theorem finish_endsWithPage (hformat : command.format = .html) (progress : Progress) (value : Json)
    (error : Option Str) :
    EndsWithPage command progress.surroundings.tree value error
      (command.finish progress value error) := by
  have hpresent : command.present value error = (command.page value error).render := by
    unfold present
    rw [hformat]
  have haccepts (text : String) :
      ({} : Writer).checkFor command.format.name true text = .ok () := by
    rw [hformat]
    rfl
  unfold finish EndsWithPage
  rw [hpresent]
  cases hrender : (command.page value error).render with
  | ok text =>
      dsimp only
      split
      next hencodable =>
        rw [hencodable]
        refine ⟨deliver_outputs (haccepts text) progress _, ?_⟩
        exact Page.stripSequences_render (Json.ne_str_of_indent (Or.inr ⟨_, rfl⟩)) rfl hrender
      next hbroken =>
        rw [Bool.eq_false_iff.mpr hbroken]
        exact deliver_unencodable progress _
  | error cause =>
      refine ⟨?_, refuses_crash progress _⟩
      by_contra hboth
      rw [not_or, Bool.not_eq_false, not_not] at hboth
      obtain ⟨text, htext⟩ := Json.exists_render hboth.1 hboth.2
      have hpage : (command.page value error).render = .ok _ := map_eq_ok.mpr ⟨text, htext, rfl⟩
      cases hrender.symm.trans hpage

/-- A page shows a message in place of an example. -/
theorem finishWithout_of_message (hformat : command.format = .html) (progress : Progress)
    {problem : Problem} {message : Str} (hmessage : problem.message? = some message) :
    command.finishWithout progress problem =
      command.finish (progress.log "INFO" ("Generation failed: " ++ message.shown)) (.obj [])
        (some message) := by
  unfold finishWithout
  rw [hmessage]
  dsimp only
  rw [hformat]

/-- How a command that is to put out a page ends with the answer to its schema's text: with the page
of the value, or with that of the message beside an empty value. Where the answer is neither,
nothing changes. -/
def EndsWithAnswer (command : Command) (before : FileTree) (result : Except Problem Json)
    (report : Report) : Prop :=
  match result with
  | .ok value => command.EndsWithPage before value none report
  | .error problem =>
      match problem.message? with
      | some message => command.EndsWithPage before (.obj []) (some message) report
      | none => Refuses before report

theorem run_endsWithAnswer (hformat : command.format = .html) {surroundings : Surroundings}
    {config : Config} (hloads : command.Loads surroundings.tree config) {answer : Answer}
    (hanswer : (Request.text command.schema.text).answer config surroundings.draws 0 = answer) :
    (command.run surroundings).draws = answer.draws ∧
      command.EndsWithAnswer surroundings.tree answer.result (command.run surroundings) := by
  obtain ⟨progress, rfl, -, hdraws, -, hvalue, hproblem⟩ := exists_run_eq hloads hanswer
  unfold EndsWithAnswer
  cases hresult : answer.result with
  | ok value =>
      rw [hvalue value hresult]
      exact ⟨(finish_draws ..).trans hdraws, finish_endsWithPage hformat progress value none⟩
  | error problem =>
      rw [hproblem problem hresult]
      dsimp only
      cases hmessage : problem.message? with
      | some message =>
          rw [finishWithout_of_message hformat progress hmessage]
          have hpage := finish_endsWithPage hformat
            (progress.log "INFO" ("Generation failed: " ++ message.shown)) (.obj []) (some message)
          rw [Progress.log_surroundings] at hpage
          exact ⟨(finish_draws ..).trans ((progress.log_draws _ _).trans hdraws), hpage⟩
      | none =>
          obtain ⟨cause, hcrash⟩ := @exists_crash_of_no_message command progress problem hmessage
          rw [hcrash]
          exact ⟨hdraws, refuses_crash progress cause⟩

theorem EndsWithPage.outputs {before : FileTree} {value : Json} {error : Option Str}
    {report : Report} (hends : command.EndsWithPage before value error report) {text : String}
    (hpage : (command.page value error).render = .ok text)
    (hencodable : encodable value error = true) :
    Outputs command before text (if error.isSome then 1 else 0) report := by
  unfold EndsWithPage at hends
  rw [hpage] at hends
  dsimp only at hends
  rw [if_pos hencodable] at hends
  exact hends.1

theorem EndsWithAnswer.endsWithPage {before : FileTree} {problem : Problem} {report : Report}
    (hends : command.EndsWithAnswer before (.error problem) report) {message : Str}
    (hmessage : problem.message? = some message) :
    command.EndsWithPage before (.obj []) (some message) report := by
  unfold EndsWithAnswer at hends
  dsimp only at hends
  rw [hmessage] at hends
  exact hends

end Command

theorem run_eq_of_command {surroundings : Surroundings} {arguments : List String}
    {command : Command}
    (hcommand : (orMisuse (Options.read arguments) >>= Command.ofOptions surroundings) =
      .ok command) : run surroundings arguments = command.run surroundings := by
  unfold run
  rw [hcommand]

/-- A run that is to put out a page takes the draws of the answer to its schema's text and ends with
the page of the answer, if that can be encoded. A file receives the page in full; it is shown
without its control sequences, and so in full just if neither the schema's text nor the message
holds one. -/
theorem run_delivers_page {surroundings : Surroundings} {arguments : List String}
    {command : Command}
    (hcommand : (orMisuse (Options.read arguments) >>= Command.ofOptions surroundings) =
      .ok command)
    (hformat : command.format = .html) {config : Config}
    (hloads : command.Loads surroundings.tree config) {answer : Answer}
    (hanswer : (Request.text command.schema.text).answer config surroundings.draws 0 = answer) :
    (run surroundings arguments).draws = answer.draws ∧
      command.EndsWithAnswer surroundings.tree answer.result (run surroundings arguments) := by
  rw [run_eq_of_command hcommand]
  exact Command.run_endsWithAnswer hformat hloads hanswer

namespace Sample

/-- Surroundings without files. -/
def surroundings (input : String) : Surroundings :=
  { tree := ⟨[], []⟩, input, draws := .constant .zero }

/-- A command that puts out the page of its input. -/
def pageCommand (input : String) (output : Option Place) : Command :=
  ⟨none, .html, 2, false, false, ⟨"<stdin>", input⟩, output⟩

theorem canCreate_page : FileTree.CanCreate ⟨[], []⟩ ["/", "a.html"] :=
  ⟨⟨[], []⟩, by decide +kernel,
    ⟨"aaaaaaaa", [".a.html.aaaaaaaa.tmp"], by decide +kernel, by decide +kernel,
      by decide +kernel⟩,
    ["a.html"], by decide +kernel, by decide +kernel⟩

end Sample

/-- The page of a schema's text that is cut short is written to a new file, and the run fails. -/
theorem page_written_sample :
    ∃ page, ((Sample.pageCommand "\x7b" (some ["a.html"])).page (.obj []) (some
        "Expecting property name enclosed in double quotes: line 1 column 2 (char 1)")).render =
          .ok page ∧
      (run (Sample.surroundings "\x7b") ["-", "a.html", "-f", "html"]).ending.exitCode = 1 ∧
      (run (Sample.surroundings "\x7b") ["-", "a.html", "-f", "html"]).output = "" ∧
      Settles ⟨[], []⟩ (run (Sample.surroundings "\x7b") ["-", "a.html", "-f", "html"]).tree
        ["/", "a.html"] page (.ok ()) := by
  have hends := (@run_delivers_page (Sample.surroundings "\x7b") ["-", "a.html", "-f", "html"]
    (Sample.pageCommand "\x7b" (some ["a.html"])) (by decide +kernel) rfl .standard (.standard rfl)
    _ rfl).2
  have hresult : ((Request.text "\x7b").answer .standard (.constant .zero) 0).result =
      .error (.unreadable (.malformed ⟨.expectedName, 1, 2, 1⟩)) := by decide +kernel
  have hmessage : (Problem.unreadable (.malformed ⟨.expectedName, 1, 2, 1⟩)).message? =
      some "Expecting property name enclosed in double quotes: line 1 column 2 (char 1)" := by
    decide +kernel
  have hanswer : (Request.text (Sample.pageCommand "\x7b" (some ["a.html"])).schema.text).answer
      .standard (Sample.surroundings "\x7b").draws 0 =
        (Request.text "\x7b").answer .standard (.constant .zero) 0 := rfl
  rw [hanswer, hresult] at hends
  refine ⟨_, rfl, ?_⟩
  exact ((hends.endsWithPage hmessage).outputs rfl rfl).written ["a.html"] rfl
    (Or.inr (by decide +kernel)) Sample.canCreate_page

/-- A control sequence in the schema's text is lost from the page that is shown, while a file
receives it. -/
theorem sequence_is_lost :
    ∃ page, ((Sample.pageCommand "\x1b[31m" none).page (.obj [])
        (some "Expecting value: line 1 column 1 (char 0)")).render = .ok page ∧
      (run (Sample.surroundings "\x1b[31m") ["-", "-f", "html"]).output ≠ page ∧
      (run (Sample.surroundings "\x1b[31m") ["-", "a.html", "-f", "html"]).tree.content?
        ["a.html"] = some page := by
  have hresult : ((Request.text "\x1b[31m").answer .standard (.constant .zero) 0).result =
      .error (.unreadable (.malformed ⟨.expectedValue, 1, 1, 0⟩)) := by decide +kernel
  have hmessage : (Problem.unreadable (.malformed ⟨.expectedValue, 1, 1, 0⟩)).message? =
      some "Expecting value: line 1 column 1 (char 0)" := by decide +kernel
  obtain ⟨page, hpage⟩ : ∃ page, ((Sample.pageCommand "\x1b[31m" none).page (.obj [])
      (some "Expecting value: line 1 column 1 (char 0)")).render = .ok page := ⟨_, rfl⟩
  have houtputs (output : Option Place) :
      Outputs (Sample.pageCommand "\x1b[31m" output) ⟨[], []⟩ page 1
        ((Sample.pageCommand "\x1b[31m" output).run (Sample.surroundings "\x1b[31m")) := by
    have hends := (@Command.run_endsWithAnswer (Sample.pageCommand "\x1b[31m" output) rfl
      (Sample.surroundings "\x1b[31m") .standard (.standard rfl) _ rfl).2
    have hanswer : (Request.text (Sample.pageCommand "\x1b[31m" output).schema.text).answer
        .standard (Sample.surroundings "\x1b[31m").draws 0 =
          (Request.text "\x1b[31m").answer .standard (.constant .zero) 0 := rfl
    rw [hanswer, hresult] at hends
    exact (hends.endsWithPage hmessage).outputs hpage rfl
  refine ⟨page, hpage, ?_, ?_⟩
  · rw [@run_eq_of_command _ _ (Sample.pageCommand "\x1b[31m" none) (by decide +kernel),
      ((houtputs none).shown rfl).2.1]
    have hsequence : Text.holdsSequence "\x1b[31m".toList ≠ false := by decide +kernel
    exact mt (Page.stripSequences_render (Json.ne_str_of_indent (Or.inr ⟨_, rfl⟩)) rfl hpage).mp
      fun hnone => hsequence hnone.1
  · rw [@run_eq_of_command _ _ (Sample.pageCommand "\x1b[31m" (some ["a.html"]))
      (by decide +kernel)]
    have hwritten := (houtputs (some ["a.html"])).written ["a.html"] rfl
      (Or.inr (by decide +kernel)) Sample.canCreate_page
    cases hwritten.2.2 with
    | returned hplace hsame hfiles => rw [hfiles, if_pos (hsame _ (by decide +kernel))]

end Exemplar.CommandLine
