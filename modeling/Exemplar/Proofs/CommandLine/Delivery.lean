import Exemplar.CommandLine.Command
import Exemplar.Proofs.CommandLine.Output
import Exemplar.Proofs.Files.Creation
import Exemplar.Proofs.Files.Session
import Exemplar.Proofs.Json.Rendering

/-!
# What a run of the command does

A run loads a configuration, asks for the example of the schema's text, and
delivers the document of the answer. Nothing in between changes the answer, the
number of draws or the files: only the delivery writes, and it writes as the writer
does. A text that cannot be encoded is not delivered.
-/

namespace Exemplar.CommandLine

/-! ## Progress -/

namespace Progress

variable (progress : Progress) (level message : String)

@[simp]
theorem log_surroundings : (progress.log level message).surroundings = progress.surroundings := by
  unfold log
  split <;> rfl

@[simp]
theorem log_verbose : (progress.log level message).verbose = progress.verbose := by
  unfold log
  split <;> rfl

@[simp]
theorem log_draws : (progress.log level message).draws = progress.draws := by
  unfold log
  split <;> rfl

theorem log_of_quiet (hquiet : progress.verbose = false) :
    progress.log level message = progress := by
  rw [log, hquiet, if_neg Bool.false_ne_true]

/-- No message has been shown unless messages of progress are wanted. -/
def Quiet : Prop := progress.verbose = false → progress.messages = ""

theorem Quiet.log {progress : Progress} (hquiet : progress.Quiet) (level message : String) :
    (progress.log level message).Quiet := by
  intro hverbose
  rw [log_verbose] at hverbose
  rw [log_of_quiet _ _ _ hverbose]
  exact hquiet hverbose

end Progress

/-! ## Deliveries -/

/-- A run that fails with its files as they were and nothing on its output. -/
structure Refuses (before : FileTree) (report : Report) : Prop where
  exitCode : report.ending.exitCode = 1
  output : report.output = ""
  tree : report.tree = before

/-- A run that fails with nothing on its output and leaves no more than new directories. -/
structure Fails (before : FileTree) (report : Report) : Prop where
  exitCode : report.ending.exitCode = 1
  output : report.output = ""
  files : ∀ place, report.tree.content? place = before.content? place

theorem Refuses.fails {before : FileTree} {report : Report} (hrefuses : Refuses before report) :
    Fails before report :=
  ⟨hrefuses.exitCode, hrefuses.output, fun place => by rw [hrefuses.tree]⟩

/-- How a command puts out a text: it shows the text without its control sequences if it has no
output file, and writes it there in full if the file may be replaced and can be made; either way it
ends with the given exit code. Otherwise it fails and changes no file; where a file may not be
replaced, it makes no directory either. -/
structure Outputs (command : Command) (before : FileTree) (text : String) (code : Nat)
    (report : Report) : Prop where
  shown : command.output = none →
    report.ending.exitCode = code ∧ report.output = Text.stripSequences text ∧ report.tree = before
  written : ∀ place, command.output = some place →
    command.force = true ∨ before.find? (.ofPlace place) = none →
    before.CanCreate (.ofPlace place) →
      report.ending.exitCode = code ∧ report.output = "" ∧
        Settles before report.tree (.ofPlace place) text (.ok ())
  kept : ∀ place, command.output = some place → command.force = false →
    before.find? (.ofPlace place) ≠ none → Refuses before report
  failed : ∀ place, command.output = some place → ¬ before.CanCreate (.ofPlace place) →
    Fails before report

/-- A command puts out a text that is shown in full, and the run succeeds. -/
structure Delivers (command : Command) (before : FileTree) (text : String) (report : Report) :
    Prop extends Outputs command before text 0 report where
  inFull : Text.stripSequences text = text

namespace Command

variable {command : Command} {progress : Progress} {text : String}

/-- The mode in which a command writes. -/
def mode (command : Command) : OutputMode := if command.force then .force else .error

theorem mode_eq_force : command.mode = .force ↔ command.force = true := by
  unfold mode
  split <;> simp_all

/-- What keeps a text from being stored. -/
def mishapOf (encodable : Bool) : Option WriteError := if encodable then none else some .unencodable

/-- What the writer does with a text and an output file. -/
def writing (command : Command) (tree : FileTree) (text : String) (encodable : Bool)
    (place : Place) : FileTree × Except WriteError Unit :=
  ({} : Writer).writeWithMode tree (.ofPlace place) text command.mode command.format.name
    (mishapOf encodable)

theorem refuseWrite_fails (progress : Progress) (error : WriteError) :
    (refuseWrite progress error).ending.exitCode = 1 ∧ (refuseWrite progress error).output = "" ∧
      (refuseWrite progress error).draws = progress.draws := by
  unfold refuseWrite
  split <;> exact ⟨rfl, rfl, rfl⟩

theorem refuses_refuse (progress : Progress) (reason : String) :
    Refuses progress.surroundings.tree (progress.refuse reason) := ⟨rfl, rfl, rfl⟩

theorem refuses_crash (progress : Progress) (cause : Crash) :
    Refuses progress.surroundings.tree (progress.crash cause) := ⟨rfl, rfl, rfl⟩

theorem deliver_draws (command : Command) (progress : Progress) (text : String)
    (encodable withError : Bool) :
    (command.deliver progress text encodable withError).draws = progress.draws := by
  unfold deliver
  split
  next => split <;> rfl
  next =>
    dsimp only
    split
    next => exact progress.log_draws _ _
    next error _ => exact (refuseWrite_fails progress error).2.2

/-- With an output file, the writer decides how the run ends and what it leaves. -/
theorem deliver_of_output (progress : Progress) (text : String) (encodable withError : Bool)
    {place : Place} (hplace : command.output = some place) :
    (command.deliver progress text encodable withError).tree =
        (command.writing progress.surroundings.tree text encodable place).1 ∧
      (command.deliver progress text encodable withError).output = "" ∧
      (command.deliver progress text encodable withError).ending.exitCode =
        if (command.writing progress.surroundings.tree text encodable place).2 = .ok () then
          (Ending.delivered withError).exitCode
        else 1 := by
  have hwriting : command.writing progress.surroundings.tree text encodable place =
      ({} : Writer).writeWithMode progress.surroundings.tree (.ofPlace place) text
        (if command.force then .force else .error) command.format.name
        (if encodable then none else some .unencodable) := rfl
  unfold deliver
  rw [hplace]
  dsimp only
  rw [← hwriting]
  generalize command.writing progress.surroundings.tree text encodable place = outcome
  obtain ⟨after, result⟩ := outcome
  cases result with
  | ok done => exact ⟨rfl, rfl, rfl⟩
  | error error =>
      have hfails := refuseWrite_fails progress error
      exact ⟨rfl, hfails.2.1, hfails.1⟩

theorem writing_settles (command : Command) (tree : FileTree) (text : String) (encodable : Bool)
    (place : Place) : Settles tree (command.writing tree text encodable place).1 (.ofPlace place)
      text (command.writing tree text encodable place).2 :=
  ({} : Writer).writeWithMode_settles ..

/-- A text that can be encoded and that the writer accepts is written wherever the mode allows it
and it can be. -/
theorem writing_eq_ok_iff (command : Command) (tree : FileTree) (text : String) (encodable : Bool)
    (place : Place) : (command.writing tree text encodable place).2 = .ok () ↔
      encodable = true ∧ ({} : Writer).checkFor command.format.name true text = .ok () ∧
        (command.force = true ∨ tree.find? (.ofPlace place) = none) ∧
        tree.CanCreate (.ofPlace place) := by
  have hmishap : mishapOf encodable = none ↔ encodable = true := by
    cases encodable <;> decide
  rw [writing, Writer.writeWithMode_eq_ok_iff, mode_eq_force, hmishap]

theorem writing_of_exists {tree : FileTree} {place : Place} (hforce : command.force = false)
    (hexists : tree.find? (.ofPlace place) ≠ none) (encodable : Bool) :
    command.writing tree text encodable place =
      (tree, .error (.targetExists (.ofPlace place))) := by
  have hmode : command.mode = .error := by rw [mode, hforce, if_neg Bool.false_ne_true]
  rw [writing, hmode]
  unfold FileTree.find? at hexists
  cases hlookUp : tree.lookUp (.ofPlace place) with
  | ok entry => exact ({} : Writer).writeWithMode_of_exists hlookUp text command.format.name _
  | error error =>
      rw [hlookUp] at hexists
      exact absurd rfl hexists

/-- Where the writer fails, so does the run. -/
theorem deliver_fails (progress : Progress) (encodable withError : Bool) {place : Place}
    (hplace : command.output = some place)
    (hfails : (command.writing progress.surroundings.tree text encodable place).2 ≠ .ok ()) :
    Fails progress.surroundings.tree (command.deliver progress text encodable withError) := by
  have hsettles := command.writing_settles progress.surroundings.tree text encodable place
  obtain ⟨htree, houtput, hcode⟩ := deliver_of_output progress text encodable withError hplace
  rw [if_neg hfails] at hcode
  refine ⟨hcode, houtput, ?_⟩
  rw [htree]
  generalize command.writing progress.surroundings.tree text encodable place = outcome
    at hsettles hfails
  obtain ⟨after, result⟩ := outcome
  cases hsettles with
  | returned => exact absurd rfl hfails
  | raised hfiles => exact hfiles

/-- A text that can be encoded and that the writer accepts is put out. -/
theorem deliver_outputs (haccepts : ({} : Writer).checkFor command.format.name true text = .ok ())
    (progress : Progress) (withError : Bool) :
    Outputs command progress.surroundings.tree text (Ending.delivered withError).exitCode
      (command.deliver progress text true withError) := by
  refine ⟨fun hnone => ?_, fun place hplace hmode hcan => ?_, fun place hplace hforce hexists => ?_,
    fun place hplace hcannot => ?_⟩
  · unfold deliver
    rw [hnone]
    exact ⟨rfl, rfl, rfl⟩
  · have hdone := (command.writing_eq_ok_iff progress.surroundings.tree text true place).mpr
      ⟨rfl, haccepts, hmode, hcan⟩
    have hsettles := command.writing_settles progress.surroundings.tree text true place
    obtain ⟨htree, houtput, hcode⟩ := deliver_of_output progress text true withError hplace
    rw [hdone] at hsettles
    rw [if_pos hdone] at hcode
    rw [htree]
    exact ⟨hcode, houtput, hsettles⟩
  · obtain ⟨htree, houtput, hcode⟩ := deliver_of_output progress text true withError hplace
    rw [writing_of_exists hforce hexists] at htree hcode
    exact ⟨hcode, houtput, htree⟩
  · exact deliver_fails progress true withError hplace
      (mt (command.writing_eq_ok_iff _ text true place).mp fun hall => hcannot hall.2.2.2)

/-- A text that cannot be encoded is not put out, wherever it was to go. -/
theorem deliver_unencodable (progress : Progress) (withError : Bool) :
    Fails progress.surroundings.tree (command.deliver progress text false withError) := by
  cases houtput : command.output with
  | none =>
      unfold deliver
      rw [houtput]
      exact (refuses_crash progress _).fails
  | some place =>
      exact deliver_fails progress false withError houtput
        (mt (command.writing_eq_ok_iff _ text false place).mp fun hall => nomatch hall.1)

/-! ## Runs -/

/-- The configuration that a command asks for: the standard one, or that of an object in a file. -/
inductive Loads (command : Command) (tree : FileTree) : Config → Prop where
  | standard (hnone : command.config = none) : Loads command tree .standard
  | file {place : Place} {content : String} {fields : Fields} {config : Config}
      (hplace : command.config = some place) (hfile : tree.get? place = some (.file content))
      (hread : Json.read (Text.unifyLines content) = .ok (.obj fields))
      (hfields : Config.ofFields fields = .ok config) : Loads command tree config

theorem exists_loadConfig {config : Config}
    (hloads : command.Loads progress.surroundings.tree config) (hquiet : progress.Quiet) :
    ∃ loaded : Progress, command.loadConfig progress = .ok (config, loaded) ∧
      loaded.surroundings = progress.surroundings ∧ loaded.verbose = progress.verbose ∧
      loaded.Quiet := by
  unfold loadConfig
  cases hloads with
  | standard hnone =>
      rw [hnone]
      exact ⟨progress, rfl, rfl, rfl, hquiet⟩
  | file hplace hfile hread hfields =>
      rw [hplace]
      dsimp only
      rw [hfile]
      dsimp only
      rw [hread]
      dsimp only
      rw [hfields]
      exact ⟨_, rfl, progress.log_surroundings _ _, progress.log_verbose _ _, hquiet.log _ _⟩

/-- With its configuration loaded, a run ends with the answer for its schema. -/
theorem exists_run_eq {surroundings : Surroundings} {config : Config}
    (hloads : command.Loads surroundings.tree config) {answer : Answer}
    (hanswer : (Request.text command.schema.text).answer config surroundings.draws 0 = answer) :
    ∃ progress : Progress, progress.surroundings = surroundings ∧
      progress.verbose = command.verbose ∧ progress.draws = answer.draws ∧ progress.Quiet ∧
      (∀ value, answer.result = .ok value →
        command.run surroundings = command.finish progress value none) ∧
      ∀ problem, answer.result = .error problem →
        command.run surroundings = command.finishWithout progress problem := by
  obtain ⟨loaded, hloaded, hsurroundings, hverbose, hquiet⟩ :=
    @exists_loadConfig command { surroundings, verbose := command.verbose } config hloads
      fun _ => rfl
  subst hanswer
  have hlogged := hquiet.log "INFO" ("Generating example from " ++ command.schema.name)
  refine ⟨{ loaded.log "INFO" ("Generating example from " ++ command.schema.name) with
    draws := ((Request.text command.schema.text).answer config surroundings.draws 0).draws },
    (loaded.log_surroundings _ _).trans hsurroundings, (loaded.log_verbose _ _).trans hverbose, rfl,
    hlogged, fun value hvalue => ?_, fun problem hproblem => ?_⟩
  · unfold run
    simp only [hloaded, hvalue]
  · unfold run
    simp only [hloaded, hproblem]

theorem finish_draws (progress : Progress) (value : Json) (error : Option Str) :
    (command.finish progress value error).draws = progress.draws := by
  unfold finish
  split
  next => rfl
  next => exact command.deliver_draws ..

theorem finish_of_document (hformat : command.format = .json) (progress : Progress) {value : Json}
    (hdocument : value.document (.int command.indent) = .ok text) :
    command.finish progress value none =
      command.deliver progress text value.isPlain false := by
  unfold finish present encodable
  simp only [hformat, hdocument, Option.isSome_none, Option.all_none, Bool.and_true]

theorem finish_of_fault (hformat : command.format = .json) (progress : Progress) {value : Json}
    {cause : Fault} (hdocument : value.document (.int command.indent) = .error cause) :
    command.finish progress value none = progress.crash (.fault cause) := by
  unfold finish present
  simp only [hformat, hdocument]

/-- A value with a document is delivered, and the check of a writer accepts the document. -/
theorem finish_delivers (hformat : command.format = .json) (progress : Progress) {value : Json}
    (hplain : value.isPlain = true)
    (hdocument : value.document (.int command.indent) = .ok text) :
    ContentCheck.json text = .ok () ∧
      Delivers command progress.surroundings.tree text (command.finish progress value none) := by
  have hindent : ∀ unit, Json.int command.indent ≠ .str unit := fun unit heq => nomatch heq
  have haccepts := ContentCheck.json_of_read (Json.read_document hplain hindent hdocument)
  have hcheck : ({} : Writer).checkFor command.format.name true text = .ok () := by
    rw [hformat]
    exact haccepts
  rw [finish_of_document hformat progress hdocument, hplain]
  exact ⟨haccepts, deliver_outputs hcheck progress false,
    Json.stripSequences_document hindent hdocument⟩

/-- A problem without a message breaks the run off. -/
theorem exists_crash_of_no_message (progress : Progress) {problem : Problem}
    (hmessage : problem.message? = none) :
    ∃ cause, command.finishWithout progress problem = progress.crash cause := by
  unfold finishWithout
  rw [hmessage]
  cases problem with
  | unreadable error => exact ⟨_, rfl⟩
  | failed cause => cases cause <;> exact ⟨_, rfl⟩

/-- A schema without an example changes nothing, and the reason is shown if it has a message. -/
theorem finishWithout_refuses (hformat : command.format = .json) {progress : Progress}
    (hquiet : progress.Quiet) (problem : Problem) :
    (command.finishWithout progress problem).draws = progress.draws ∧
      Refuses progress.surroundings.tree (command.finishWithout progress problem) ∧
      ∀ message, problem.message? = some message → ∃ shown,
        (progress.verbose = false → shown = "") ∧
          (command.finishWithout progress problem).messages =
            shown ++ Text.stripSequences ("Error: " ++ message.shown ++ "\n") := by
  cases hmessage : problem.message? with
  | some message =>
      unfold finishWithout
      rw [hmessage]
      dsimp only
      rw [hformat]
      dsimp only
      have hrefuses := refuses_refuse
        (progress.log "INFO" ("Generation failed: " ++ message.shown)) message.shown
      rw [Progress.log_surroundings] at hrefuses
      refine ⟨progress.log_draws _ _, hrefuses, fun message' hsame => ?_⟩
      cases hsame
      refine ⟨(progress.log "INFO" ("Generation failed: " ++ message.shown)).messages, ?_, rfl⟩
      intro hsilent
      exact hquiet.log _ _ ((progress.log_verbose _ _).trans hsilent)
  | none =>
      obtain ⟨cause, hcrash⟩ := @exists_crash_of_no_message command progress problem hmessage
      rw [hcrash]
      exact ⟨rfl, refuses_crash progress cause, by rintro message ⟨⟩⟩

end Command

/-- A run that is to show or write JSON takes the draws of the answer to its schema's text. Where
the answer is a value with a document, a writer's check accepts the document and it is delivered,
unless a string in the value cannot be encoded: then the run fails and changes no file. A value has
no document only where an integer is too long or the indentation is not one that it takes. Then, and
where the answer is no value, the run changes nothing and fails, with a message if the answer has
one. -/
theorem run_delivers_answer {surroundings : Surroundings} {arguments : List String}
    {command : Command}
    (hcommand : (orMisuse (Options.read arguments) >>= Command.ofOptions surroundings) =
      .ok command)
    (hformat : command.format = .json) {config : Config}
    (hloads : command.Loads surroundings.tree config) {answer : Answer}
    (hanswer : (Request.text command.schema.text).answer config surroundings.draws 0 = answer) :
    (run surroundings arguments).draws = answer.draws ∧
      match answer.result with
      | .ok value =>
          match value.document (.int command.indent) with
          | .ok text =>
              if value.isPlain then
                ContentCheck.json text = .ok () ∧
                  Delivers command surroundings.tree text (run surroundings arguments)
              else Fails surroundings.tree (run surroundings arguments)
          | .error _ => (value.writable = false ∨ ¬ value.TakesIndent none (.int command.indent)) ∧
              Refuses surroundings.tree (run surroundings arguments)
      | .error problem => Refuses surroundings.tree (run surroundings arguments) ∧
          ∀ message, problem.message? = some message → ∃ shown,
            (command.verbose = false → shown = "") ∧
              (run surroundings arguments).messages =
                shown ++ Text.stripSequences ("Error: " ++ message.shown ++ "\n") := by
  obtain ⟨progress, hsurroundings, hverbose, hdraws, hquiet, hvalue, hproblem⟩ :=
    Command.exists_run_eq hloads hanswer
  have heq : run surroundings arguments = command.run surroundings := by
    unfold run
    rw [hcommand]
  subst hsurroundings
  rw [heq]
  cases hresult : answer.result with
  | ok value =>
      rw [hvalue value hresult]
      dsimp only
      cases hdocument : value.document (.int command.indent) with
      | ok text =>
          refine ⟨(Command.finish_draws ..).trans hdraws, ?_⟩
          dsimp only
          split
          next hplain => exact Command.finish_delivers hformat progress hplain hdocument
          next hbroken =>
            rw [Command.finish_of_document hformat progress hdocument,
              Bool.eq_false_iff.mpr hbroken]
            exact Command.deliver_unencodable progress false
      | error cause =>
          rw [Command.finish_of_fault hformat progress hdocument]
          refine ⟨hdraws, ?_, Command.refuses_crash progress _⟩
          by_contra hboth
          rw [not_or, Bool.not_eq_false, not_not] at hboth
          obtain ⟨text, htext⟩ := Json.exists_document hboth.1 hboth.2
          rw [hdocument] at htext
          cases htext
  | error problem =>
      rw [hproblem problem hresult, ← hverbose]
      obtain ⟨hfinish, hrefuses⟩ := Command.finishWithout_refuses hformat hquiet problem
      exact ⟨hfinish.trans hdraws, hrefuses⟩

/-- A schema without constraints has null for an example, which is written to a new file. -/
theorem written_sample :
    (run { tree := ⟨[], []⟩, input := "\x7b\x7d", draws := .constant .zero }
      ["-", "a.json"]).ending.exitCode = 0 ∧
    (run { tree := ⟨[], []⟩, input := "\x7b\x7d", draws := .constant .zero }
      ["-", "a.json"]).output = "" ∧
    Settles ⟨[], []⟩ (run { tree := ⟨[], []⟩, input := "\x7b\x7d", draws := .constant .zero }
      ["-", "a.json"]).tree ["/", "a.json"] "null\n" (.ok ()) := by
  have hdelivers := (@run_delivers_answer
    { tree := ⟨[], []⟩, input := "\x7b\x7d", draws := .constant .zero } ["-", "a.json"]
    ⟨none, .json, 2, false, false, ⟨"<stdin>", "\x7b\x7d"⟩, some ["a.json"]⟩ (by decide +kernel) rfl
    .standard (.standard rfl) _ rfl).2
  have hresult : ((Request.text "\x7b\x7d").answer .standard (.constant .zero) 0).result =
      .ok .null := by decide +kernel
  have hdocument : Json.null.document (.int 2) = .ok "null\n" := by decide +kernel
  have hcan : FileTree.CanCreate ⟨[], []⟩ ["/", "a.json"] :=
    ⟨⟨[], []⟩, by decide +kernel,
      ⟨"aaaaaaaa", [".a.json.aaaaaaaa.tmp"], by decide +kernel, by decide +kernel,
        by decide +kernel⟩,
      ["a.json"], by decide +kernel, by decide +kernel⟩
  rw [hresult] at hdelivers
  dsimp only at hdelivers
  rw [hdocument] at hdelivers
  exact hdelivers.2.written ["a.json"] rfl (Or.inr (by decide +kernel)) hcan

/-- An escape in the schema's text may stand for half of a pair, which has no encoding. -/
example :
    let report := run
      { tree := ⟨[], []⟩, input := "\x7b\"default\": \"\\ud800\"\x7d", draws := .constant .zero }
      ["-"]
    report.ending = .crashed (.fault .noSuchValue) ∧ report.output = "" := by
  decide +kernel

/-- Although there is a value to show, a run fails where the indentation is no word. -/
theorem fails_with_value :
    ((Request.text "\x7b\x7d").answer .standard (.constant .zero) 0).result = .ok .null ∧
    (run { tree := ⟨[], []⟩, input := "\x7b\x7d", draws := .constant .zero }
      ["-", "--indent", "99999999999999999999"]).ending.exitCode = 1 ∧
    (run { tree := ⟨[], []⟩, input := "\x7b\x7d", draws := .constant .zero }
      ["-", "--indent", "99999999999999999999"]).output = "" := by
  refine ⟨?_, ?_, ?_⟩ <;> decide +kernel

end Exemplar.CommandLine
