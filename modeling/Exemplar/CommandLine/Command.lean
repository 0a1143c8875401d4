import Exemplar.CommandLine.Options
import Exemplar.Files.Write
import Exemplar.Page
import Exemplar.Session
import Exemplar.Text.Integer
import Exemplar.Text.Lines
import Exemplar.Text.Quoted

/-!
# The command

The command reads a schema, makes an example and shows it or writes it to a
file, as JSON or as a page. What it does is a function of its arguments and of
its surroundings: the files, its input and the supply of draws.
-/

namespace Exemplar.CommandLine

/-- The form of the output. -/
inductive OutputFormat where
  | json
  | html
deriving DecidableEq

namespace OutputFormat

/-- The name of a format. -/
def name : OutputFormat → String
  | json => "json"
  | html => "html"

/-- The format of a name. -/
def ofName? : String → Option OutputFormat
  | "json" => some json
  | "html" => some html
  | _ => none

end OutputFormat

/-- What the command finds when it is started. -/
structure Surroundings where
  /-- The files; the home is the directory that the command works in. -/
  tree : FileTree
  /-- What the working directory is called in messages. -/
  homeName : String := ""
  input : String := ""
  draws : Draws
  /-- What messages of progress start with. -/
  stamp : String := ""

namespace Surroundings

/-- The place that a written path names by its names alone. -/
def placeOf (surroundings : Surroundings) (written : String) : Place :=
  Path.settle surroundings.tree.home (Path.ofText written)

/-- A place as it is shown in messages. -/
def shown (surroundings : Surroundings) (place : Place) : String :=
  let home := surroundings.tree.home
  if home.isPrefixOf place then
    surroundings.homeName ++ String.join ((place.drop home.length).map ("/" ++ ·))
  else place.text

/-- A path as it is shown in messages. -/
def shownPath (surroundings : Surroundings) (path : Path) : String :=
  surroundings.shown (Path.settle surroundings.tree.home path)

end Surroundings

/-- Where a schema comes from. -/
structure Source where
  /-- Its name in messages. -/
  name : String
  text : String
deriving DecidableEq

/-- A command whose arguments have been understood. -/
structure Command where
  config : Option Place
  format : OutputFormat
  indent : Int
  force : Bool
  verbose : Bool
  schema : Source
  output : Option Place
deriving DecidableEq

/-- What the command does not report itself. -/
inductive Crash where
  | fault (cause : Fault)
  | file (error : FileError)
deriving DecidableEq

/-- How a run of the command ends. -/
inductive Ending where
  /-- The arguments are not used correctly. -/
  | misuse
  /-- The result has been shown or written, with a report of an error if it holds one. -/
  | delivered (withError : Bool)
  /-- The reason was reported. -/
  | refused
  /-- The run broke off. -/
  | crashed (cause : Crash)
deriving DecidableEq

/-- A path that can be looked up at all; others break the run off. -/
def checkWritten (written : String) : Except Ending Unit :=
  if Path.holdsNull [written] then .error (.crashed (.file .nullCharacter)) else .ok ()

/-- The schema that an operand names: the input, or a file that can be read. -/
def Source.ofOperand (surroundings : Surroundings) (operand : String) : Except Ending Source :=
  if operand = "-" then .ok ⟨"<stdin>", Text.unifyLines surroundings.input⟩
  else do
    checkWritten operand
    if Path.asksDirectory operand then .error .misuse
    else
      match surroundings.tree.find? (Path.ofText operand) with
      | some (.file content) => .ok ⟨operand, Text.unifyLines content⟩
      | _ => .error .misuse

/-- The place of a configuration file, which has to exist. -/
def configPlace (surroundings : Surroundings) (written : String) : Except Ending Place := do
  checkWritten written
  let place := surroundings.placeOf written
  if (surroundings.tree.find? (.ofPlace place)).isSome then .ok place else .error .misuse

/-- The place of an output file, which must not be a directory. -/
def outputPlace (surroundings : Surroundings) (written : String) : Except Ending Place := do
  checkWritten written
  let place := surroundings.placeOf written
  if surroundings.tree.find? (.ofPlace place) = some .directory then .error .misuse else .ok place

/-- A value that has to be there if the arguments are used correctly. -/
def orMisuse {α : Type} : Option α → Except Ending α
  | some value => .ok value
  | none => .error .misuse

/-- What the options with values say. -/
structure Preferences where
  config : Option Place := none
  format : OutputFormat := .json
  indent : Int := 2
deriving DecidableEq

/-- Takes an option with its value into account. -/
def Preferences.take (surroundings : Surroundings) (preferences : Preferences) :
    Setting × String → Except Ending Preferences
  | (.config, written) => do
      let place ← configPlace surroundings written
      return { preferences with config := some place }
  | (.format, written) => do
      let format ← orMisuse (OutputFormat.ofName? written)
      return { preferences with format }
  | (.indent, written) => do
      let indent ← orMisuse (Text.integer? written)
      return { preferences with indent }

/-- The place of the output, if there is an operand for it. -/
def outputOf (surroundings : Surroundings) : List String → Except Ending (Option Place)
  | [] => .ok none
  | target :: _ => (outputPlace surroundings target).map some

/-- The command that options stand for, or how the run ends without one. Options come first, in the
order in which they were given, and then the operands; the first of them that cannot be used
decides. -/
def Command.ofOptions (surroundings : Surroundings) (options : Options) :
    Except Ending Command := do
  let preferences ← options.settings.foldlM (Preferences.take surroundings) {}
  match options.operands with
  | [] => .error .misuse
  | operand :: targets =>
      let schema ← Source.ofOperand surroundings operand
      let output ← outputOf surroundings targets
      if 1 < targets.length then .error .misuse
      else
        return ⟨preferences.config, preferences.format, preferences.indent, options.force,
          options.verbose, schema, output⟩

/-- The exit code of an ending. -/
def Ending.exitCode : Ending → Nat
  | misuse => 2
  | delivered withError => if withError then 1 else 0
  | refused => 1
  | crashed _ => 1

/-- What a run of the command leaves behind. -/
structure Report where
  ending : Ending
  /-- What was shown on the output. -/
  output : String := ""
  /-- What was shown beside it. -/
  messages : String := ""
  tree : FileTree
  draws : Nat := 0

/-- The state of a run that goes on: the messages so far. -/
structure Progress where
  surroundings : Surroundings
  verbose : Bool
  messages : String := ""
  draws : Nat := 0

namespace Progress

/-- The name under which progress is reported. -/
def logName : String := "json_schema_to_example.json_schema_to_example"

/-- A message of progress with its level, which is only shown if that is wanted. -/
def log (progress : Progress) (level message : String) : Progress :=
  if progress.verbose then
    let blanks := String.ofList (List.replicate (8 - level.length) ' ')
    { progress with
      messages := progress.messages ++ progress.surroundings.stamp ++ level ++ blanks ++ " "
        ++ logName ++ ": " ++ message ++ "\n" }
  else progress

/-- Ends the run without output. -/
def stop (progress : Progress) (ending : Ending) : Report :=
  { ending, messages := progress.messages, tree := progress.surroundings.tree,
    draws := progress.draws }

/-- Ends the run with a reported reason. -/
def refuse (progress : Progress) (reason : String) : Report :=
  { progress with
    messages := progress.messages ++ Text.stripSequences ("Error: " ++ reason ++ "\n") }.stop
    .refused

/-- Ends the run with something that is not reported. -/
def crash (progress : Progress) (cause : Crash) : Report := progress.stop (.crashed cause)

end Progress

namespace Command

/-- The configuration of a run, read from its file if there is one. -/
def loadConfig (command : Command) (progress : Progress) :
    Except Report (Config × Progress) :=
  match command.config with
  | none => .ok (.standard, progress)
  | some place =>
      let shown := progress.surroundings.shown place
      let refuse (reason : String) : Except Report (Config × Progress) :=
        .error (progress.refuse ("Invalid config file " ++ shown ++ ": " ++ reason))
      let crash (cause : Crash) : Except Report (Config × Progress) :=
        .error (progress.crash cause)
      match progress.surroundings.tree.get? place with
      | none => crash (.file .missing)
      | some .directory => crash (.file .isDirectory)
      | some (.file content) =>
          match Json.read (Text.unifyLines content) with
          | .error (.malformed problem) => refuse problem.message
          | .error .integerTooLong => crash (.fault .noSuchValue)
          | .ok (.obj fields) =>
              match Config.ofFields fields with
              | .error cause => crash (.fault cause)
              | .ok config =>
                  .ok (config, progress.log "DEBUG" ("Loaded generator config from " ++ shown))
          | .ok _ => refuse "expected a JSON object"

/-- The page that shows a value, and an error beside it. -/
def page (command : Command) (value : Json) (error : Option Str) : Page :=
  { schemaText := command.schema.text, value, error := error.elim "" Str.shown,
    indent := .int command.indent }

/-- The text that shows a value, and an error beside it if the output is a page. -/
def present (command : Command) (value : Json) (error : Option Str) : Except Fault String :=
  match command.format with
  | .json => value.document (.int command.indent)
  | .html => (command.page value error).render

/-- Whether the text that shows a value and an error can be encoded: it cannot if a string in it
holds half of a pair. -/
def encodable (value : Json) (error : Option Str) : Bool :=
  value.isPlain && error.all Str.isPlain

/-- Ends a run after a failed write. -/
def refuseWrite (progress : Progress) : WriteError → Report
  | .targetExists path =>
      progress.refuse (WriteError.targetExistsText (progress.surroundings.shownPath path))
  | .file .taken path =>
      let shown := progress.surroundings.shownPath path
      progress.refuse ("[Errno 17] File exists: " ++ Text.quoteName shown)
  | .noFreeName => progress.refuse "[Errno 17] No usable temporary file name found"
  | .file error _ => progress.crash (.file error)
  | _ => progress.crash (.fault .noSuchValue)

/-- Shows a text or writes it to the output file. A text that cannot be encoded is not shown, and
the writer comes no further with it than to its temporary file. -/
def deliver (command : Command) (progress : Progress) (text : String) (encodable withError : Bool) :
    Report :=
  match command.output with
  | none =>
      if encodable then
        { progress.stop (.delivered withError) with output := Text.stripSequences text }
      else progress.crash (.fault .noSuchValue)
  | some place =>
      let mode := if command.force then OutputMode.force else OutputMode.error
      let format := command.format.name
      let target := Path.ofPlace place
      let mishap := if encodable then none else some WriteError.unencodable
      match ({} : Writer).writeWithMode progress.surroundings.tree target text mode format
        mishap with
      | (tree, .ok ()) =>
          let shown := progress.surroundings.shown place
          let progress := progress.log "INFO" ("Wrote " ++ format ++ " output to " ++ shown)
          { progress.stop (.delivered withError) with tree }
      | (tree, .error error) => { refuseWrite progress error with tree }

/-- Ends a run with a value, or with an error to be shown in place of one. -/
def finish (command : Command) (progress : Progress) (value : Json) (error : Option Str) :
    Report :=
  match command.present value error with
  | .error cause => progress.crash (.fault cause)
  | .ok text => command.deliver progress text (encodable value error) error.isSome

/-- Ends a run whose schema has no example. A page shows the error; JSON has no place for it. -/
def finishWithout (command : Command) (progress : Progress) (problem : Problem) : Report :=
  match problem, problem.message? with
  | _, some message =>
      let progress := progress.log "INFO" ("Generation failed: " ++ message.shown)
      match command.format with
      | .json => progress.refuse message.shown
      | .html => command.finish progress (.obj []) (some message)
  | .failed (.fault cause), none => progress.crash (.fault cause)
  | _, none => progress.crash (.fault .noSuchValue)

/-- Runs a command. -/
def run (command : Command) (surroundings : Surroundings) : Report :=
  match command.loadConfig { surroundings, verbose := command.verbose } with
  | .error report => report
  | .ok (config, progress) =>
      let progress := progress.log "INFO" ("Generating example from " ++ command.schema.name)
      let answer := (Request.text command.schema.text).answer config surroundings.draws 0
      let progress := { progress with draws := answer.draws }
      match answer.result with
      | .ok value => command.finish progress value none
      | .error problem => command.finishWithout progress problem

end Command

/-- Runs the command that arguments stand for. -/
def run (surroundings : Surroundings) (arguments : List String) : Report :=
  match orMisuse (Options.read arguments) >>= Command.ofOptions surroundings with
  | .ok command => command.run surroundings
  | .error ending => { ending, tree := surroundings.tree }

end Exemplar.CommandLine
