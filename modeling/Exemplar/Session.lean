import Exemplar.Generation.Example
import Exemplar.Json.Reader

/-!
# Sessions

A session answers requests one after another from a single supply of draws. It
keeps its configuration and its place in the supply, and nothing else.
-/

namespace Exemplar

/-- Why a request for an example is refused. -/
inductive Problem where
  | unreadable (error : Json.ReadError)
  | failed (cause : Failure)
deriving DecidableEq

namespace Problem

def ofFault (cause : Fault) : Problem := failed (.fault cause)

/-- The message of a problem that is reported to the user: a text that is no JSON or a schema that
has no example. Others have none. -/
def message? : Problem → Option Str
  | unreadable (.malformed problem) => some problem.message
  | unreadable .integerTooLong => none
  | failed cause => cause.message?

end Problem

/-- What is asked for. -/
inductive Request where
  /-- An example of a schema within a root schema. -/
  | schema (schema root : Json)
  /-- An example of the schema in a text, which is its own root. -/
  | text (text : String)
deriving DecidableEq

/-- Whether an example was made, and how many draws were taken. -/
structure Answer where
  result : Except Problem Json
  draws : Nat

/-- The answer that an outcome means, for a run from a starting position. A run that does not finish
within its allowance is refused. -/
def Outcome.answer (start : Nat) : Outcome Json → Answer
  | .value result position => ⟨.ok result, position - start⟩
  | .failure cause position => ⟨.error (.failed cause), position - start⟩
  | .unfinished => ⟨.error (.ofFault .nestingTooDeep), 0⟩

/-- Answers a request with a configuration, from a position in a supply of draws, within an
allowance of nested schemas. -/
def Request.answer (request : Request) (config : Config) (draws : Draws) (position : Nat)
    (allowance : Nat := nestingAllowance) : Answer :=
  match request with
  | .schema asked root =>
      (exampleWithin allowance config asked root draws position).answer position
  | .text source =>
      match Json.read source with
      | .error error => ⟨.error (.unreadable error), 0⟩
      | .ok asked => (exampleWithin allowance config asked asked draws position).answer position

/-- A session: what it falls back on, and how many draws it has taken. -/
structure Session where
  config : Config
  position : Nat
deriving DecidableEq

namespace Session

inductive Step where
  | configure (settings : Json)
  | request (request : Request)
deriving DecidableEq

inductive Reply where
  | configured (config : Config)
  | rejected (cause : Fault)
  | answered (answer : Answer)

/-- The session that has taken no draws. -/
def start (config : Config) : Session := ⟨config, 0⟩

/-- Takes one step, a request being answered within an allowance. Settings that cannot be used leave
the configuration as it was. -/
def step (draws : Draws) (session : Session) (step : Step)
    (allowance : Nat := nestingAllowance) : Reply × Session :=
  match step with
  | .configure settings =>
      match Config.ofJson settings with
      | .ok config => (.configured config, { session with config })
      | .error cause => (.rejected cause, session)
  | .request request =>
      let answer := request.answer session.config draws session.position allowance
      (.answered answer, { session with position := session.position + answer.draws })

/-- Takes steps in order. -/
def run (draws : Draws) (session : Session) (steps : List Step)
    (allowance : Nat := nestingAllowance) : List Reply × Session :=
  match steps with
  | [] => ([], session)
  | first :: rest =>
      let (reply, session) := session.step draws first allowance
      let (replies, session) := session.run draws rest allowance
      (reply :: replies, session)

end Session

end Exemplar
