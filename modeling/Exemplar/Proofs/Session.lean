import Exemplar.Proofs.Generation.Allowance
import Exemplar.Proofs.Generation.Supply
import Exemplar.Session

/-!
# What a session keeps

A session keeps its configuration and its place in the supply from one step to the
next, and nothing else. Each request is answered as by a session that is new, has
the latest configuration and starts on what is left of the supply; whatever was
asked before shows only in the number of draws that it took. This is so within
every allowance, and an allowance that is enough for a session does not show.
-/

namespace Exemplar

theorem Outcome.answer_later (outcome : Outcome Json) (count : Nat) :
    (outcome.later count).answer count = outcome.answer 0 := by
  cases outcome with
  | value result position => simp [later, answer]
  | failure cause position => simp [later, answer]
  | unfinished => rfl

/-- An answer depends on the rest of the supply alone. -/
theorem Request.answer_eq_dropFirst (request : Request) (config : Config) (draws : Draws)
    (count allowance : Nat) :
    request.answer config draws count allowance =
      request.answer config (draws.dropFirst count) 0 allowance := by
  have hexample (schema root : Json) :
      (exampleWithin allowance config schema root draws count).answer count =
        (exampleWithin allowance config schema root (draws.dropFirst count) 0).answer 0 := by
    rw [exampleWithin_eq_later, Outcome.answer_later]
  cases request with
  | schema asked root => exact hexample asked root
  | text source =>
      unfold Request.answer
      dsimp only
      cases Json.read source with
      | error error => rfl
      | ok asked => exact hexample asked asked

/-- An allowance is enough for a request. -/
def Request.EndsWithin (allowance : Nat) (config : Config) (draws : Draws) (position : Nat) :
    Request → Prop
  | .schema asked root => exampleWithin allowance config asked root draws position ≠ .unfinished
  | .text source => ∀ asked, Json.read source = .ok asked →
      exampleWithin allowance config asked asked draws position ≠ .unfinished

/-- An answer belongs to the request, not to the allowance. -/
theorem Request.answer_of_endsWithin {request : Request} {config : Config} {draws : Draws}
    {position allowance allowance' : Nat} (hle : allowance ≤ allowance')
    (hends : request.EndsWithin allowance config draws position) :
    request.answer config draws position allowance' =
      request.answer config draws position allowance := by
  cases request with
  | schema asked root =>
      exact congrArg (Outcome.answer position)
        (exampleWithin_extends hle config asked root draws position hends)
  | text source =>
      unfold Request.EndsWithin at hends
      unfold Request.answer
      dsimp only
      cases hread : Json.read source with
      | error error => rfl
      | ok asked =>
          exact congrArg (Outcome.answer position)
            (exampleWithin_extends hle config asked asked draws position (hends asked hread))

namespace Session

variable {allowance : Nat}

/-- The draws that a reply took. -/
def Reply.draws : Reply → Nat
  | .configured _ => 0
  | .rejected _ => 0
  | .answered answer => answer.draws

/-- The draws that replies took together. -/
def drawsOf : List Reply → Nat
  | [] => 0
  | reply :: rest => reply.draws + drawsOf rest

/-- The configuration that a step leaves: another one only where it sets one. -/
def Step.configAfter (config : Config) : Step → Config
  | .configure settings =>
      match Config.ofJson settings with
      | .ok config => config
      | .error _ => config
  | .request _ => config

/-- The configuration that steps leave: the last one that was set, if any. -/
def latestConfig (config : Config) (steps : List Step) : Config :=
  steps.foldl Step.configAfter config

/-- A step leaves its configuration and the place behind the draws that it took. -/
theorem step_session (draws : Draws) (session : Session) (step : Step) :
    (session.step draws step allowance).2 = ⟨step.configAfter session.config,
      session.position + (session.step draws step allowance).1.draws⟩ := by
  cases step with
  | configure settings =>
      unfold Session.step Step.configAfter
      dsimp only
      cases Config.ofJson settings <;> rfl
  | request request => rfl

theorem run_cons (draws : Draws) (session : Session) (first : Step) (rest : List Step) :
    session.run draws (first :: rest) allowance =
      ((session.step draws first allowance).1 ::
        ((session.step draws first allowance).2.run draws rest allowance).1,
        ((session.step draws first allowance).2.run draws rest allowance).2) := rfl

theorem run_append (draws : Draws) (session : Session) (done rest : List Step) :
    session.run draws (done ++ rest) allowance =
      ((session.run draws done allowance).1 ++
        ((session.run draws done allowance).2.run draws rest allowance).1,
        ((session.run draws done allowance).2.run draws rest allowance).2) := by
  induction done generalizing session with
  | nil => rfl
  | cons first done ih => rw [List.cons_append, run_cons, run_cons, ih, List.cons_append]

theorem length_run (draws : Draws) (session : Session) (steps : List Step) :
    (session.run draws steps allowance).1.length = steps.length := by
  induction steps generalizing session with
  | nil => rfl
  | cons first rest ih => rw [run_cons, List.length_cons, ih, List.length_cons]

/-- Steps leave the latest configuration and the place behind the draws that they took. -/
theorem run_session (draws : Draws) (session : Session) (steps : List Step) :
    (session.run draws steps allowance).2 = ⟨latestConfig session.config steps,
      session.position + drawsOf (session.run draws steps allowance).1⟩ := by
  induction steps generalizing session with
  | nil => rfl
  | cons first rest ih =>
      rw [run_cons, ih, drawsOf, ← Nat.add_assoc, step_session]
      rfl

theorem run_request (draws : Draws) (session : Session) (request : Request) (rest : List Step) :
    (session.run draws (.request request :: rest) allowance).1 =
      .answered (request.answer session.config draws session.position allowance) ::
        ((session.step draws (.request request) allowance).2.run draws rest allowance).1 := rfl

/-- An allowance is enough for every request among steps. -/
def EndsWithin (allowance : Nat) (draws : Draws) (session : Session) : List Step → Prop
  | [] => True
  | .configure settings :: rest =>
      EndsWithin allowance draws (session.step draws (.configure settings) allowance).2 rest
  | .request request :: rest =>
      request.EndsWithin allowance session.config draws session.position ∧
        EndsWithin allowance draws (session.step draws (.request request) allowance).2 rest

/-- With more than is enough a session goes on as before. -/
theorem run_of_endsWithin {allowance' : Nat} (hle : allowance ≤ allowance') {draws : Draws}
    {session : Session} {steps : List Step} (hends : session.EndsWithin allowance draws steps) :
    session.run draws steps allowance' = session.run draws steps allowance := by
  induction steps generalizing session with
  | nil => rfl
  | cons first rest ih =>
      cases first with
      | configure settings =>
          rw [run_cons, run_cons, ← ih hends]
          rfl
      | request request =>
          have hstep : session.step draws (.request request) allowance' =
              session.step draws (.request request) allowance := by
            unfold step
            dsimp only
            rw [Request.answer_of_endsWithin hle hends.1]
          rw [run_cons, run_cons, hstep, ih hends.2]

/-- Whatever was done before it, a request is answered as by a new session with the latest
configuration on the supply without the draws that were taken; and the draws of a session are those
of its replies. -/
theorem replies_as_fresh_session (allowance : Nat) (config : Config) (draws : Draws)
    (done : List Step) (request : Request) (rest : List Step) :
    (∃ reply,
      ((start config).run draws (done ++ .request request :: rest) allowance).1[done.length]?
        = some reply ∧
      ((start (latestConfig config done)).run
        (draws.dropFirst (drawsOf ((start config).run draws done allowance).1)) [.request request]
          allowance).1 = [reply]) ∧
      ((start config).run draws (done ++ .request request :: rest) allowance).2.position =
        drawsOf ((start config).run draws (done ++ .request request :: rest) allowance).1 := by
  constructor
  · have hbefore := @run_session allowance draws (start config) done
    refine ⟨.answered (request.answer (latestConfig config done) draws
      (drawsOf ((start config).run draws done allowance).1) allowance), ?_, ?_⟩
    · rw [run_append, List.getElem?_append_right (Nat.le_of_eq (length_run draws _ done)),
        length_run, Nat.sub_self, hbefore, run_request, start, Nat.zero_add]
      rfl
    · rw [run_request, request.answer_eq_dropFirst _ draws]
      rfl
  · rw [run_session]
    exact Nat.zero_add _

end Session

end Exemplar
