import Archivist.Answer.Synthesis
import Archivist.Plan.Correction
import Archivist.Plan.Period
import Archivist.Plan.Planner
import Archivist.Tool.Round
import Archivist.Turn.Limiter
import Archivist.Turn.Sink
import Archivist.Turn.Smalltalk
import Archivist.Turn.State

/-!
# Turns

A turn answers one question and tells what it does in a stream of events that ends with either the
sources of the answer or an error. Small talk gets a reply; any other question costs the caller a
permit, is planned, looked into with tools, judged, perhaps looked into once more with a corrected
plan, and answered. All that comes before the answer has to be done in a fixed time.

Looking into a question is a loop: each pass runs a plan and may end with a corrected plan for the
next one. The states of the turn allow a single correction, so no pass comes after the second.

The clock on the wall stands still during a turn. It is read for the permit of the caller and by the
embedding cache, and both go by the moment at which the turn began; what would come of an embedding
that expires in the middle of a turn is not modelled.

A `Session` is what turns have in common: the collaborators with the cache in front of them, and
the rate limiter. A `Step` is a part of a turn; it may come to a `Halt`.
-/

namespace Archivist

/-- A question with what belongs to it. -/
structure TurnRequest where
  question : String
  caller : String
  history : List Remark := []
  /-- What the caller knows about the question. -/
  hints : Option Json := none

/-- How turns are run. -/
structure Assistant where
  workshop : Workshop
  planner : Planner
  judge : Judge
  corrector : Corrector
  context : ContextConfig := {}
  /-- Milliseconds that a turn may take before it begins to answer. -/
  allowance : Nat

/-- What turns have in common. -/
structure Session (env : Environment) where
  world : World env
  limiter : Limiter Float

/-- A turn at work. -/
structure Desk (env : Environment) where
  session : Session env
  machine : TurnMachine := {}
  sink : Sink := {}
  /-- The calls of each round that has been begun. -/
  rounds : List (List ToolCall) := []

/-- What a turn has told so far. -/
def Desk.events {env : Environment} (d : Desk env) : List Event := d.sink.events

/-- Why a turn does not go on. -/
inductive Halt where
  | failed (e : Failure)
  /-- The turn was told to take a step that its state does not allow. -/
  | misstep (e : Failure)
  /-- The time for the turn is used up. -/
  | late
  /-- A collaborator broke down. -/
  | crashed

/-- A part of a turn. -/
abbrev Step (env : Environment) (α : Type) : Type := ExceptT Halt (StateM (Desk env)) α

namespace Step

variable {env : Environment}

/-- Tells an event. -/
def tell (e : Event) : Step env Unit :=
  modify fun d => { d with sink := d.sink.send e }

/-- Tells that a stage begins. -/
def enter (stage : Stage) (detail : Option String) : Step env Unit := tell (.status stage detail)

/-- Takes a step through the states of the turn. -/
def advance (e : TurnEvent) : Step env Unit := do
  match (← get).machine.apply e with
  | .ok machine => modify fun d => { d with machine }
  | .error failure => throw (.misstep failure)

/-- Does something with the collaborators. -/
def withWorld {α : Type} (f : World env → α × World env) : Step env α :=
  modifyGet fun d =>
    let (a, world) := f d.session.world
    (a, { d with session := { d.session with world } })

/-- Goes on with the value of an action, or halts if it has none. -/
def ofEnding {α : Type} : Option (Ending α) → Step env α
  | some (.value (.ok a)) => return a
  | some (.value (.error e)) => throw (.failed e)
  | some .crashed => throw .crashed
  | some .late | none => throw .late

/-- Performs an action, which must be finished at `limit`. -/
def perform {α : Type} (limit : Option Nat) (p : Action α) : Step env α := do
  ofEnding (← withWorld (·.perform limit p))

/-- Takes a permit for the caller. -/
def takePermit (caller : String) : Step env Unit := do
  let granted ← modifyGet fun d =>
    let (granted, limiter) := d.session.limiter.acquire caller d.session.world.clock
    (granted, { d with session := { d.session with limiter } })
  match granted with
  | .ok () => return ()
  | .error e => throw (.failed e)

/-- Runs the calls of a plan, which must be finished at `limit`. -/
def round (workshop : Workshop) (limit : Option Nat) (plan : Plan) :
    Step env (List ToolResult) := do
  enter .toolExecution (some (Text.joined ", " plan.names))
  modify fun d => { d with rounds := d.rounds ++ [plan.calls] }
  match ← withWorld (workshop.round limit plan.calls) with
  | some results => return results
  | none => throw .late

/-- Passes on the answer to a request piece by piece. -/
def stream (request : ChatRequest) : Step env Unit := do
  let chunks ← perform none (Action.ask (.stream request))
  let streamed := Synthesis.stream chunks
  streamed.pieces.forM fun piece => tell (.token piece)
  match streamed.ended with
  | .complete => return ()
  | .failed e => throw (.failed e)
  | .brokenDown => throw .crashed

end Step

namespace Assistant

variable {env : Environment}

open Step

/-- The most tokens of a reply to small talk. -/
def smalltalkTokens : Nat := 128

/-- The request for a reply to small talk. -/
def smalltalkRequest (a : Assistant) (question : String) (history : List Remark) : ChatRequest :=
  { ChatRequest.forTask .chitchat (
      [{ role := .system, content := Smalltalk.instructions }] ++
      (recent a.planner.historyTurns history).map Remark.toMessage ++
      [{ role := .user, content := question }]) with maxTokens := smalltalkTokens }

/-- Replies to small talk. -/
def replySmalltalk (a : Assistant) (question : String) (history : List Remark)
    (decision : Smalltalk.Decision) : Step env Unit := do
  advance .chitchatDetected
  enter .chitchat none
  match decision.reply? with
  | some text => tell (.token text)
  | none => stream (a.smalltalkRequest question history)
  advance .replyComplete

/-- A pass through the loop: runs a plan and judges all results so far, those of earlier passes
first. The results, and a corrected plan if another pass follows. -/
def pass (a : Assistant) (limit : Option Nat) (question : String) (plan : Plan)
    (earlier : List ToolResult) : Step env (List ToolResult × Option Plan) := do
  let results := earlier ++ (← round a.workshop limit plan)
  advance .toolsFinished
  if !(← get).machine.canReplan then
    advance .sufficient
    return (results, none)
  enter .evaluation none
  match ← perform limit (a.judge.evaluate question results) with
  | none =>
    advance .sufficient
    return (results, none)
  | some shortfall =>
    advance .insufficient
    enter .replanning (some shortfall.message)
    match ← perform limit (a.corrector.correct question shortfall results) with
    | none =>
      advance .noCorrection
      return (results, none)
    | some replan =>
      advance .replanReady
      return (results, some replan.plan)

/-- Passes through the loop, at most `most` of them: the results of all calls. -/
def passes (a : Assistant) (limit : Option Nat) (question : String) :
    (most : Nat) → Plan → List ToolResult → Step env (List ToolResult)
  | 0, _, results => return results
  | most + 1, plan, earlier => do
    match ← a.pass limit question plan earlier with
    | (results, none) => return results
    | (results, some plan) => a.passes limit question most plan results

/-- Looks into a question: the results of all calls. A pass after which the plan may not be
corrected is the last, so the bound on passes ends no loop. -/
def lookInto (a : Assistant) (limit : Option Nat) (question : String) (history : List Remark)
    (hints : Hints) : Step env (List ToolResult) := do
  enter .planning none
  let plan ← perform limit (a.planner.plan question history hints)
  let plan := plan.finalize hints question
  advance .planReady
  a.passes limit question (TurnMachine.maxReplans + 1) plan []

/-- Answers a question that is no small talk: the results that the answer relies on. -/
def answer (a : Assistant) (r : TurnRequest) (question : String) : Step env (List ToolResult) := do
  advance .retrievalNeeded
  takePermit r.caller
  advance .permitGranted
  let hints := (r.hints.elim {} Hints.ofCaller).orElse (Hints.detect question)
  let limit := (← get).session.world.now + a.allowance
  let results ← a.lookInto (some limit) question r.history hints
  enter .synthesis none
  stream (Synthesis.request a.context a.planner.historyTurns question r.history results)
  advance .replyComplete
  return results

/-- Answers a request: the results that the answer relies on. -/
def drive (a : Assistant) (r : TurnRequest) : Step env (List ToolResult) := do
  let question := Text.trimmed r.question
  advance .begin
  enter .classifying none
  let decision := Smalltalk.classify question
  if decision.isSmalltalk then
    a.replySmalltalk question r.history decision
    return []
  else a.answer r question

/-- Tells that the turn has failed. -/
def fail (d : Desk env) (e : Failure) : Desk env :=
  { d with
    machine := (d.machine.apply .failure).toOption.getD d.machine
    sink := d.sink.fail e }

/-- Tells how a turn has ended that began at `started`. A turn that has broken down tells nothing
more. -/
def conclude (a : Assistant) (started : Nat) (d : Desk env) :
    Except Halt (List ToolResult) → Desk env
  | .ok results => { d with
      sink := d.sink.finish (.done (Synthesis.citations results) (d.session.world.now - started)
        results.length) }
  | .error (.failed e) | .error (.misstep e) => fail d e
  | .error .late => fail d (.turnTimeout a.allowance)
  | .error .crashed => d

/-- Runs a turn: everything it tells is in the events of the desk that it leaves. The clock by which
embeddings expire does not move meanwhile. -/
def turn (a : Assistant) (r : TurnRequest) (s : Session env) : Desk env :=
  let (outcome, d) := (a.drive r).run.run { session := s }
  let d := a.conclude s.world.now d outcome
  { d with sink := d.sink.drop }

end Assistant

end Archivist
