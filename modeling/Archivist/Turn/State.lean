import Archivist.Failure

/-!
# The States of a Turn

A turn goes through states, and each step is caused by an event. The two last states take every
event and do not change. `TurnMachine` keeps count of corrections: once one has been made, results
are sufficient by definition.
-/

namespace Archivist

/-- A state of a turn. -/
inductive TurnState where
  | start
  | chitchatCheck
  | chitchatReply
  | rateLimitCheck
  | planning
  | toolExecution
  | evaluation
  | replan
  | synthesis
  | done
  | error
  deriving DecidableEq

/-- What causes a step. -/
inductive TurnEvent where
  | begin
  | chitchatDetected
  | retrievalNeeded
  | permitGranted
  | planReady
  | toolsFinished
  | sufficient
  | insufficient
  | replanReady
  | noCorrection
  | replyComplete
  | failure
  deriving DecidableEq

namespace TurnState

/-- Every state. -/
def all : List TurnState :=
  [start, chitchatCheck, chitchatReply, rateLimitCheck, planning, toolExecution, evaluation,
    replan, synthesis, done, error]

/-- The name of a state in a failure. -/
def word : TurnState → String
  | start => "Start"
  | chitchatCheck => "ChitchatCheck"
  | chitchatReply => "ChitchatReply"
  | rateLimitCheck => "RateLimitCheck"
  | planning => "Planning"
  | toolExecution => "ToolExecution"
  | evaluation => "Evaluation"
  | replan => "Replan"
  | synthesis => "Synthesis"
  | done => "Done"
  | error => "Error"

/-- The name of a state for people. -/
def displayName : TurnState → String
  | start => "Starting"
  | chitchatCheck => "Classifying"
  | chitchatReply => "Replying"
  | rateLimitCheck => "Checking rate limit"
  | planning => "Planning"
  | toolExecution => "Executing tools"
  | evaluation => "Evaluating results"
  | replan => "Re-planning"
  | synthesis => "Synthesizing"
  | done => "Completed"
  | error => "Error"

/-- Whether a state is one of the two last. -/
def isTerminal (s : TurnState) : Bool := s = done || s = error

end TurnState

namespace TurnEvent

/-- Every event. -/
def all : List TurnEvent :=
  [begin, chitchatDetected, retrievalNeeded, permitGranted, planReady, toolsFinished, sufficient,
    insufficient, replanReady, noCorrection, replyComplete, failure]

/-- The name of an event in a failure. -/
def word : TurnEvent → String
  | begin => "Begin"
  | chitchatDetected => "ChitchatDetected"
  | retrievalNeeded => "RetrievalNeeded"
  | permitGranted => "PermitGranted"
  | planReady => "PlanReady"
  | toolsFinished => "ToolsFinished"
  | sufficient => "Sufficient"
  | insufficient => "Insufficient"
  | replanReady => "ReplanReady"
  | noCorrection => "NoCorrection"
  | replyComplete => "ReplyComplete"
  | failure => "Failure"

end TurnEvent

/-- The failure of a step that does not exist. -/
def badStep (s : TurnState) (e : TurnEvent) : Failure :=
  .badTransition s.word s!"(via {e.word})" s!"No valid transition from {s.word} on {e.word}"

/-- The next state. -/
def TurnState.next : TurnState → TurnEvent → Except Failure TurnState
  | .done, _ => .ok .done
  | .error, _ => .ok .error
  | _, .failure => .ok .error
  | .start, .begin => .ok .chitchatCheck
  | .chitchatCheck, .chitchatDetected => .ok .chitchatReply
  | .chitchatCheck, .retrievalNeeded => .ok .rateLimitCheck
  | .rateLimitCheck, .permitGranted => .ok .planning
  | .planning, .planReady => .ok .toolExecution
  | .toolExecution, .toolsFinished => .ok .evaluation
  | .evaluation, .sufficient => .ok .synthesis
  | .evaluation, .insufficient => .ok .replan
  | .replan, .replanReady => .ok .toolExecution
  | .replan, .noCorrection => .ok .synthesis
  | .chitchatReply, .replyComplete => .ok .done
  | .synthesis, .replyComplete => .ok .done
  | s, e => .error (badStep s e)

/-- The states that a turn has been in. -/
structure TurnMachine where
  state : TurnState := .start
  /-- The number of corrections. -/
  replans : Nat := 0
  /-- The states in order, each change once. -/
  trace : List TurnState := [.start]
  deriving DecidableEq

namespace TurnMachine

/-- The most corrections of a turn. -/
def maxReplans : Nat := 1

/-- Whether there may be another correction. -/
def canReplan (m : TurnMachine) : Bool := m.replans < maxReplans

/-- The event as it counts: without another correction results are sufficient. -/
def effective (m : TurnMachine) (e : TurnEvent) : TurnEvent :=
  if e = .insufficient ∧ !m.canReplan then .sufficient else e

/-- Takes a step; nothing changes if there is no such step. -/
def apply (m : TurnMachine) (e : TurnEvent) : Except Failure TurnMachine :=
  (m.state.next (m.effective e)).map fun next => {
    state := next
    replans := if next = .replan then m.replans + 1 else m.replans
    trace := if next = m.state then m.trace else m.trace ++ [next] }

end TurnMachine

end Archivist
