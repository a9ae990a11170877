import Archivist.Concurrency.Lane
import Archivist.Tool.Toolbox

/-!
# Rounds of Tool Calls

The calls of a plan run side by side, each in a lane. A call that is no request fails at once and
takes no permit; any other waits for a permit and then has a fixed time. Whatever becomes of a
call, it ends in a result of its own, and the results stand in the order of the calls.
-/

namespace Archivist

/-- How rounds are run. -/
structure Workshop where
  toolbox : Toolbox
  /-- Milliseconds that a call may take. -/
  allowance : Nat
  /-- The most calls that run at a time; at least one is possible. -/
  maxParallel : Nat

namespace Workshop

/-- The number of calls that can run at a time. -/
def parallel (s : Workshop) : Nat := max s.maxParallel 1

/-- The number of calls that can run at a time by default. -/
def defaultParallel : Nat := 4

/-- The lane of a call. -/
def lane (s : Workshop) (call : ToolCall) : Lane ToolOutput :=
  match ToolRequest.ofCall call with
  | .error e => .ended (.value (.error e))
  | .ok request => .ready true (some s.allowance) (s.toolbox.run request).run

/-- The result of a call whose lane has ended. -/
def result (s : Workshop) (call : ToolCall) : Ending ToolOutput → ToolResult
  | .value (.ok output) => .succeeded call output
  | .value (.error e) => .failed call e.message
  | .crashed => .failed call (Failure.other s!"tool {call.name} panicked").message
  | .late => .failed call (Failure.toolTimeout call.name s.allowance).message

/-- Runs calls side by side. There are no results if they would run past `limit`. -/
def round {env : Environment} (s : Workshop) (limit : Option Nat) (calls : List ToolCall)
    (w : World env) : Option (List ToolResult) × World env :=
  let (endings, w) := w.join limit (calls.map s.lane)
  (endings.map fun endings => List.zipWith s.result calls endings, w)

end Workshop

end Archivist
