import Archivist.Collaborator
import Archivist.Plan.Merge
import Archivist.Plan.Prompt
import Archivist.Plan.Reader

/-!
# Planning

A language model is asked for a plan. If what it answers cannot be read, the plan is a search for
the question; if it fails, so does planning.
-/

namespace Archivist

/-- How plans are made. -/
structure Planner where
  today : Date
  /-- The number of remarks of the conversation that the language model is shown. -/
  historyTurns : Nat

namespace Planner

/-- The request for a plan. -/
def request (p : Planner) (question : String) (history : List Remark) (h : Hints) :
    ChatRequest :=
  .forTask .planning (
    [{ role := .system, content := Prompt.planning p.today }] ++
    (recent p.historyTurns history).map Remark.toMessage ++
    [{ role := .user, content := Prompt.question question h }])

/-- Asks for a plan. -/
def plan (p : Planner) (question : String) (history : List Remark) (h : Hints) :
    Action Plan := do
  let output ← Action.ask (.complete (p.request question history h))
  return match Plan.read output with
    | .ok plan => plan
    | .error _ => Plan.fallback question

end Planner

end Archivist
