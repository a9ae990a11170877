import Archivist.Event

/-!
# The Tally of a Turn

What a turn amounted to, counted from its events, and the lines that tell it.
-/

namespace Archivist

/-- The counts of a turn. -/
structure Tally where
  /-- The pieces of the answer. -/
  tokens : Nat := 0
  /-- The characters of the answer. -/
  characters : Nat := 0
  /-- The stages in order, each with the number of times that it was reached. -/
  stages : List (Stage × Nat) := []
  toolCalls : Nat := 0
  citations : Nat := 0
  /-- Milliseconds from the beginning to the end, once the turn has ended well. -/
  latency : Option Nat := none
  /-- The code of the last error. -/
  errorCode : Option String := none

namespace Tally

/-- Counts one more of a stage. -/
def countStage (stage : Stage) : List (Stage × Nat) → List (Stage × Nat)
  | [] => [(stage, 1)]
  | (s, n) :: rest => if s = stage then (s, n + 1) :: rest else (s, n) :: countStage stage rest

/-- Counts an event. -/
def record (t : Tally) : Event → Tally
  | .status stage _ => { t with stages := countStage stage t.stages }
  | .token text =>
    { t with tokens := t.tokens + 1, characters := t.characters + text.toList.length }
  | .done citations latency calls =>
    { t with citations := citations.length, latency := some latency, toolCalls := calls }
  | .error _ code => { t with errorCode := some code }

/-- The tally of some events. -/
def ofEvents (events : List Event) : Tally := events.foldl record {}

/-- Whether the turn has ended without an error. -/
def succeeded (t : Tally) : Bool := t.latency.isSome && t.errorCode.isNone

/-- Whether the plan was corrected. -/
def replanned (t : Tally) : Bool := t.stages.any (·.1 = .replanning)

/-- The lines that tell the tally; `elapsed` stands in for the latency of a turn that has not
ended. -/
def lines (t : Tally) (elapsed : Nat) : List String := [
  s!"Latency:     {t.latency.getD elapsed} ms",
  s!"Tool calls:  {t.toolCalls}",
  s!"Citations:   {t.citations}",
  s!"Tokens:      {t.tokens}"] ++
  (if t.replanned then ["Replanned:   yes"] else []) ++
  (t.errorCode.map fun code => "Error code:  " ++ code).toList

/-- The counts as they travel; stages go by their names. -/
def toJson (t : Tally) : Json := .obj [
  ("tokens", .nat t.tokens), ("answer_chars", .nat t.characters),
  ("stages", .obj (t.stages.map fun (stage, n) => (stage.displayName, .nat n))),
  ("tool_calls", .nat t.toolCalls), ("citations", .nat t.citations),
  ("latency_ms", .ofOption .nat t.latency), ("error_code", .ofOption .str t.errorCode)]

end Tally

end Archivist
