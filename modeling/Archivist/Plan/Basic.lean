import Archivist.Tool.Call

/-!
# Plans

A plan is the list of tool calls that a question is answered with, and why.
-/

namespace Archivist

/-- Tool calls in order. -/
structure Plan where
  reasoning : String
  calls : List ToolCall

namespace Plan

/-- Whether the plan has no call. -/
def isEmpty (p : Plan) : Bool := p.calls.isEmpty

/-- Whether a call of the plan is to one of these tools. -/
def addresses (p : Plan) (tools : List ToolName) : Bool :=
  p.calls.any fun c => c.tool?.any (· ∈ tools)

/-- The names that the calls give. -/
def names (p : Plan) : List String := p.calls.map (·.name)

/-- The tools that take a range of dates. -/
def dateTools : List ToolName := [.searchDocuments, .searchDispatchOrders, .getStatistics]

/-- The tools that look for an entity. -/
def entityTools : List ToolName := [.searchEntities, .getEntityDetail]

/-- The members of a plan. -/
def shape : Shape where
  name := "a plan"
  slots := [
    { key := "reasoning", check := Slot.checking Json.asString },
    { key := "tool_calls", check := Slot.checking (Json.asList ToolCall.ofJson) }]

/-- Reads a plan. -/
def ofJson (v : Json) : Except Mismatch Plan := do
  let ms ← shape.gather v
  let reasoning ← ms.read "reasoning" "" Json.asString
  let calls ← ms.read "tool_calls" [] (Json.asList ToolCall.ofJson)
  .ok { reasoning, calls }

/-- A plan as it travels. -/
def toJson (p : Plan) : Json := .obj [
  ("reasoning", .str p.reasoning), ("tool_calls", .arr (p.calls.map ToolCall.toJson))]

end Plan

end Archivist
