import Archivist.Plan.Basic
import Archivist.Plan.Hints

/-!
# Merging Hints into a Plan

Hints are added to the calls of a plan and never replace what a call says: a date or a name is
filled in where a call has none, and a call is added for a hint that no call of the plan takes up.
A plan that is still empty gets a search for the question.
-/

namespace Archivist

namespace ToolCall

/-- Gives an argument a value unless it has one. -/
def fill (c : ToolCall) (key : String) (value : Option String) : ToolCall :=
  match value with
  | some v => if c.has key then c else c.set key (.str v)
  | none => c

/-- Fills in a range of dates. -/
def fillDates (c : ToolCall) (dates : DateRange) : ToolCall :=
  (c.fill "date_from" (dates.first.map Date.written)).fill "date_to"
    (dates.last.map Date.written)

/-- Fills in the hints that the called tool takes. -/
def fillHints (c : ToolCall) (h : Hints) : ToolCall :=
  match c.tool? with
  | none => c
  | some tool =>
    let c := if tool ∈ Plan.dateTools then c.fillDates h.dates else c
    if tool ∈ Plan.entityTools then c.fill "name" h.entity else c

/-- A search for the wording of a question. -/
def searchFor (question : String) : ToolCall := .ofTool .searchDocuments [("query", .str question)]

end ToolCall

namespace Plan

/-- A search for the question in the hinted range of dates. -/
def forced (question : String) (h : Hints) : List ToolCall :=
  [(ToolCall.searchFor question).fillDates h.dates]

/-- The plan that replaces an unreadable one. -/
def fallback (question : String) : Plan where
  reasoning := "fallback: planner output unreadable"
  calls := [.searchFor question]

/-- The plan with the hints merged in. -/
def merge (p : Plan) (h : Hints) (question : String) : Plan :=
  let calls := p.calls.map (·.fillHints h)
  let dated := { p with calls }
  let dated := if h.dates.isBounded && !dated.addresses dateTools then
      { dated with calls := dated.calls ++ forced question h }
    else dated
  match h.entity with
  | some entity =>
    if dated.addresses entityTools then dated
    else { dated with
      calls := dated.calls ++ [.ofTool .searchEntities [("name", .str entity)]] }
  | none => dated

/-- The merged plan, or a search for the question if that is empty. -/
def finalize (p : Plan) (h : Hints) (question : String) : Plan :=
  let merged := p.merge h question
  if merged.isEmpty then {
    reasoning := if merged.reasoning = "" then "forced search" else merged.reasoning
    calls := forced question h }
  else merged

end Plan

end Archivist
