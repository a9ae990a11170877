import Archivist.Expansion
import Archivist.Plan.Basic
import Archivist.Plan.Judgment
import Archivist.Plan.Merge
import Archivist.Tool.Terms

/-!
# Corrections

What is tried when results are not sufficient. The corrections are tried in a fixed order, and
the first that gives a call is the only one that is applied: broaden the dates, drop the filter by
sender or assignee, search with both kinds of candidates, search documents instead of entities,
widen the search terms.
-/

namespace Archivist

/-- A correction. -/
inductive Correction where
  | broadenDates
  | dropEntityFilter
  | switchToHybrid
  | fallbackTool
  | expandTerms
  deriving DecidableEq

/-- The word for a correction. -/
def Correction.word : Correction → String
  | broadenDates => "broaden_dates"
  | dropEntityFilter => "drop_entity_filter"
  | switchToHybrid => "switch_to_hybrid"
  | fallbackTool => "fallback_tool"
  | expandTerms => "expand_terms"

/-- A corrected plan. -/
structure Replan where
  correction : Correction
  shortfall : Shortfall
  plan : Plan

/-- The most days by which dates can be moved at once. -/
def maxShift : Int := 106751991167

/-- The range with both ends moved outward; an end that leaves the calendar is dropped. There is
no answer if the number of days is too large. -/
def DateRange.broaden (r : DateRange) (days : Int) : Option DateRange :=
  let days := max days 0
  if maxShift < days then none
  else some { first := r.first.bind (·.shift (-days)), last := r.last.bind (·.shift days) }

namespace ToolCall

/-- The date that an argument gives. -/
def date? (c : ToolCall) (key : String) : Option Date := (c.text? key).bind Date.read?

/-- Sets a date, or removes it. -/
def setDate (c : ToolCall) (key : String) : Option Date → ToolCall
  | some d => c.set key (.str d.written)
  | none => c.without key

/-- The range of dates of a call. -/
def dates (c : ToolCall) : DateRange where
  first := c.date? "date_from"
  last := c.date? "date_to"

/-- The call with another range of dates. -/
def withDates (c : ToolCall) (r : DateRange) : ToolCall :=
  (c.setDate "date_from" r.first).setDate "date_to" r.last

end ToolCall

namespace Correction

/-- A call that found nothing, with its dates moved outward; none if it has no dates. -/
def broadened (days : Int) (c : ToolCall) : Option (Option ToolCall) :=
  if c.tool?.any (· ∈ Plan.dateTools) && c.dates.isBounded then
    (c.dates.broaden days).map fun r => some (c.withDates r)
  else some none

/-- The calls that found nothing with their dates moved outward. There is no answer if the number
of days is too large. -/
def broaden (days : Int) (results : List ToolResult) : Option (List ToolCall) :=
  (((results.filter (!·.hasData)).map (·.call)).mapM (broadened days)).map (·.filterMap id)

/-- The argument that filters a tool's results by a person or an agency. -/
def entityFilter? : ToolName → Option String
  | .searchDocuments => some "sender"
  | .searchDispatchOrders => some "assignee"
  | _ => none

/-- The call without its filter by a person or an agency; none if it has no such filter. -/
def unfiltered (c : ToolCall) : Option ToolCall := do
  let tool ← c.tool?
  let key ← entityFilter? tool
  let _ ← c.text? key
  some (c.without key)

/-- The calls that found nothing without their filters by a person or an agency. -/
def dropFilters (results : List ToolResult) : List ToolCall :=
  (results.filter (!·.hasData)).filterMap (unfiltered ·.call)

/-- Whether two texts are the same when case does not count, in ASCII. -/
def sameWord (a b : String) : Bool := a.toList.map Char.toLower = b.toList.map Char.toLower

/-- The call with both kinds of candidates; none if it has them already. -/
def hybridized (c : ToolCall) : Option ToolCall :=
  if c.isTo .searchDocuments && (c.text? "strategy").any (!sameWord · "hybrid") then
    some (c.set "strategy" (.str "hybrid"))
  else none

/-- The searches for one kind of candidates, with both kinds. -/
def switch (results : List ToolResult) : List ToolCall := results.filterMap (hybridized ·.call)

/-- What a look for an entity is about. -/
def entityQuery (question : String) (c : ToolCall) : String :=
  ((c.text? "name").or (c.text? "query")).getD question

/-- A search for documents about an entity, with widened terms. -/
def entitySearch (query : String) : ToolCall :=
  .ofTool .searchDocuments [("query", .str query), ("expand", .bool true)]

/-- Adds a search for documents unless the query is searched for already. -/
def addSearch (calls : List ToolCall) (query : String) : List ToolCall :=
  if calls.any (·.text? "query" = some query) then calls else calls ++ [entitySearch query]

/-- Searches for documents in place of looks for entities that found nothing. -/
def fallBack (question : String) (results : List ToolResult) : List ToolCall :=
  let looks := results.filter fun r => r.call.tool?.any (·.isEntityTool)
  if looks.any (·.hasData) then []
  else (looks.map fun r => entityQuery question r.call).foldl addSearch []

/-- The corrections that need nobody else, in order. There is no answer if the number of days is
too large. -/
def byRule (days : Int) (question : String) (results : List ToolResult) :
    Option (List (Correction × List ToolCall)) :=
  (broaden days results).map fun calls => [
    (.broadenDates, calls), (.dropEntityFilter, dropFilters results),
    (.switchToHybrid, switch results), (.fallbackTool, fallBack question results)]

/-- The first search for documents. -/
def firstSearch? (results : List ToolResult) : Option ToolCall :=
  (results.map (·.call)).find? (·.isTo .searchDocuments)

/-- A search with these keywords in place of its own terms. -/
def withKeywords (c : ToolCall) (keywords : List String) : ToolCall :=
  ((c.set "keywords" (.arr (keywords.map .str))).set "expand" (.bool false)).set "strategy"
    (.str "hybrid")

/-- Whether a call already asks for widened terms. -/
def isExpanded (c : ToolCall) : Bool :=
  match c.arguments.get? "expand" with
  | some (.bool b) => b
  | _ => false

/-- The first search for documents with widened terms, or a search for the question. -/
def expand (x : Expander) (question : String) (results : List ToolResult) :
    Action (List ToolCall) := do
  let previous := firstSearch? results
  let query := (previous.bind (·.text? "query")).getD question
  let terms := termsOf query
  let expanded ← x.expand terms
  match previous with
  | some c =>
    return if isExpanded c || expanded.length ≤ terms.length then []
      else [withKeywords c expanded]
  | none => return [withKeywords (.searchFor query) expanded]

end Correction

/-- The plan that corrects a shortfall with these calls, unless there are none. -/
def Correction.replan (c : Correction) (shortfall : Shortfall) (calls : List ToolCall) :
    Option Replan :=
  if calls.isEmpty then none else some {
    correction := c, shortfall
    plan := { reasoning := s!"{c.word}: {shortfall.message}", calls } }

/-- What corrections work with. -/
structure Corrector where
  expander : Expander
  /-- The days by which dates are moved outward. -/
  broadenDays : Int

namespace Corrector

/-- The first correction by rule that gives a call, or else the terms are widened. -/
def choose (c : Corrector) (question : String) (results : List ToolResult)
    (byRule : List (Correction × List ToolCall)) : Action (Correction × List ToolCall) :=
  match byRule.find? (!·.2.isEmpty) with
  | some found => return found
  | none => return (.expandTerms, ← Correction.expand c.expander question results)

/-- The corrected plan for insufficient results, if a correction applies. -/
def correct (c : Corrector) (question : String) (shortfall : Shortfall)
    (results : List ToolResult) : Action (Option Replan) := do
  match Correction.byRule c.broadenDays question results with
  | none => ExceptT.mk .crash
  | some byRule =>
    let (correction, calls) ← c.choose question results byRule
    return correction.replan shortfall calls

end Corrector

end Archivist
