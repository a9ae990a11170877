import Archivist.Json.Basic
import Archivist.Store.Filter
import Archivist.Text.Search

/-!
# Hints

What is known about a question beside its wording: a range of dates and the name of an entity.
Hints come from the caller or from the question itself. A range of the caller is kept whole and
never mixed with one of the question.
-/

namespace Archivist

/-- What is known about a question. -/
structure Hints where
  dates : DateRange := {}
  entity : Option String := none
  deriving DecidableEq

namespace Hints

/-- Whether nothing is known. -/
def isEmpty (h : Hints) : Bool := !h.dates.isBounded && h.entity.isNone

/-- The hints of a caller; keys and values that do not fit are passed over. -/
def ofCaller (v : Json) : Hints where
  dates := {
    first := ((v.get? "date_from").bind (·.str?)).bind Date.read?
    last := ((v.get? "date_to").bind (·.str?)).bind Date.read? }
  entity := (((v.get? "entity").bind (·.str?)).map Text.trimmed).filter (· ≠ "")

/-- Fills the gaps in `h` from `others`. -/
def orElse (h others : Hints) : Hints where
  dates := if h.dates.isBounded then h.dates else others.dates
  entity := h.entity.or others.entity

/-- The members that hints add to an answer. -/
def toMembers (h : Hints) : Members :=
  (h.dates.first.map fun d => ("date_from", Json.str d.written)).toList ++
    (h.dates.last.map fun d => ("date_to", Json.str d.written)).toList ++
    (h.entity.map fun e => ("entity", Json.str e)).toList

end Hints

end Archivist
