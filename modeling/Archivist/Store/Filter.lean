import Archivist.Store.Record
import Archivist.Text.Case

/-!
# Filters and Aggregates

What can be asked of the store: documents that pass a filter, dispatch orders that pass another,
and counts, all of them over a range of dates that may be open at either end. A record without a
date is in no range except the one that is open at both ends.
-/

namespace Archivist

/-- A range of dates; a missing end leaves it open. -/
structure DateRange where
  first : Option Date := none
  last : Option Date := none
  deriving DecidableEq

namespace DateRange

/-- Whether the range has an end at all. -/
def isBounded (r : DateRange) : Bool := r.first.isSome || r.last.isSome

/-- Whether the range contains a date. -/
def contains (r : DateRange) (d : Date) : Bool :=
  r.first.all (decide <| · ≤ d) && r.last.all (decide <| d ≤ ·)

/-- Whether the range admits a record. -/
def admits (r : DateRange) (record : Record) : Bool :=
  !r.isBounded || record.date?.any r.contains

/-- Whether the range leaves a record out: the record has no date, or its date lies before the first
day of the range or after the last. -/
def excludes (r : DateRange) (record : Record) : Bool :=
  r.isBounded && match record.date? with
    | none => true
    | some d => r.first.any (decide <| d < ·) || r.last.any (decide <| · < d)

/-- A range leaves out what it does not admit. -/
theorem excludes_eq (r : DateRange) (record : Record) : r.excludes record = !r.admits record := by
  rw [excludes, admits]
  cases record.date? with
  | none => cases r.isBounded <;> rfl
  | some d =>
    have hfirst : r.first.any (decide <| d < ·) = !r.first.all (decide <| · ≤ d) := by
      cases r.first with
      | none => rfl
      | some first => exact (decide_eq_decide.2 Int.not_le.symm).trans (decide_not ..)
    have hlast : r.last.any (decide <| · < d) = !r.last.all (decide <| d ≤ ·) := by
      cases r.last with
      | none => rfl
      | some last => exact (decide_eq_decide.2 Int.not_le.symm).trans (decide_not ..)
    simp only [hfirst, hlast, Option.any_some, contains, Bool.not_or, Bool.not_and, Bool.not_not]

end DateRange

/-- Which documents are wanted. -/
structure DocumentFilter where
  keywords : List String := []
  dates : DateRange := {}
  sender : Option String := none
  docType : Option String := none
  deriving DecidableEq

/-- Whether a record passes every part of the filter but the keywords. -/
def DocumentFilter.admits (f : DocumentFilter) (r : Record) : Bool :=
  !f.dates.excludes r &&
  f.sender.all (fun s => (r.field? "sender").any (Text.contains · s)) &&
  f.docType.all (fun t => r.field? "doc_type" = some t)

/-- A filter admits a record by its dates, its sender and its kind. -/
theorem DocumentFilter.admits_eq (f : DocumentFilter) (r : Record) : f.admits r =
    (f.dates.admits r && f.sender.all (fun s => (r.field? "sender").any (Text.contains · s)) &&
      f.docType.all fun t => r.field? "doc_type" = some t) := by
  rw [admits, DateRange.excludes_eq, Bool.not_not]

/-- Which dispatch orders are wanted. -/
structure DispatchFilter where
  keywords : List String := []
  status : Option String := none
  assignee : Option String := none
  dates : DateRange := {}
  deriving DecidableEq

/-- Whether a dispatch order passes every part of the filter but the keywords. -/
def DispatchFilter.admits (f : DispatchFilter) (r : Record) : Bool :=
  f.status.all (fun s => r.field? "status" = some s) &&
  f.assignee.all (fun a => (r.field? "assignee").any fun v =>
    Text.occurs (Text.lower a.toList) (Text.lower v.toList)) &&
  f.dates.admits r

/-- The kinds of records. -/
inductive RecordKind where
  | documents
  | dispatchOrders
  deriving DecidableEq

/-- What is to be counted. -/
structure StatisticsQuery where
  kind : RecordKind := .documents
  /-- The field whose values are counted apart. -/
  groupBy : Option String := none
  dates : DateRange := {}
  deriving DecidableEq

/-- A count, in all and by the values of a field, sorted by value. -/
structure Statistics where
  total : Nat
  groups : List (String × Nat)
  deriving DecidableEq

/-- The words for the kinds of records. -/
def RecordKind.words : List String := ["documents", "dispatch_orders"]

/-- The word for a kind of records. -/
def RecordKind.word : RecordKind → String
  | documents => "documents"
  | dispatchOrders => "dispatch_orders"

/-- Reads the word for a kind of records. -/
def RecordKind.ofJson (v : Json) : Except Mismatch RecordKind :=
  (v.asWord words).map fun w => if w = "documents" then documents else dispatchOrders

/-- Reads a date of a data file. -/
def Date.ofJson (v : Json) : Except Mismatch Date := do
  let s ← v.asString
  match Date.readSpaced? s with
  | some d => .ok d
  | none => .error (.wrongType v "a formatted date string")

/-- The slot of an optional date. -/
def Slot.date (key : String) : Slot :=
  { key, check := Slot.checking (Json.asOption Date.ofJson) }

/-- The slot of an optional string. -/
def Slot.string (key : String) : Slot :=
  { key, check := Slot.checking (Json.asOption Json.asString) }

/-- The slot of a list of strings. -/
def Slot.strings (key : String) : Slot :=
  { key, check := Slot.checking (Json.asList Json.asString) }

/-- Reads the two ends of a range. -/
def DateRange.ofMembers (ms : Members) : Except Mismatch DateRange := do
  let first ← ms.read "date_from" none (Json.asOption Date.ofJson)
  let last ← ms.read "date_to" none (Json.asOption Date.ofJson)
  .ok { first, last }

/-- Reads a filter for documents. -/
def DocumentFilter.ofJson (v : Json) : Except Mismatch DocumentFilter := do
  let ms ← Shape.gather ⟨"a document filter", [.strings "keywords", .date "date_from",
    .date "date_to", .string "sender", .string "doc_type"]⟩ v
  let keywords ← ms.read "keywords" [] (Json.asList Json.asString)
  let dates ← DateRange.ofMembers ms
  let sender ← ms.read "sender" none (Json.asOption Json.asString)
  let docType ← ms.read "doc_type" none (Json.asOption Json.asString)
  .ok { keywords, dates, sender, docType }

/-- Reads a filter for dispatch orders. -/
def DispatchFilter.ofJson (v : Json) : Except Mismatch DispatchFilter := do
  let ms ← Shape.gather ⟨"a dispatch order filter", [.strings "keywords", .string "status",
    .string "assignee", .date "date_from", .date "date_to"]⟩ v
  let keywords ← ms.read "keywords" [] (Json.asList Json.asString)
  let status ← ms.read "status" none (Json.asOption Json.asString)
  let assignee ← ms.read "assignee" none (Json.asOption Json.asString)
  let dates ← DateRange.ofMembers ms
  .ok { keywords, status, assignee, dates }

/-- Reads what is to be counted. -/
def StatisticsQuery.ofJson (v : Json) : Except Mismatch StatisticsQuery := do
  let ms ← Shape.gather ⟨"a statistics query", [
    { key := "record_kind", check := Slot.checking RecordKind.ofJson }, .string "group_by",
    .date "date_from", .date "date_to"]⟩ v
  let kind ← ms.read "record_kind" .documents RecordKind.ofJson
  let groupBy ← ms.read "group_by" none (Json.asOption Json.asString)
  let dates ← DateRange.ofMembers ms
  .ok { kind, groupBy, dates }

/-- A date as it travels. -/
def Date.toJson (d : Date) : Json := .str d.written

/-- What is to be counted as it travels. -/
def StatisticsQuery.toJson (q : StatisticsQuery) : Json := .obj [
  ("record_kind", .str q.kind.word), ("group_by", .ofOption .str q.groupBy),
  ("date_from", .ofOption Date.toJson q.dates.first),
  ("date_to", .ofOption Date.toJson q.dates.last)]

/-- Counts as they travel. -/
def Statistics.toJson (s : Statistics) : Json := .obj [
  ("total", .nat s.total), ("groups", .obj (s.groups.map fun (k, n) => (k, .nat n)))]

end Archivist
