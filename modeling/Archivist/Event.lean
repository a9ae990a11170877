import Archivist.Json.Shape

/-!
# Events of a Turn

A turn answers with a stream of events: which stage it has reached, pieces of the answer, and at
the end either the citations or an error. `Event.ofJson` and `Event.toJson` are the form in which
events travel.
-/

namespace Archivist

/-- A document that an answer relies on. -/
structure Citation where
  documentId : String
  label : String
  deriving DecidableEq

/-- A stage of a turn. -/
inductive Stage where
  | classifying
  | chitchat
  | planning
  | toolExecution
  | evaluation
  | replanning
  | synthesis
  deriving DecidableEq

/-- What a turn tells its listener. -/
inductive Event where
  | status (stage : Stage) (detail : Option String)
  | token (text : String)
  | done (citations : List Citation) (latencyMs toolCalls : Nat)
  | error (message code : String)
  deriving DecidableEq

namespace Stage

/-- Every stage. -/
def all : List Stage :=
  [classifying, chitchat, planning, toolExecution, evaluation, replanning, synthesis]

/-- The word for a stage. -/
def word : Stage → String
  | classifying => "classifying"
  | chitchat => "chitchat"
  | planning => "planning"
  | toolExecution => "tool_execution"
  | evaluation => "evaluation"
  | replanning => "replanning"
  | synthesis => "synthesis"

/-- The name of a stage on the screen. -/
def displayName : Stage → String
  | classifying => "Classifying"
  | chitchat => "Replying"
  | planning => "Planning"
  | toolExecution => "Searching"
  | evaluation => "Evaluating results"
  | replanning => "Refining search"
  | synthesis => "Writing answer"

/-- Reads the word for a stage. As the key of an object it may have `null` or an empty object as
its value. -/
def ofJson (v : Json) : Except Mismatch Stage := do
  let v : Json := match v with
    | .obj [(w, .obj [])] => .obj [(w, .null)]
    | v => v
  let w ← v.asWord (all.map word)
  match all.find? (·.word = w) with
  | some stage => .ok stage
  | none => .error (.unknownWord w (all.map word))

end Stage

namespace Citation

/-- The members of a citation. -/
def shape : Shape where
  name := "a citation"
  slots := [
    { key := "document_id", optional := false, check := Slot.checking Json.asString },
    { key := "label", optional := false, check := Slot.checking Json.asString }]

/-- Reads a citation. -/
def ofJson (v : Json) : Except Mismatch Citation := do
  let ms ← shape.gather v
  let documentId ← ms.read "document_id" "" Json.asString
  let label ← ms.read "label" "" Json.asString
  .ok { documentId, label }

/-- A citation as it travels. -/
def toJson (c : Citation) : Json :=
  .obj [("document_id", .str c.documentId), ("label", .str c.label)]

end Citation

namespace Event

/-- Whether the event ends a turn. -/
def isTerminal : Event → Bool
  | done .. | error .. => true
  | status .. | token .. => false

/-- Whether the event tells an error. -/
def isError : Event → Bool
  | error .. => true
  | _ => false

/-- The words for the kinds of events. -/
def kinds : List String := ["status", "token", "done", "error"]

/-- The members of each kind of event. -/
def slotsOf : String → List Slot
  | "status" => [
      { key := "stage", optional := false, check := Slot.checking Stage.ofJson },
      { key := "detail", check := Slot.checking (Json.asOption Json.asString) }]
  | "token" => [{ key := "text", optional := false, check := Slot.checking Json.asString }]
  | "done" => [
      { key := "citations", optional := false,
        check := Slot.checking (Json.asList Citation.ofJson) },
      { key := "latency_ms", optional := false,
        check := Slot.checking (Json.asWhole 0 (Count.size 64 - 1) "u64") },
      { key := "tool_calls", optional := false, check := Slot.checking Json.asCount }]
  | "error" => [
      { key := "message", optional := false, check := Slot.checking Json.asString },
      { key := "code", optional := false, check := Slot.checking Json.asString }]
  | _ => []

/-- An event of this kind with these members. -/
def ofMembers (kind : String) (ms : Members) : Except Mismatch Event := do
  match kind with
  | "status" =>
    let stage ← ms.read "stage" .classifying Stage.ofJson
    let detail ← ms.read "detail" none (Json.asOption Json.asString)
    .ok (status stage detail)
  | "token" => (ms.read "text" "" Json.asString).map token
  | "done" =>
    let citations ← ms.read "citations" [] (Json.asList Citation.ofJson)
    let latency ← ms.read "latency_ms" 0 Json.asCount
    let calls ← ms.read "tool_calls" 0 Json.asCount
    .ok (done citations latency calls)
  | _ =>
    let message ← ms.read "message" "" Json.asString
    let code ← ms.read "code" "" Json.asString
    .ok (error message code)

/-- Reads an event: an object with its kind under `type`, or an array of the kind and all of its
members. -/
def ofJson : Json → Except Mismatch Event
  | .obj members => do
    let (tags, others) := members.partition (·.1 = "type")
    match tags with
    | [] => throw (.missing "type")
    | [(_, tag)] =>
      let kind ← tag.asString
      if kind ∉ kinds then throw (.unknownWord kind kinds)
      let ms ← Shape.gather ⟨s!"a {kind} event", slotsOf kind⟩ (.obj others)
      ofMembers kind ms
    | _ => throw (.repeated "type")
  | .arr (tag :: items) => do
    let kind ← tag.asString
    if kind ∉ kinds then throw (.unknownWord kind kinds)
    let slots := (slotsOf kind).map fun slot => { slot with optional := false }
    let ms ← Shape.gather ⟨s!"a {kind} event", slots⟩ (.arr items)
    ofMembers kind ms
  | .arr [] => .error (.missing "type")
  | v => .error (.wrongType v "an event")

/-- An event as it travels; a status without detail has no such member. -/
def toJson : Event → Json
  | status stage detail => .obj ((detail.map fun d => ("detail", Json.str d)).toList ++
      [("stage", .str stage.word), ("type", .str "status")])
  | token text => .obj [("text", .str text), ("type", .str "token")]
  | done citations latency calls => .obj [
      ("citations", .arr (citations.map Citation.toJson)), ("latency_ms", .nat latency),
      ("tool_calls", .nat calls), ("type", .str "done")]
  | error message code =>
    .obj [("code", .str code), ("message", .str message), ("type", .str "error")]

end Event

end Archivist
