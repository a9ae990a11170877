import Archivist.Failure
import Archivist.Retrieval.Search
import Archivist.Tool.Call

/-!
# Tool Requests

A tool request is a call whose name is that of a tool and whose arguments are what the tool takes.
`ToolRequest.ofCall` checks both before anything is asked of a collaborator. Dates are still text
in a request; `readDate` reads them when the tool runs.
-/

namespace Archivist

/-- The arguments of a search for documents. -/
structure DocumentsArgs where
  query : String
  keywords : List String
  dateFrom : Option String
  dateTo : Option String
  sender : Option String
  docType : Option String
  limit : Option Nat
  strategy : Option SearchStrategy
  expand : Option Bool
  judged : Option Bool

/-- The arguments of a search for dispatch orders. -/
structure DispatchArgs where
  query : Option String
  keywords : List String
  status : Option String
  assignee : Option String
  dateFrom : Option String
  dateTo : Option String
  limit : Option Nat

/-- The arguments of a search for entities. -/
structure EntitiesArgs where
  name : String
  entityType : Option String
  expand : Option Bool
  limit : Option Nat

/-- The arguments of a look at one entity. -/
structure DetailArgs where
  entityId : Option String
  name : Option String

/-- The arguments of a search for similar documents. -/
structure SimilarArgs where
  documentId : Option String
  text : Option String
  limit : Option Nat

/-- The arguments of a count. -/
structure StatisticsArgs where
  kind : Option RecordKind
  groupBy : Option String
  dateFrom : Option String
  dateTo : Option String

/-- A checked call of a tool. -/
inductive ToolRequest where
  | searchDocuments (args : DocumentsArgs)
  | searchDispatchOrders (args : DispatchArgs)
  | searchEntities (args : EntitiesArgs)
  | getEntityDetail (args : DetailArgs)
  | findSimilar (args : SimilarArgs)
  | getStatistics (args : StatisticsArgs)

/-- The slot of an optional value. -/
def Slot.maybe {α : Type} (key : String) (read : Json → Except Mismatch α) : Slot :=
  { key, check := Slot.checking (Json.asOption read) }

namespace Members

/-- The optional value of a key. -/
def maybe {α : Type} (ms : Members) (key : String) (read : Json → Except Mismatch α) :
    Except Mismatch (Option α) := ms.read key none (Json.asOption read)

/-- The optional string of a key. -/
def text (ms : Members) (key : String) : Except Mismatch (Option String) :=
  ms.maybe key Json.asString

end Members

namespace DocumentsArgs

/-- The members of the arguments. -/
def shape : Shape where
  name := "arguments"
  slots := [
    { key := "query", aliases := ["keyword", "q"], check := Slot.checking Json.asString },
    .strings "keywords", .string "date_from", .string "date_to", .string "sender",
    .string "doc_type", .maybe "limit" Json.asCount, .maybe "strategy" SearchStrategy.ofJson,
    .maybe "expand" Json.asBool, .maybe "llm_rerank" Json.asBool]

/-- Reads the arguments. -/
def ofJson (v : Json) : Except Mismatch DocumentsArgs := do
  let ms ← shape.gather v
  let query ← ms.read "query" "" Json.asString
  let keywords ← ms.read "keywords" [] (Json.asList Json.asString)
  let dateFrom ← ms.text "date_from"
  let dateTo ← ms.text "date_to"
  let sender ← ms.text "sender"
  let docType ← ms.text "doc_type"
  let limit ← ms.maybe "limit" Json.asCount
  let strategy ← ms.maybe "strategy" SearchStrategy.ofJson
  let expand ← ms.maybe "expand" Json.asBool
  let judged ← ms.maybe "llm_rerank" Json.asBool
  .ok { query, keywords, dateFrom, dateTo, sender, docType, limit, strategy, expand, judged }

end DocumentsArgs

namespace DispatchArgs

/-- The members of the arguments. -/
def shape : Shape where
  name := "arguments"
  slots := [
    { key := "query", aliases := ["keyword"],
      check := Slot.checking (Json.asOption Json.asString) },
    .strings "keywords", .string "status", .string "assignee", .string "date_from",
    .string "date_to", .maybe "limit" Json.asCount]

/-- Reads the arguments. -/
def ofJson (v : Json) : Except Mismatch DispatchArgs := do
  let ms ← shape.gather v
  let query ← ms.text "query"
  let keywords ← ms.read "keywords" [] (Json.asList Json.asString)
  let status ← ms.text "status"
  let assignee ← ms.text "assignee"
  let dateFrom ← ms.text "date_from"
  let dateTo ← ms.text "date_to"
  let limit ← ms.maybe "limit" Json.asCount
  .ok { query, keywords, status, assignee, dateFrom, dateTo, limit }

end DispatchArgs

namespace EntitiesArgs

/-- The members of the arguments. -/
def shape : Shape where
  name := "arguments"
  slots := [
    { key := "name", aliases := ["query"], optional := false,
      check := Slot.checking Json.asString },
    .string "entity_type", .maybe "expand" Json.asBool, .maybe "limit" Json.asCount]

/-- Reads the arguments. -/
def ofJson (v : Json) : Except Mismatch EntitiesArgs := do
  let ms ← shape.gather v
  let name ← ms.read "name" "" Json.asString
  let entityType ← ms.text "entity_type"
  let expand ← ms.maybe "expand" Json.asBool
  let limit ← ms.maybe "limit" Json.asCount
  .ok { name, entityType, expand, limit }

end EntitiesArgs

namespace DetailArgs

/-- The members of the arguments. -/
def shape : Shape where
  name := "arguments"
  slots := [.string "entity_id", .string "name"]

/-- Reads the arguments. -/
def ofJson (v : Json) : Except Mismatch DetailArgs := do
  let ms ← shape.gather v
  let entityId ← ms.text "entity_id"
  let name ← ms.text "name"
  .ok { entityId, name }

end DetailArgs

namespace SimilarArgs

/-- The members of the arguments. -/
def shape : Shape where
  name := "arguments"
  slots := [
    .string "document_id",
    { key := "text", aliases := ["query"],
      check := Slot.checking (Json.asOption Json.asString) },
    .maybe "limit" Json.asCount]

/-- Reads the arguments. -/
def ofJson (v : Json) : Except Mismatch SimilarArgs := do
  let ms ← shape.gather v
  let documentId ← ms.text "document_id"
  let text ← ms.text "text"
  let limit ← ms.maybe "limit" Json.asCount
  .ok { documentId, text, limit }

end SimilarArgs

namespace StatisticsArgs

/-- The members of the arguments. -/
def shape : Shape where
  name := "arguments"
  slots := [.maybe "record_kind" RecordKind.ofJson, .string "group_by", .string "date_from",
    .string "date_to"]

/-- Reads the arguments. -/
def ofJson (v : Json) : Except Mismatch StatisticsArgs := do
  let ms ← shape.gather v
  let kind ← ms.maybe "record_kind" RecordKind.ofJson
  let groupBy ← ms.text "group_by"
  let dateFrom ← ms.text "date_from"
  let dateTo ← ms.text "date_to"
  .ok { kind, groupBy, dateFrom, dateTo }

end StatisticsArgs

namespace ToolRequest

/-- Reads a date argument; a blank one counts as none. -/
def readDate (tool : ToolName) (key : String) (value : Option String) :
    Except Failure (Option Date) :=
  match (value.map Text.trimmed).filter (· ≠ "") with
  | none => .ok none
  | some raw =>
    match Date.read? raw with
    | some date => .ok (some date)
    | none => .error (.badArguments tool.word s!"{key} is not a date: {raw}")

/-- Reads both date arguments, the first one first. -/
def readDates (tool : ToolName) (dateFrom dateTo : Option String) : Except Failure DateRange := do
  let first ← readDate tool "date_from" dateFrom
  let last ← readDate tool "date_to" dateTo
  .ok { first, last }

/-- Reads the arguments of a call. -/
def readArgs {α : Type} (read : Json → Except Mismatch α) (tool : ToolName)
    (arguments : Members) : Except Failure α :=
  (read (.obj arguments)).mapError fun m => .badArguments tool.word m.message

/-- Refuses arguments of which one is required and none is given. -/
def orRefuse (enough : Bool) (tool : ToolName) (reason : String) : Except Failure Unit :=
  if enough then .ok () else .error (.badArguments tool.word reason)

/-- A request for one of the tools with these arguments. -/
def ofParts (tool : ToolName) (arguments : Members) : Except Failure ToolRequest := do
  match tool with
  | .searchDocuments =>
    let args ← readArgs DocumentsArgs.ofJson tool arguments
    orRefuse (!Text.blank args.query || !args.keywords.isEmpty) tool
      "query or keywords is required"
    .ok (.searchDocuments args)
  | .searchDispatchOrders =>
    (readArgs DispatchArgs.ofJson tool arguments).map .searchDispatchOrders
  | .searchEntities => (readArgs EntitiesArgs.ofJson tool arguments).map .searchEntities
  | .getEntityDetail =>
    let args ← readArgs DetailArgs.ofJson tool arguments
    orRefuse (args.entityId.isSome || args.name.isSome) tool "entity_id or name is required"
    .ok (.getEntityDetail args)
  | .findSimilar =>
    let args ← readArgs SimilarArgs.ofJson tool arguments
    orRefuse (args.documentId.isSome || args.text.isSome) tool "document_id or text is required"
    .ok (.findSimilar args)
  | .getStatistics => (readArgs StatisticsArgs.ofJson tool arguments).map .getStatistics

/-- The request that a call makes. -/
def ofCall (c : ToolCall) : Except Failure ToolRequest :=
  match c.tool? with
  | none => .error (.unknownTool c.name)
  | some tool => ofParts tool c.arguments

/-- The tool of a request. -/
def tool : ToolRequest → ToolName
  | searchDocuments _ => .searchDocuments
  | searchDispatchOrders _ => .searchDispatchOrders
  | searchEntities _ => .searchEntities
  | getEntityDetail _ => .getEntityDetail
  | findSimilar _ => .findSimilar
  | getStatistics _ => .getStatistics

/-- The arguments; those that were not given are null. -/
def toJson : ToolRequest → Json
  | .searchDocuments a => .obj [
      ("query", .str a.query), ("keywords", .strings a.keywords),
      ("date_from", .ofOption .str a.dateFrom), ("date_to", .ofOption .str a.dateTo),
      ("sender", .ofOption .str a.sender), ("doc_type", .ofOption .str a.docType),
      ("limit", .ofOption .nat a.limit),
      ("strategy", .ofOption (fun s => .str s.word) a.strategy),
      ("expand", .ofOption .bool a.expand), ("llm_rerank", .ofOption .bool a.judged)]
  | .searchDispatchOrders a => .obj [
      ("query", .ofOption .str a.query), ("keywords", .strings a.keywords),
      ("status", .ofOption .str a.status), ("assignee", .ofOption .str a.assignee),
      ("date_from", .ofOption .str a.dateFrom), ("date_to", .ofOption .str a.dateTo),
      ("limit", .ofOption .nat a.limit)]
  | .searchEntities a => .obj [
      ("name", .str a.name), ("entity_type", .ofOption .str a.entityType),
      ("expand", .ofOption .bool a.expand), ("limit", .ofOption .nat a.limit)]
  | .getEntityDetail a => .obj [
      ("entity_id", .ofOption .str a.entityId), ("name", .ofOption .str a.name)]
  | .findSimilar a => .obj [
      ("document_id", .ofOption .str a.documentId), ("text", .ofOption .str a.text),
      ("limit", .ofOption .nat a.limit)]
  | .getStatistics a => .obj [
      ("record_kind", .ofOption (fun k => .str k.word) a.kind),
      ("group_by", .ofOption .str a.groupBy), ("date_from", .ofOption .str a.dateFrom),
      ("date_to", .ofOption .str a.dateTo)]

end ToolRequest

end Archivist
