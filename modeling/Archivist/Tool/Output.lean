import Archivist.Retrieval.Document
import Archivist.Store.Entity
import Archivist.Store.Filter
import Archivist.Tool.Call

/-!
# Tool Results

What a tool has found, a sentence about it for the language model, and the result of a call: its
data, or the text of its failure.
-/

namespace Archivist

/-- What a tool has found. -/
inductive ToolOutput where
  | documents (documents : List Document)
  | entities (entities : List Entity)
  | entityDetail (detail : EntityDetail) (documents : List Document)
  | statistics (query : StatisticsQuery) (stats : Statistics)

namespace ToolOutput

/-- Whether nothing has been found. -/
def isEmpty : ToolOutput → Bool
  | documents ds => ds.isEmpty
  | entities es => es.isEmpty
  | entityDetail .. => false
  | statistics _ stats => stats.total = 0

/-- The documents that have been found. -/
def found : ToolOutput → List Document
  | documents ds | entityDetail _ ds => ds
  | entities _ | statistics .. => []

/-- Whether the data answer a question without ranked documents. -/
def isDirect : ToolOutput → Bool
  | entityDetail .. | statistics .. => true
  | documents _ | entities _ => false

/-- The documents as sources of an answer. -/
def citations (o : ToolOutput) : List Citation := o.found.map (·.citation)

/-- An entity in a list. -/
def entityText (e : Entity) : String :=
  if e.entityType = "" then s!"{e.canonicalName} [{e.id}]"
  else s!"{e.canonicalName}（{e.entityType}）[{e.id}]"

/-- What has been found, in words. -/
def summary : ToolOutput → String
  | documents ds => s!"找到 {ds.length} 筆資料"
  | entities [] => "查無相符的實體"
  | entities es => "相符實體：" ++ Text.joined "、" (es.map entityText)
  | entityDetail detail ds => Text.joined "\n" (
      ["實體：" ++ detail.entity.canonicalName] ++
      (if detail.aliases.isEmpty then [] else ["別名：" ++ Text.joined "、" detail.aliases]) ++
      detail.relations.map (fun r => s!"關係：{r.sourceId} -[{r.relation}]-> {r.targetId}") ++
      [s!"相關文件 {ds.length} 筆"])
  | statistics _ stats =>
    s!"總數：{stats.total}" ++
      if stats.groups.isEmpty then ""
      else "；分組：" ++ Text.joined "、" (stats.groups.map fun (k, n) => s!"{k} {n}")

end ToolOutput

/-- The result of a tool call. -/
structure ToolResult where
  call : ToolCall
  success : Bool
  data : Option ToolOutput
  error : Option String

namespace ToolResult

/-- A call that has succeeded. -/
def succeeded (call : ToolCall) (data : ToolOutput) : ToolResult :=
  { call, success := true, data := some data, error := none }

/-- A call that has failed. -/
def failed (call : ToolCall) (error : String) : ToolResult :=
  { call, success := false, data := none, error := some error }

/-- Whether something has been found. -/
def hasData (r : ToolResult) : Bool := r.success && r.data.any (!·.isEmpty)

/-- The documents that have been found. -/
def found (r : ToolResult) : List Document :=
  if r.success then r.data.elim [] (·.found) else []

end ToolResult

end Archivist
