import Archivist.Json.Printer
import Archivist.Tool.Name

/-!
# The Tool Catalogue

How the tools are described to the language model that plans: for each a sentence and a schema of
its arguments.
-/

namespace Archivist

/-- The description of a tool. -/
structure ToolSchema where
  name : ToolName
  description : String
  /-- The schema of the arguments. -/
  parameters : Json

namespace ToolSchema

/-- An argument of a type, perhaps with a description. -/
def argument (type : String) (description : Option String) : Json :=
  .obj ((description.map fun d => ("description", Json.str d)).toList ++ [("type", .str type)])

/-- A textual argument. -/
def text (description : String) : Json := argument "string" (some description)

/-- A textual argument without description. -/
def plainText : Json := argument "string" none

/-- A number of results. -/
def count : Json := argument "integer" none

/-- The schema of a call with these arguments, of which some are required. -/
def parametersOf (arguments : List (String × Json)) (required : List String) : Json :=
  .ofMembers ([("type", .str "object"), ("properties", .obj arguments)] ++
    if required.isEmpty then [] else [("required", .arr (required.map .str))])

/-- The first and the last date of a range. -/
def dates : List (String × Json) := [
  ("date_from", text "起始日期 YYYY-MM-DD"), ("date_to", text "結束日期 YYYY-MM-DD")]

/-- The description of each tool. -/
def of : ToolName → ToolSchema
  | .searchDocuments => {
      name := .searchDocuments
      description := "搜尋公文（語意 + 關鍵字混合檢索並重新排序）"
      parameters := parametersOf ([
        ("query", text "查詢內容"),
        ("keywords", .obj [("type", .str "array"), ("items", plainText),
          ("description", .str "關鍵字")]),
        ("sender", text "發文單位"),
        ("doc_type", text "公文類型，例如 函、公告、簽"),
        ("limit", argument "integer" (some "回傳筆數"))] ++ dates) ["query"] }
  | .searchDispatchOrders => {
      name := .searchDispatchOrders
      description := "搜尋派工單（依關鍵字、狀態、承辦人、日期）"
      parameters := parametersOf ([
        ("query", text "查詢內容"),
        ("status", text "狀態，例如 處理中、已結案"),
        ("assignee", text "承辦人"),
        ("limit", count)] ++ dates) [] }
  | .searchEntities => {
      name := .searchEntities
      description := "查詢機關、人員等實體（含同義詞與別名）"
      parameters := parametersOf [
        ("name", text "實體名稱或簡稱"),
        ("entity_type", text "實體類型"),
        ("limit", count)] ["name"] }
  | .getEntityDetail => {
      name := .getEntityDetail
      description := "取得實體的別名、關係與相關公文"
      parameters := parametersOf [
        ("entity_id", plainText),
        ("name", text "實體名稱（未知 entity_id 時使用）")] [] }
  | .findSimilar => {
      name := .findSimilar
      description := "找出與指定公文或文字內容相似的公文"
      parameters := parametersOf [
        ("document_id", plainText), ("text", plainText), ("limit", count)] [] }
  | .getStatistics => {
      name := .getStatistics
      description := "統計公文或派工單數量，可依欄位分組"
      parameters := parametersOf [
        ("record_kind", .obj [("type", .str "string"),
          ("enum", .arr [.str "documents", .str "dispatch_orders"])]),
        ("group_by", text "分組欄位，例如 sender、doc_type、status"),
        ("date_from", plainText), ("date_to", plainText)] [] }

/-- The description of a tool in a prompt. -/
def line (s : ToolSchema) : String :=
  s!"- {s.name.word}: {s.description}\n  參數: " ++ s.parameters.canonical.render

/-- The descriptions of all tools. -/
def all : List ToolSchema := ToolName.all.map of

/-- The catalogue in a prompt. -/
def catalogue : String := "\n".intercalate (all.map line)

end ToolSchema

end Archivist
