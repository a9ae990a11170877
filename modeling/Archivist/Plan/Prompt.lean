import Archivist.Plan.Hints
import Archivist.Tool.Catalogue
import Archivist.Tool.Output

/-!
# Prompts for Planning

What the language model is told when it plans and when it judges what the tools have found.
-/

namespace Archivist.Prompt

/-- The instructions for planning on a day. -/
def planning (today : Date) : String := Text.joined "\n" [
  "你是公文檢索助理的規劃器。今天是 " ++ today.written ++ "。",
  "根據使用者問題與對話紀錄，決定要呼叫哪些工具。",
  "",
  "可用工具：",
  ToolSchema.catalogue,
  "",
  "規則：",
  "1. 只能使用上列工具名稱。",
  "2. 日期一律使用 YYYY-MM-DD；民國年請加 1911 轉為西元年。",
  "3. 問題需要查資料時至少呼叫一個工具；多個工具可同時列出。",
  "4. 只輸出一個 JSON 物件，不要任何其他文字：",
  "\x7b\"reasoning\": \"簡短說明\", \"tool_calls\": [\x7b\"name\": \"工具名稱\", " ++
    "\"arguments\": \x7b...\x7d\x7d]\x7d"]

/-- The question with its hints. -/
def question (question : String) (h : Hints) : String :=
  let written (d : Option Date) : String := (d.map Date.written).getD ""
  "問題：" ++ question ++
    (if h.dates.isBounded then s!"\n已知日期範圍：{written h.dates.first} ~ {written h.dates.last}"
      else "") ++
    h.entity.elim "" ("\n已知相關單位或人物：" ++ ·)

/-- What became of a call. -/
def outcome (r : ToolResult) : String :=
  match r.data, r.error with
  | some data, error =>
    if r.success then data.summary else error.elim "無資料" ("失敗：" ++ ·)
  | none, some error => "失敗：" ++ error
  | none, none => "無資料"

/-- A result in the question to the judge, with its first documents. -/
def resultLines (number : Nat) (r : ToolResult) : List String :=
  s!"{number}. {r.call.name} → {outcome r}" :: (r.found.take 3).map ("   - " ++ ·.label)

/-- The question whether results are sufficient. -/
def sufficiency (question : String) (results : List ToolResult) : String :=
  let lines := (results.zipIdx.map fun (r, i) => resultLines (i + 1) r).flatten
  "問題：" ++ question ++ "\n\n工具結果：\n" ++ Text.joined "\n" lines ++
    "\n\n這些結果足以回答問題嗎？只回答 YES 或 NO，後面可附一句理由。"

end Archivist.Prompt
