import Archivist.Answer.Context
import Archivist.Answer.Sanitizer
import Archivist.Collaborator
import Archivist.Order.Stable
import Archivist.Tool.Output

/-!
# Writing the Answer

The language model is shown the question, a line about each tool result and the documents that
were found, each once. What it streams is sanitized piece by piece; if nothing is left in the end,
a fixed sentence takes its place.
-/

namespace Archivist

namespace Synthesis

/-- The sentence that takes the place of an answer of which nothing is left. -/
def emptyAnswer : String := "抱歉，目前無法根據查詢結果產生回答，請換個方式再問一次。"

/-- The instructions for writing an answer. -/
def instructions : String := Text.joined "\n" [
  "你是公文檢索助理。請只根據提供的工具結果與參考文件，用繁體中文回答使用者問題。",
  "規則：",
  "1. 不可編造文件、文號、日期或數字。",
  "2. 引用文件時標註編號，例如 [1]。",
  "3. 查無資料時直接說明查無資料，並建議調整查詢條件。",
  "4. 直接給出答案，不要描述你的思考過程。"]

/-- The documents that were found, the first of each identifier. -/
def documents (results : List ToolResult) : List Document :=
  firstOfEach Scored.id [] (results.flatMap (·.found))

/-- The sources of an answer, the first of each identifier. -/
def citations (results : List ToolResult) : List Citation :=
  let outputs := (results.filter (·.success)).filterMap (·.data)
  firstOfEach Citation.documentId [] (outputs.flatMap (·.citations))

/-- The line about a result. -/
def summaryLine (r : ToolResult) : String :=
  match r.data, r.success with
  | some data, true => s!"- {r.call.name}：{data.summary}"
  | _, _ => s!"- {r.call.name}：查詢失敗"

/-- A line about each result. -/
def summary (results : List ToolResult) : String :=
  if results.isEmpty then "（未執行任何查詢）" else Text.joined "\n" (results.map summaryLine)

/-- What the language model is asked. -/
def prompt (c : ContextConfig) (question : String) (results : List ToolResult) : String :=
  let found := documents results
  let prompt := "工具結果摘要：\n" ++ summary results ++ "\n\n問題：" ++ question
  if found.isEmpty then "參考文件：（無）\n\n" ++ prompt else Context.augment c prompt found

/-- The request for an answer. -/
def request (c : ContextConfig) (historyTurns : Nat) (question : String) (history : List Remark)
    (results : List ToolResult) : ChatRequest :=
  .forTask .synthesis (
    [{ role := .system, content := instructions }] ++
    (recent historyTurns history).map Remark.toMessage ++
    [{ role := .user, content := prompt c question results }])

/-- How a streamed answer ends. -/
inductive Ended where
  | complete
  | failed (e : Failure)
  | brokenDown

/-- The pieces that are passed on, and how the stream ends. -/
structure Streamed where
  pieces : List String
  ended : Ended

/-- A piece, unless it is empty. -/
def pieceOf (text : String) : List String := if text = "" then [] else [text]

/-- What is passed on when the stream has ended; `sent` is what was passed on before. -/
def close (s : Sanitize.Sanitizer) (sent : List String) : List String :=
  let tail := pieceOf s.finish.1
  if (sent ++ tail).all Text.blank then tail ++ [emptyAnswer] else tail

/-- Passes on a stream; `sent` is what was passed on before. -/
def streamFrom (s : Sanitize.Sanitizer) (sent : List String) : List Chunk → Streamed
  | [] => { pieces := close s sent, ended := .complete }
  | .failure e :: _ => { pieces := [], ended := .failed e }
  | .breakdown :: _ => { pieces := [], ended := .brokenDown }
  | .text text :: rest =>
    let (out, s) := s.push text
    let now := pieceOf out
    let later := streamFrom s (sent ++ now) rest
    { later with pieces := now ++ later.pieces }

/-- Passes on a stream. -/
def stream (chunks : List Chunk) : Streamed := streamFrom {} [] chunks

/-- The answer that has been passed on. -/
def Streamed.text (s : Streamed) : String := Text.joined "" s.pieces

end Synthesis

end Archivist
