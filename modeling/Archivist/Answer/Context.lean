import Archivist.Number.Decimal
import Archivist.Retrieval.Document

/-!
# The Context of an Answer

The documents that the language model is shown when it writes an answer, numbered from 1, each
with its heading, some of its fields and the beginning of its text. Documents are taken in order
as long as their texts fit into a budget of characters.
-/

namespace Archivist

/-- How the context is assembled. -/
structure ContextConfig where
  /-- The most characters of all documents together. -/
  budget : Nat := 6000
  /-- The characters of its text that each document shows. -/
  snippet : Nat := 300
  showScores : Bool := false

/-- The documents that fit. -/
structure Context where
  /-- The text of each document. -/
  parts : List String
  ids : List String
  /-- The characters of all parts together. -/
  used : Nat

namespace Context

/-- The members of a configuration. -/
def shape : Shape where
  name := "settings of the context"
  slots := [
    { key := "max_context_chars", optional := false, check := Slot.checking Json.asCount },
    { key := "snippet_chars", optional := false, check := Slot.checking Json.asCount },
    { key := "include_scores", optional := false, check := Slot.checking Json.asBool }]

/-- Reads a configuration. -/
def configOfJson (v : Json) : Except Mismatch ContextConfig := do
  let ms ← shape.gather v
  let budget ← ms.read "max_context_chars" 0 Json.asCount
  let snippet ← ms.read "snippet_chars" 0 Json.asCount
  let showScores ← ms.read "include_scores" false Json.asBool
  .ok { budget, snippet, showScores }

/-- The fields that are shown, with their names. -/
def shownFields : List (String × String) := [
  ("發文單位", "sender"), ("日期", "date"), ("類型", "doc_type"), ("狀態", "status")]

/-- The line of shown fields, if the document has any. -/
def fieldLine (d : Document) : String :=
  let shown := shownFields.filterMap fun (name, key) =>
    (d.field? key).map fun v => name ++ "：" ++ v
  if shown.isEmpty then "" else "\n" ++ Text.joined "｜" shown

/-- The beginning of a text, with an ellipsis if there is more. -/
def snippetOf (most : Nat) (body : String) : String :=
  Text.take most body ++ if most < Text.size body then "…" else ""

/-- The text of the document with a number. -/
def format (c : ContextConfig) (number : Nat) (d : Document) : String :=
  s!"[{number}] {d.label}" ++
    (if c.showScores then
      " (相關度 " ++ Decimal.fixed 2 (.ofFloat32 d.rerankScore) ++ ")" else "") ++
    fieldLine d ++
    (d.field? "content").elim "" fun body => "\n摘要：" ++ snippetOf c.snippet body

/-- Adds documents until one does not fit. -/
def add (c : ContextConfig) (done : Context) : List Document → Context
  | [] => done
  | d :: rest =>
    let text := format c (done.parts.length + 1) d
    let used := done.used + Text.size text
    if c.budget < used then done
    else add c { parts := done.parts ++ [text], ids := done.ids ++ [d.id], used } rest

/-- The context of some documents. -/
def build (c : ContextConfig) (documents : List Document) : Context := add c ⟨[], [], 0⟩ documents

/-- The text of a context. -/
def text (x : Context) : String := Text.joined "\n\n" x.parts

/-- The context in front of a prompt; the prompt alone if no document fits. -/
def augment (c : ContextConfig) (prompt : String) (documents : List Document) : String :=
  let x := build c documents
  if x.parts.isEmpty then prompt else "參考文件：\n" ++ x.text ++ "\n\n" ++ prompt

end Context

end Archivist
