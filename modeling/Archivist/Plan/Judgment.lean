import Archivist.Collaborator
import Archivist.Number.Decimal
import Archivist.Plan.Prompt

/-!
# Judging Results

Results are sufficient if some call answers the question directly or some document is relevant
enough. Where that is the case a language model may be asked for a second opinion; it can turn the
verdict, but not if it fails.
-/

namespace Archivist

/-- Why results are not sufficient. -/
inductive Shortfall where
  /-- No call has found anything. -/
  | noResults (failed empty : Nat)
  /-- Nothing that was found is relevant enough. -/
  | lowRelevance (best : Score)
  /-- The language model says so. -/
  | judged (reason : String)

/-- The text of a shortfall. -/
def Shortfall.message : Shortfall → String
  | noResults failed empty => s!"no results ({failed} failed, {empty} empty)"
  | lowRelevance best => "low relevance (best " ++ Decimal.fixed 2 (.ofFloat32 best) ++ ")"
  | judged reason => "judged insufficient: " ++ reason

namespace Judgment

/-- The relevance of the best document. -/
def bestRelevance (results : List ToolResult) : Score :=
  ((results.flatMap (·.found)).map (·.relevance)).foldl larger 0

/-- Why results are not sufficient, if they are not. -/
def assess (minRelevance : Score) (results : List ToolResult) : Option Shortfall :=
  let productive := results.filter (·.hasData)
  if productive.isEmpty then
    let failed := results.countP (!·.success)
    some (.noResults failed (results.length - failed))
  else if productive.any (·.data.any (·.isDirect)) then none
  else
    let best := bestRelevance productive
    if best < minRelevance then some (.lowRelevance best) else none

/-- Whether the answer of a judge says no. -/
def refuses : List Char → Bool
  | '否' :: _ => true
  | '不' :: '足' :: _ => true
  | n :: o :: _ => (n = 'N' || n = 'n') && (o = 'O' || o = 'o')
  | _ => false

/-- The punctuation between the verdict of a judge and its reason. -/
def punctuation : List Char := [',', '，', ':', '：', '.', '。', ' ']

/-- Reads the answer of a judge: whether the results are sufficient, and the reason. An answer
that is neither yes nor no counts as yes. -/
def readVerdict (output : String) : Bool × String :=
  let cs := Text.trim output.toList
  let reason := (cs.dropWhile fun c => c.isAlpha || c = '否').dropWhile (· ∈ punctuation)
  (!refuses cs, String.ofList reason)

end Judgment

/-- How results are judged. -/
structure Judge where
  minRelevance : Score
  /-- Whether a language model is asked for a second opinion. -/
  asksModel : Bool

namespace Judge

/-- The most tokens of a second opinion. -/
def maxTokens : Nat := 64

/-- Why results are not sufficient, if they are not. -/
def evaluate (j : Judge) (question : String) (results : List ToolResult) :
    Action (Option Shortfall) := do
  match Judgment.assess j.minRelevance results with
  | some shortfall => return some shortfall
  | none =>
    if !j.asksModel then return none
    let request := ChatRequest.forTask .evaluation
      [{ role := .user, content := Prompt.sufficiency question results }]
    match ← Action.attempt (.complete { request with maxTokens }) with
    | .error _ => return none
    | .ok output =>
      let (sufficient, reason) := Judgment.readVerdict output
      return if sufficient then none else some (.judged reason)

end Judge

end Archivist
