import Archivist.Collaborator
import Archivist.Order.Stable
import Archivist.Ranking.Coverage
import Archivist.Ranking.Verdict
import Archivist.Retrieval.Document

/-!
# Ranking

Documents are ranked by a weighted sum of their similarity, of the search terms that they cover
and, if a language model has judged them, of their place in its ranking: the best of `k` judged
documents has relevance 1, each further one `1 / k` less. Documents with the same score keep their
order. A judgment that cannot be had or read leaves the ranking to the other two signals.
-/

namespace Archivist

/-- The weights of the signals. -/
structure Weights (S : Type) where
  vector : S
  keyword : S
  judged : S

/-- How documents are ranked. -/
structure Ranker where
  weights : Weights Score
  /-- The most documents that are shown to a language model. -/
  maxJudged : Nat

namespace Ranking

section Scores

variable {S : Type} [Scalar S]

/-- A document with its coverage and its score; `judged` is the relevance that was judged. -/
def rescore (w : Weights S) (terms : List String) (judged : Option (String → S)) (d : Scored S) :
    Scored S :=
  let keywordScore := Coverage.score terms d.text
  let score := w.vector * d.similarity + w.keyword * keywordScore
  let rerankScore := match judged with
    | none => score
    | some relevance => score + w.judged * relevance d.id
  { d with keywordScore, rerankScore }

/-- The documents with their scores, highest first. -/
def scoreAndSort (w : Weights S) (terms : List String) (judged : Option (String → S))
    (documents : List (Scored S)) : List (Scored S) :=
  stableSort (fun a b => Scalar.less b.rerankScore a.rerankScore)
    (documents.map (rescore w terms judged))

/-- The ranking by similarity and coverage. -/
def rank (w : Weights S) (terms : List String) (documents : List (Scored S)) : List (Scored S) :=
  scoreAndSort w terms none documents

/-- The relevance of documents in the order of a judgment, with the identifier of each. -/
def relevances (documents : List (Scored S)) (order : List Nat) : List (String × S) :=
  order.zipIdx.filterMap fun (i, place) => documents[i]?.map fun d =>
    (d.id, 1.0 - Scalar.ofNat place / Scalar.ofNat order.length)

/-- The relevance of a document; the last of several with its identifier counts, and one that was
not judged has none. -/
def relevance (documents : List (Scored S)) (order : List Nat) (id : String) : S :=
  (((relevances documents order).reverse.find? (·.1 = id)).map (·.2)).getD (Scalar.ofNat 0)

/-- The ranking by all three signals. -/
def rankJudged (w : Weights S) (terms : List String) (documents : List (Scored S))
    (order : List Nat) : List (Scored S) :=
  scoreAndSort w terms (some (relevance documents order)) documents

end Scores

/-- The characters of a document that are shown to the judge. -/
def snippetLength : Nat := 120

/-- A line that shows a candidate. -/
def candidateLine (number : Nat) (d : Document) : String :=
  let snippet := (d.text.toList.take snippetLength).map fun c => if c = '\n' then ' ' else c
  s!"{number}. {d.label} | " ++ String.ofList snippet

/-- The question to the judge. -/
def judgePrompt (question : String) (candidates : List Document) : String :=
  let lines := candidates.zipIdx.map fun (d, i) => candidateLine (i + 1) d
  "問題：" ++ question ++ "\n\n候選文件：\n" ++ Text.joined "\n" lines ++
    "\n\n請依與問題的相關程度排序，只回傳編號，以逗號分隔（例如：3,1,2），不要輸出其他文字。"

end Ranking

namespace Ranker

/-- Asks a language model for the order of the first documents. No order is given if there are no
documents, if it fails, or if its answer names none of them. -/
def judge (r : Ranker) (question : String) (documents : List Document) :
    Action (Option (List Nat)) := do
  if documents.isEmpty then return none
  let candidates := documents.take (max r.maxJudged 1)
  let request := ChatRequest.forTask .rerank
    [{ role := .user, content := Ranking.judgePrompt question candidates }]
  match ← Action.attempt (.complete request) with
  | .error _ => return none
  | .ok output =>
    let order := Ranking.read output candidates.length
    return if order = [] then none else some order

/-- Ranks documents by similarity and coverage. -/
def rank (r : Ranker) (terms : List String) (documents : List Document) : List Document :=
  Ranking.rank r.weights terms documents

/-- Ranks documents by all three signals, or by two if there is no judgment. -/
def rankWithJudge (r : Ranker) (question : String) (terms : List String)
    (documents : List Document) : Action (List Document) := do
  match ← r.judge question documents with
  | none => return r.rank terms documents
  | some order => return Ranking.rankJudged r.weights terms documents order

/-- Ranks documents by all three signals, or by two if there is no language model to judge them. -/
def rankWith (r : Ranker) (present : Bool) (question : String) (terms : List String)
    (documents : List Document) : Action (List Document) :=
  if present then r.rankWithJudge question terms documents else pure (r.rank terms documents)

/-- The first `n` documents in the order of a judgment; those that it does not name come after, in
their own order. Without a judgment, the first `n` documents. -/
def arrange (documents : List Document) (n : Nat) : Option (List Nat) → List Document
  | none => documents.take n
  | some order =>
    let named := order.filterMap fun i => documents[i]?
    let others := (documents.zipIdx.filter (·.2 ∉ order)).map (·.1)
    (named ++ others).take n

/-- Lets a language model order the documents. -/
def arrangeByJudge (r : Ranker) (question : String) (documents : List Document) (n : Nat) :
    Action (List Document) := do
  let order ← r.judge question documents
  return arrange documents n order

/-- Lets a language model order the documents, if there is one. -/
def arrangeWith (r : Ranker) (present : Bool) (question : String) (documents : List Document)
    (n : Nat) : Action (List Document) :=
  if present then r.arrangeByJudge question documents n else pure (arrange documents n none)

end Ranker

end Archivist
