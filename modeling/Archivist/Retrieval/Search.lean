import Archivist.Number.Count
import Archivist.Ranking.Rerank

/-!
# Searching Documents

A search collects candidates from two sides, the documents whose embedding is near that of the
query and the documents that hold a search term, and ranks them together. A document that both
sides find is a vector candidate. An embedding that cannot be had is no failure: the search goes
on with keywords, also when only vector candidates were asked for.

`Retrieval.similar` is the plain lookup of the nearest neighbours of a text.
-/

namespace Archivist

/-- Which candidates a search collects. -/
inductive SearchStrategy where
  | hybrid
  | keyword
  | vector
  deriving DecidableEq

namespace SearchStrategy

/-- The word for a strategy. -/
def word : SearchStrategy → String
  | hybrid => "hybrid"
  | keyword => "keyword"
  | vector => "vector"

/-- Reads the word for a strategy. -/
def ofJson (v : Json) : Except Mismatch SearchStrategy :=
  (v.asWord ["hybrid", "keyword", "vector"]).map fun w =>
    if w = "keyword" then keyword else if w = "vector" then vector else hybrid

/-- Whether vector candidates are wanted. -/
def usesVector (s : SearchStrategy) : Bool := s ≠ keyword

/-- Whether keyword candidates are wanted. -/
def usesKeyword (s : SearchStrategy) : Bool := s ≠ vector

end SearchStrategy

/-- How a search is made. -/
structure SearchParams where
  /-- The most documents that are returned. -/
  limit : Nat
  strategy : SearchStrategy
  /-- Whether a language model judges the candidates. -/
  judged : Bool

namespace Retrieval

/-- The candidates for each document that is returned. -/
def candidateFactor : Nat := 3

/-- The documents nearest to the query; none if its embedding cannot be had. -/
def vectorCandidates (query : String) (filter : DocumentFilter) (limit : Nat) :
    Action (List Document) := do
  match ← Action.attempt (.embedding query) with
  | .ok (some vector) =>
    let hits ← Action.ask (.vectorSearch vector filter limit)
    return hits.map fun (record, score) => .ofRecord record .vector score
  | _ => return []

/-- The documents of `records` that are not among `found`, each once. -/
def newcomers (found : List Document) (records : List Record) : List Document :=
  (firstOfEach Record.id (found.map (·.id)) records).map (.ofRecord · .keyword 0)

/-- Candidates with those found by keyword behind them, which a strategy may do without if there
are candidates. -/
def withKeywords (terms : List String) (filter : DocumentFilter) (limit : Nat)
    (strategy : SearchStrategy) (near : List Document) : Action (List Document) := do
  if strategy.usesKeyword || near.isEmpty then
    let records ← Action.ask (.keywordSearch { filter with keywords := terms } limit)
    return near ++ newcomers near records
  else return near

/-- All candidates: those found by vector, then those found by keyword. -/
def candidates (query : String) (terms : List String) (filter : DocumentFilter) (limit : Nat)
    (strategy : SearchStrategy) : Action (List Document) := do
  let near ← if strategy.usesVector then vectorCandidates query filter limit else pure []
  withKeywords terms filter limit strategy near

/-- The best documents for a query; `terms` are the keywords that are looked for. -/
def search (ranker : Ranker) (query : String) (terms : List String) (filter : DocumentFilter)
    (params : SearchParams) : Action (List Document) := do
  let limit := Count.wrap (max params.limit 1 * candidateFactor)
  let found ← candidates query terms filter limit params.strategy
  let ranked ← if params.judged then ranker.rankWithJudge query terms found
    else pure (ranker.rank terms found)
  return ranked.take params.limit

/-- The documents most similar to a text, without the one that is excluded; they are ranked by
similarity. -/
def similar (text : String) (filter : DocumentFilter) (limit : Nat) (exclude : Option String) :
    Action (List Document) := do
  match ← Action.ask (.embedding text) with
  | none => return []
  | some vector =>
    let hits ← Action.ask (.vectorSearch vector filter (Count.wrap (limit + 1)))
    let others := hits.filter fun (record, _) => exclude ≠ some record.id
    return (others.take limit).map fun (record, score) =>
      { Document.ofRecord record .vector score with rerankScore := score }

end Retrieval

end Archivist
