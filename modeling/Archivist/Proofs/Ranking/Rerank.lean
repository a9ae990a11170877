import Archivist.Proofs.Number.Scalar
import Archivist.Proofs.Program
import Archivist.Ranking.Rerank

/-!
# Ranked Documents

Ranking neither adds nor drops documents, it gives them new scores
(`Ranking.mem_scoreAndSort_iff`). The best stand first: any number of them from the front is in the
order of the scores, if these are numbers (`Ranking.pairwise_take_scoreAndSort`).

With or without a judgment, documents are ranked in one way: `Ranker.judgment` is the part of a
ranking that asks, and the ranking is made of its outcome (`Ranker.yields_rankWithJudge_iff`).
-/

namespace Archivist

namespace Ranking

/-- Ranking keeps the documents and gives each a score. -/
theorem mem_scoreAndSort_iff {S : Type} [Scalar S] {w : Weights S} {terms : List String}
    {judged : Option (String → S)} {documents : List (Scored S)} {d : Scored S} :
    d ∈ scoreAndSort w terms judged documents ↔ ∃ e ∈ documents, rescore w terms judged e = d := by
  rw [scoreAndSort, mem_stableSort, List.mem_map]

/-- Ranking rearranges the identifiers of documents. -/
theorem ids_scoreAndSort_perm {S : Type} [Scalar S] (w : Weights S) (terms : List String)
    (judged : Option (String → S)) (documents : List (Scored S)) :
    ((scoreAndSort w terms judged documents).map (·.id)).Perm (documents.map (·.id)) := by
  have hperm := (stableSort_perm (fun a b => Scalar.less b.rerankScore a.rerankScore)
    (documents.map (rescore w terms judged))).map (·.id)
  rwa [List.map_map] at hperm

/-- Documents are ranked by their scores, where these are numbers. -/
theorem sorts_rerankScore :
    Sorts (fun a b : Document => Scalar.less b.rerankScore a.rerankScore)
      (fun d => d.rerankScore.isNaN = false) (fun a b => b.rerankScore ≤ a.rerankScore) :=
  (Score.decides Scored.rerankScore).toSorts

/-- **The best documents stand in the order of their scores**, unless one of the scores is no
number. -/
theorem pairwise_take_scoreAndSort {w : Weights Score} {terms : List String}
    {judged : Option (String → Score)} {documents : List Document} {n : ℕ}
    (h : ∀ d ∈ (scoreAndSort w terms judged documents).take n, d.rerankScore.isNaN = false) :
    ((scoreAndSort w terms judged documents).take n).Pairwise fun a b =>
      b.rerankScore ≤ a.rerankScore :=
  sorts_rerankScore.pairwise_of_prefix (List.take_prefix _ _) h

end Ranking

namespace Ranker

variable {r : Ranker} {question : String} {terms : List String} {documents ranked : List Document}
  {xs : List (Answered Reply)}

/-- The order of a language model, if it is to be asked. -/
def judgment (r : Ranker) (wanted : Bool) (question : String) (documents : List Document) :
    Action (Option (List ℕ)) :=
  if wanted then r.judge question documents else pure none

/-- The ranking by a judgment, or without one. -/
def rankBy (r : Ranker) (terms : List String) (documents : List Document)
    (order : Option (List ℕ)) : List Document :=
  Ranking.scoreAndSort r.weights terms (order.map (Ranking.relevance documents)) documents

/-- A ranking with a judge takes one order, or none, and goes by it. -/
theorem rankWithJudge_eq : r.rankWithJudge question terms documents =
    r.judge question documents >>= fun order => pure (r.rankBy terms documents order) :=
  congrArg (r.judge question documents >>= ·) (funext fun order => by cases order <;> rfl)

/-- A ranking takes the answers that its judge takes. -/
theorem yields_rankWithJudge_iff : (r.rankWithJudge question terms documents).Yields xs ranked ↔
    ∃ order, (r.judge question documents).Yields xs order ∧
      ranked = r.rankBy terms documents order := by
  rw [rankWithJudge_eq, Action.yields_bind_pure_iff]

end Ranker

end Archivist
