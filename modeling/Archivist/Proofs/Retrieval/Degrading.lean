import Archivist.Proofs.Concurrency.Lore
import Archivist.Proofs.Retrieval.Search

/-!
# Searches Without Vector Candidates

A search that wants vector candidates may get none: the embedding of the query cannot be had, there
is no embedding of it, or no document is near it. `Retrieval.Fruitless` lists the answers after
which this is so. What remains of the search then is the keyword search, whichever strategy it has
begun with: the same questions to the store and to the judge, and the same value or failure in the
end.

## Main results

* `Retrieval.leads_search_keyword`: after fruitless answers, what remains of a search is the keyword
  search.
* `Retrieval.search_fruitless`: with collaborators that always answer alike, both end alike.
-/

namespace Archivist

/-- A corpus as a collaborator; every text is embedded in the same way. -/
def Corpus.lore (c : Corpus) (landing : Landing) : Lore where
  answer q := (c.value? q).map .ok
  book _ := some landing

namespace Retrieval

variable {ranker : Ranker} {query : String} {terms : List String} {filter : DocumentFilter}
  {limit : ℕ} {judged : Bool} {strategy : SearchStrategy} {xs : List (Answered Reply)}

/-- Answers that leave a search without vector candidates. -/
inductive Fruitless (query : String) (filter : DocumentFilter) (limit : ℕ) :
    List (Answered Reply) → Prop where
  /-- The lookup of the embedding fails. -/
  | failed (e : Failure) : Fruitless query filter limit [⟨.embedding query, .error e⟩]
  /-- The query has no embedding. -/
  | missing : Fruitless query filter limit [⟨.embedding query, .ok none⟩]
  /-- No document is near the query. -/
  | nothingNear (v : Embedding) : Fruitless query filter limit
      [⟨.embedding query, .ok (some v)⟩, ⟨.vectorSearch v filter limit, .ok []⟩]

/-- How many candidates of each kind a search asks for. -/
def candidateLimit (limit : ℕ) : ℕ := Count.wrap (max limit 1 * candidateFactor)

/-! ### What remains of a search -/

/-- After fruitless answers there are no vector candidates. -/
theorem Fruitless.leads_vectorCandidates (h : Fruitless query filter limit xs) :
    (vectorCandidates query filter limit).run.Leads xs (pure [] : Action (List Document)).run := by
  cases h with
  | failed e => exact .ask _ _ _ (.refl _)
  | missing => exact .ask _ _ _ (.refl _)
  | nothingNear v => exact .ask _ _ _ (.ask _ _ _ (.refl _))

/-- Without vector candidates, every strategy looks for keywords. -/
theorem withKeywords_nil (strategy : SearchStrategy) :
    withKeywords terms filter limit strategy [] = withKeywords terms filter limit .keyword [] := by
  rw [withKeywords, withKeywords, List.isEmpty_nil, Bool.or_true, Bool.or_true]

/-- After fruitless answers, the candidates are those of a keyword search. -/
theorem Fruitless.leads_candidates (h : Fruitless query filter limit xs)
    (hs : strategy.usesVector = true) :
    (candidates query terms filter limit strategy).run.Leads xs
      (candidates query terms filter limit .keyword).run := by
  have hvectors : candidates query terms filter limit strategy =
      vectorCandidates query filter limit >>= withKeywords terms filter limit strategy := by
    rw [candidates, if_pos hs]
  have hkeywords : candidates query terms filter limit .keyword =
      pure [] >>= withKeywords terms filter limit strategy := (withKeywords_nil strategy).symm
  rw [hvectors, hkeywords]
  exact Action.leads_bind h.leads_vectorCandidates _

/-- **After fruitless answers, what remains of a search is the keyword search**, with whatever
ranker and whether or not the candidates are to be judged. -/
theorem leads_search_keyword (h : Fruitless query filter (candidateLimit limit) xs)
    (hs : strategy.usesVector = true) :
    (search ranker query terms filter ⟨limit, strategy, judged⟩).run.Leads xs
      (search ranker query terms filter ⟨limit, .keyword, judged⟩).run :=
  Action.leads_bind (h.leads_candidates hs) _

/-- **A search without vector candidates is a keyword search.** What is still asked is asked as in
the keyword search and has the same consequences; and if collaborators always answer alike, both
come to the same documents with the same sources and scores in the same order, or to the same
failure. -/
theorem search_fruitless (h : Fruitless query filter (candidateLimit limit) xs)
    (hs : strategy ≠ .keyword) :
    (∀ ys p, (search ranker query terms filter ⟨limit, strategy, judged⟩).run.Leads (xs ++ ys) p ↔
      (search ranker query terms filter ⟨limit, .keyword, judged⟩).run.Leads ys p) ∧
    ∀ L : Lore, (∀ x ∈ xs, L.reply x.1 = some x.2) →
      (search ranker query terms filter ⟨limit, strategy, judged⟩).run.ending L =
        (search ranker query terms filter ⟨limit, .keyword, judged⟩).run.ending L := by
  have hleads : (search ranker query terms filter ⟨limit, strategy, judged⟩).run.Leads xs
      (search ranker query terms filter ⟨limit, .keyword, judged⟩).run :=
    leads_search_keyword h (decide_eq_true hs)
  exact ⟨fun ys p => hleads.append_iff, fun L hxs => hleads.ending_eq hxs⟩

/-- With the provider of embeddings offline, a search for what is near finds what is named. -/
theorem search_offline : ∃ docs,
    (search clerk "道路" ["道路"] {} ⟨10, .vector, false⟩).run.ending
      (roadPapers.lore (.error (.embedding "offline"))) = .value (.ok docs) ∧
    docs.map (fun d => (d.id, d.source)) = [("R-1", .keyword), ("R-2", .keyword)] := by
  have hreply : (roadPapers.lore (.error (.embedding "offline"))).reply (.embedding "道路") =
      some (.error (.embedding "offline")) := Book.landing?_of_solid (by decide)
  rw [(search_fruitless (.failed (.embedding "offline")) (by decide)).2 _
    (List.forall_mem_singleton.2 hreply)]
  exact ⟨_, rfl, by decide +kernel⟩

end Retrieval

end Archivist
