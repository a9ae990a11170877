import Archivist.Proofs.Ranking.Rerank
import Archivist.Proofs.Store.Search
import Archivist.Retrieval.Search

/-!
# What a Search Finds

A search collects candidates on two paths, and each of them keeps to the filter: if the store
answers as a corpus does, every candidate is a document of the corpus that passes the filter, and
is near the query or holds one of the terms (`Retrieval.offers_of_candidates`). Ranking changes
nothing of this but the scores (`Retrieval.delivers_rankBy`).

The embedding of the query may be anything, and so may the judgment of the language model.
-/

namespace Archivist

/-- An answer that a corpus may be behind: to a question to the store or to the graph it is that of
the corpus, or a failure; to other questions it may be anything. -/
def Corpus.Allows (c : Corpus) (x : Answered Reply) : Prop :=
  ∀ v v', x.2 = .ok v → c.value? x.1 = some v' → v = v'

/-- A corpus allows the answer that it has. -/
theorem Corpus.allows_ok {c : Corpus} {q : Ask} {v : q.Value} (h : c.value? q = some v) :
    c.Allows ⟨q, .ok v⟩ := by
  intro v₁ v₂ h₁ h₂
  obtain rfl := Except.ok.inj h₁
  exact Option.some.inj (h.symm.trans h₂)

/-- A corpus allows any answer to a question that it has none for. -/
theorem Corpus.allows_of_none {c : Corpus} {x : Answered Reply} (h : c.value? x.1 = none) :
    c.Allows x := by
  intro v₁ v₂ _ h₂
  exact absurd (h.symm.trans h₂) (Option.some_ne_none v₂).symm

/-- What a search may find: a document of the corpus that passes the filter. Either it has an
embedding, and its similarity to a vector of the query, or it holds one of the terms. -/
def Corpus.Offers (c : Corpus) (filter : DocumentFilter) (terms : List String)
    (vectors : Embedding → Prop) (d : Document) : Prop :=
  ∃ s ∈ c.documents, s.record = d.record ∧ filter.admits d.record = true ∧
    ((d.source = .vector ∧
        ∃ v e, vectors v ∧ s.embedding = some e ∧ d.similarity = similarity v e) ∨
      (d.source = .keyword ∧ d.similarity = 0 ∧ (terms ≠ [] → ∃ k ∈ terms, d.record.Holds k)))

namespace Retrieval

variable {c : Corpus} {query : String} {terms : List String} {filter : DocumentFilter}
  {limit : ℕ} {strategy : SearchStrategy} {near found docs : List Document}
  {xs : List (Answered Reply)} {vectors : Embedding → Prop}

/-! ### Answers on the way to candidates -/

/-- Vector candidates are what the store lists for the embedding of the query, if there is one. -/
theorem vectorCandidates_cases (h : (vectorCandidates query filter limit).Yields xs near) :
    (∃ reply, xs = [⟨.embedding query, reply⟩] ∧ near = []) ∨
      ∃ v, ∃ hits : List (Record × Score),
        xs = [⟨.embedding query, .ok (some v)⟩, ⟨.vectorSearch v filter limit, .ok hits⟩] ∧
        near = hits.map fun (record, score) => .ofRecord record .vector score := by
  rw [vectorCandidates, Action.yields_bind_iff] at h
  obtain ⟨ys, zs, reply, rfl, hembedding, h⟩ := h
  obtain rfl := Action.yields_attempt_iff.1 hembedding
  rcases reply with e | _ | v
  · obtain ⟨rfl, rfl⟩ := Action.yields_pure_iff.1 h
    exact .inl ⟨_, rfl, rfl⟩
  · obtain ⟨rfl, rfl⟩ := Action.yields_pure_iff.1 h
    exact .inl ⟨_, rfl, rfl⟩
  · obtain ⟨hits, hsearch, rfl⟩ := Action.yields_bind_pure_iff.1 h
    obtain rfl := Action.yields_ask_iff.1 hsearch
    exact .inr ⟨v, hits, rfl, rfl⟩

/-- What is found by keyword stands behind what is there already. -/
theorem withKeywords_cases (h : (withKeywords terms filter limit strategy near).Yields xs found) :
    (xs = [] ∧ found = near) ∨
      ∃ records, xs = [⟨.keywordSearch { filter with keywords := terms } limit, .ok records⟩] ∧
        found = near ++ newcomers near records := by
  rw [withKeywords] at h
  split at h
  · obtain ⟨records, hsearch, rfl⟩ := Action.yields_bind_pure_iff.1 h
    obtain rfl := Action.yields_ask_iff.1 hsearch
    exact .inr ⟨records, rfl, rfl⟩
  · exact .inl (Action.yields_pure_iff.1 h)

/-- Candidates are those found by vector, if the strategy wants any, and those found by keyword. -/
theorem candidates_cases (h : (candidates query terms filter limit strategy).Yields xs found) :
    ∃ ys zs near, xs = ys ++ zs ∧
      ((vectorCandidates query filter limit).Yields ys near ∨ (ys = [] ∧ near = [])) ∧
      (withKeywords terms filter limit strategy near).Yields zs found := by
  rw [candidates] at h
  split at h
  · obtain ⟨ys, zs, near, rfl, hnear, hfound⟩ := Action.yields_bind_iff.1 h
    exact ⟨ys, zs, near, rfl, .inl hnear, hfound⟩
  · obtain ⟨ys, zs, near, rfl, hnear, hfound⟩ := Action.yields_bind_iff.1 h
    exact ⟨ys, zs, near, rfl, .inr (Action.yields_pure_iff.1 hnear), hfound⟩

/-! ### Candidates -/

/-- **A vector candidate keeps to the filter.** -/
theorem offers_of_vectorCandidates (hc : ∀ x ∈ xs, c.Allows x)
    (h : (vectorCandidates query filter limit).Yields xs near)
    (hvectors : ∀ v, ⟨.embedding query, .ok (some v)⟩ ∈ xs → vectors v) :
    ∀ d ∈ near, c.Offers filter terms vectors d := by
  obtain ⟨reply, rfl, rfl⟩ | ⟨v, hits, rfl, rfl⟩ := vectorCandidates_cases h
  · exact List.forall_mem_nil _
  · obtain rfl : hits = c.vectorSearch v filter limit :=
      hc ⟨.vectorSearch v filter limit, .ok hits⟩ (by simp) _ _ rfl rfl
    intro d hd
    obtain ⟨⟨r, score⟩, hhit, rfl⟩ := List.mem_map.1 hd
    obtain ⟨s, hs, rfl, hadmits, e, he, rfl⟩ := Corpus.of_mem_vectorSearch hhit
    exact ⟨s, hs, rfl, hadmits, .inl ⟨rfl, v, e, hvectors v (by simp), he, rfl⟩⟩

/-- **A keyword candidate keeps to the filter.** -/
theorem offers_of_withKeywords (hc : ∀ x ∈ xs, c.Allows x)
    (h : (withKeywords terms filter limit strategy near).Yields xs found)
    (hnear : ∀ d ∈ near, c.Offers filter terms vectors d) :
    ∀ d ∈ found, c.Offers filter terms vectors d := by
  obtain ⟨rfl, rfl⟩ | ⟨records, rfl, rfl⟩ := withKeywords_cases h
  · exact hnear
  · obtain rfl : records = c.keywordSearch { filter with keywords := terms } limit :=
      hc ⟨.keywordSearch { filter with keywords := terms } limit, .ok records⟩ (by simp) _ _ rfl rfl
    intro d hd
    rcases List.mem_append.1 hd with hd | hd
    · exact hnear d hd
    · obtain ⟨r, hr, rfl⟩ := List.mem_map.1 hd
      obtain ⟨s, hs, rfl, hadmits, hholds⟩ :=
        Corpus.of_mem_keywordSearch (mem_of_mem_firstOfEach hr)
      exact ⟨s, hs, rfl, hadmits, .inr ⟨rfl, rfl, hholds⟩⟩

/-- **Every candidate keeps to the filter**, on whichever path it was found. -/
theorem offers_of_candidates (hc : ∀ x ∈ xs, c.Allows x)
    (h : (candidates query terms filter limit strategy).Yields xs found)
    (hvectors : ∀ v, ⟨.embedding query, .ok (some v)⟩ ∈ xs → vectors v) :
    ∀ d ∈ found, c.Offers filter terms vectors d := by
  obtain ⟨ys, zs, near, rfl, hnear, hfound⟩ := candidates_cases h
  refine offers_of_withKeywords (fun x hx => hc x (List.mem_append_right _ hx)) hfound ?_
  rcases hnear with hnear | ⟨-, rfl⟩
  · exact offers_of_vectorCandidates (fun x hx => hc x (List.mem_append_left _ hx)) hnear
      fun v hv => hvectors v (List.mem_append_left _ hv)
  · exact List.forall_mem_nil _

/-! ### Results -/

/-- A search finds candidates and returns the best of them, as they are ranked with their
judgment. -/
theorem yields_search_iff {ranker : Ranker} {params : SearchParams} :
    (search ranker query terms filter params).Yields xs docs ↔
      ∃ ys zs found order, xs = ys ++ zs ∧
        (candidates query terms filter (Count.wrap (max params.limit 1 * candidateFactor))
          params.strategy).Yields ys found ∧
        (ranker.judgment params.judged query found).Yields zs order ∧
        docs = (ranker.rankBy terms found order).take params.limit := by
  rw [search, Action.yields_bind_iff]
  refine exists_congr fun ys => exists_congr fun zs => exists_congr fun found => ?_
  rw [exists_and_left, exists_and_left]
  refine and_congr_right fun _ => and_congr_right fun _ => ?_
  cases params.judged with
  | true =>
      rw [if_pos rfl, Action.yields_bind_pure_iff, Ranker.judgment, if_pos rfl]
      constructor
      · rintro ⟨ranked, hranked, rfl⟩
        obtain ⟨order, horder, rfl⟩ := Ranker.yields_rankWithJudge_iff.1 hranked
        exact ⟨order, horder, rfl⟩
      · rintro ⟨order, horder, rfl⟩
        exact ⟨_, Ranker.yields_rankWithJudge_iff.2 ⟨order, horder, rfl⟩, rfl⟩
  | false =>
      rw [if_neg Bool.false_ne_true, Action.yields_bind_pure_iff, Ranker.judgment,
        if_neg Bool.false_ne_true]
      simp only [Action.yields_pure_iff, and_assoc, exists_and_left, exists_eq_left]
      rfl

/-- What a search promises of the documents that it returns. -/
structure Delivers (c : Corpus) (w : Weights Score) (filter : DocumentFilter)
    (terms : List String) (vectors : Embedding → Prop) (judged : Option (String → Score))
    (limit : ℕ) (docs : List Document) : Prop where
  offered : ∀ d ∈ docs, c.Offers filter terms vectors d
  length_le : docs.length ≤ limit
  keywordScore_eq : ∀ d ∈ docs, d.keywordScore = Coverage.score terms d.text
  rerankScore_eq : ∀ d ∈ docs, d.rerankScore =
    judged.elim (w.vector * d.similarity + w.keyword * d.keywordScore) fun relevance =>
      w.vector * d.similarity + w.keyword * d.keywordScore + w.judged * relevance d.id
  /-- The best come first, if their scores are numbers. -/
  ordered : (∀ d ∈ docs, d.rerankScore.isNaN = false) →
    docs.Pairwise fun a b => b.rerankScore ≤ a.rerankScore

/-- **The best of some candidates keep to the filter as these do**, and stand in the order of their
scores. -/
theorem delivers_rankBy (ranker : Ranker) (order : Option (List ℕ)) (limit : ℕ)
    (h : ∀ d ∈ found, c.Offers filter terms vectors d) :
    Delivers c ranker.weights filter terms vectors (order.map (Ranking.relevance found)) limit
      ((ranker.rankBy terms found order).take limit) := by
  have hmem : ∀ d ∈ (ranker.rankBy terms found order).take limit, ∃ e ∈ found,
      Ranking.rescore ranker.weights terms (order.map (Ranking.relevance found)) e = d :=
    fun d hd => Ranking.mem_scoreAndSort_iff.1 (List.mem_of_mem_take hd)
  refine ⟨fun d hd => ?_, List.length_take_le _ _, fun d hd => ?_, fun d hd => ?_,
    Ranking.pairwise_take_scoreAndSort⟩
  · obtain ⟨e, he, rfl⟩ := hmem d hd
    exact h e he
  · obtain ⟨e, -, rfl⟩ := hmem d hd
    rfl
  · obtain ⟨e, -, rfl⟩ := hmem d hd
    cases order <;> rfl

/-! ### A small archive -/

/-- Two documents on roads, one of them with an embedding. -/
def roadPapers : Corpus where
  documents := [
    ⟨⟨"R-1", [("subject", "道路養護")]⟩, some [1, 0]⟩,
    ⟨⟨"R-2", [("subject", "道路挖掘")]⟩, none⟩]

/-- A ranker that weighs what is near more than what is named. -/
def clerk : Ranker := ⟨⟨0.5, 0.3, 0.2⟩, 15⟩

end Retrieval

end Archivist
