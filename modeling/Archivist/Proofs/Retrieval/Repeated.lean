import Archivist.Proofs.Retrieval.Search

/-!
# Documents That Are Found Twice

A search puts the candidates of its two paths together by their identifiers. The documents that are
found by keyword are compared with all that is there already, so none of them brings an identifier
that has been seen. Those that are found by vector are taken as the store lists them, and if it
lists an identifier twice, so does the search.

## Main results

* `Retrieval.exists_ids_of_candidates`: the identifiers of the candidates are those that vector
  search has listed, and then others, each of them once.
* `Retrieval.nodup_search_iff`: a search repeats an identifier as often as vector search has listed
  it, and no oftener.
* `Retrieval.nodup_search_of_corpus`: a search of a corpus without repeated identifiers repeats
  none.
-/

namespace Archivist.Retrieval

variable {c : Corpus} {ranker : Ranker} {query : String} {terms : List String}
  {filter : DocumentFilter} {params : SearchParams} {limit : ℕ} {strategy : SearchStrategy}
  {near found docs : List Document} {xs ys : List (Answered Reply)} {order : Option (List ℕ)}

/-- The identifiers that an answer of a vector search lists. -/
def hitIds : Answered Reply → List String
  | ⟨.vectorSearch .., .ok hits⟩ => hits.map (·.1.id)
  | _ => []

/-- The identifiers that vector searches have listed, in order. -/
def nearIds (xs : List (Answered Reply)) : List String := xs.flatMap hitIds

theorem nearIds_append (xs ys : List (Answered Reply)) :
    nearIds (xs ++ ys) = nearIds xs ++ nearIds ys := List.flatMap_append

/-! ### Identifiers of candidates -/

/-- Vector candidates have the identifiers that the store lists, repetitions included. -/
theorem ids_vectorCandidates (h : (vectorCandidates query filter limit).Yields xs near) :
    near.map (·.id) = nearIds xs := by
  obtain ⟨reply, rfl, rfl⟩ | ⟨v, hits, rfl, rfl⟩ := vectorCandidates_cases h
  · rfl
  · rw [List.map_map]
    exact (List.append_nil _).symm

/-- The identifiers of newcomers are new, and each is there once. -/
theorem ids_newcomers (near : List Document) (records : List Record) :
    ((newcomers near records).map (·.id)).Nodup ∧
      ∀ id ∈ (newcomers near records).map (·.id), id ∉ near.map (·.id) := by
  have hids : (newcomers near records).map (·.id) =
      (firstOfEach Record.id (near.map (·.id)) records).map Record.id := by
    rw [newcomers, List.map_map]
    rfl
  rw [hids]
  refine ⟨nodup_map_firstOfEach _ _ _, fun id hid => ?_⟩
  obtain ⟨r, hr, rfl⟩ := List.mem_map.1 hid
  exact key_notMem_of_mem_firstOfEach hr

/-- The keyword path adds new identifiers to those that are there, each of them once. -/
theorem exists_ids_of_withKeywords
    (h : (withKeywords terms filter limit strategy near).Yields xs found) :
    nearIds xs = [] ∧ ∃ fresh : List String, found.map (·.id) = near.map (·.id) ++ fresh ∧
      fresh.Nodup ∧ ∀ id ∈ fresh, id ∉ near.map (·.id) := by
  obtain ⟨rfl, rfl⟩ | ⟨records, rfl, rfl⟩ := withKeywords_cases h
  · exact ⟨rfl, [], (List.append_nil _).symm, List.nodup_nil, List.forall_mem_nil _⟩
  · exact ⟨rfl, _, List.map_append, ids_newcomers near records⟩

/-- **The identifiers of candidates** are those that vector search has listed, and then others, each
of them once. -/
theorem exists_ids_of_candidates
    (h : (candidates query terms filter limit strategy).Yields xs found) :
    ∃ fresh : List String, found.map (·.id) = nearIds xs ++ fresh ∧ fresh.Nodup ∧
      ∀ id ∈ fresh, id ∉ nearIds xs := by
  obtain ⟨ys, zs, near, rfl, hnear, hfound⟩ := candidates_cases h
  obtain ⟨hnone, hfresh⟩ := exists_ids_of_withKeywords hfound
  have hids : near.map (·.id) = nearIds ys := by
    rcases hnear with hnear | ⟨rfl, rfl⟩
    · exact ids_vectorCandidates hnear
    · rfl
  rwa [nearIds_append, hnone, List.append_nil, ← hids]

/-- What is counted of a list behind which others stand, each of them once. -/
theorem count_append_fresh_le {listed fresh : List String} (hfresh : fresh.Nodup)
    (hnew : ∀ id ∈ fresh, id ∉ listed) (id : String) :
    (listed ++ fresh).count id ≤ max 1 (listed.count id) := by
  rw [List.count_append]
  by_cases hid : id ∈ fresh
  · have hlisted : listed.count id = 0 := List.count_eq_zero.2 (hnew id hid)
    have hone : fresh.count id ≤ 1 := List.nodup_iff_count.1 hfresh id
    omega
  · have hnone : fresh.count id = 0 := List.count_eq_zero.2 hid
    omega

/-! ### Identifiers of results -/

/-- A judge is not asked for documents. -/
theorem nearIds_judgment {wanted : Bool}
    (h : (ranker.judgment wanted query found).Yields xs order) : nearIds xs = [] := by
  rw [Ranker.judgment] at h
  split at h
  · rw [Ranker.judge] at h
    split at h
    · obtain ⟨rfl, -⟩ := Action.yields_pure_iff.1 h
      rfl
    · obtain ⟨ys, zs, reply, rfl, hcomplete, horder⟩ := Action.yields_bind_iff.1 h
      obtain rfl := Action.yields_attempt_iff.1 hcomplete
      cases reply with
      | error e =>
          obtain ⟨rfl, -⟩ := Action.yields_pure_iff.1 horder
          rfl
      | ok output =>
          obtain ⟨rfl, -⟩ := Action.yields_pure_iff.1 horder
          rfl
  · obtain ⟨rfl, -⟩ := Action.yields_pure_iff.1 h
    rfl

/-- The identifiers of results are the best of those that vector search has listed and of others,
each of them once. -/
theorem exists_ids_of_search (h : (search ranker query terms filter params).Yields xs docs) :
    ∃ fresh ids : List String, docs.map (·.id) = ids.take params.limit ∧
      ids.Perm (nearIds xs ++ fresh) ∧ fresh.Nodup ∧ ∀ id ∈ fresh, id ∉ nearIds xs := by
  obtain ⟨ys, zs, found, order, rfl, hfound, horder, rfl⟩ := yields_search_iff.1 h
  obtain ⟨fresh, hids, hfresh, hnew⟩ := exists_ids_of_candidates hfound
  rw [nearIds_append, nearIds_judgment horder, List.append_nil]
  exact ⟨fresh, (ranker.rankBy terms found order).map (·.id), List.map_take,
    hids ▸ Ranking.ids_scoreAndSort_perm _ _ _ _, hfresh, hnew⟩

/-- An identifier is there once, or as often as vector search has listed it at most. -/
theorem count_search_le (h : (search ranker query terms filter params).Yields xs docs)
    (id : String) : (docs.map (·.id)).count id ≤ max 1 ((nearIds xs).count id) := by
  obtain ⟨fresh, ids, hdocs, hperm, hfresh, hnew⟩ := exists_ids_of_search h
  calc (docs.map (·.id)).count id = (ids.take params.limit).count id := by rw [hdocs]
    _ ≤ ids.count id := (List.take_sublist _ _).count_le _
    _ = (nearIds xs ++ fresh).count id := hperm.count_eq id
    _ ≤ max 1 ((nearIds xs).count id) := count_append_fresh_le hfresh hnew id

/-- Nothing is repeated if the candidates by embedding repeat nothing. -/
theorem nodup_of_nodup_nearIds (h : (search ranker query terms filter params).Yields xs docs)
    (hnear : (nearIds xs).Nodup) : (docs.map (·.id)).Nodup := by
  rw [List.nodup_iff_count] at hnear ⊢
  intro id
  exact (count_search_le h id).trans (max_le le_rfl (hnear id))

/-- **A search repeats what vector search repeats.** An identifier is there once, or as often as
vector search has listed it at most; so none is repeated if vector search has repeated none. If
nothing has been cut off, the reverse holds as well. -/
theorem nodup_search_iff (h : (search ranker query terms filter params).Yields xs docs) :
    (∀ id, (docs.map (·.id)).count id ≤ max 1 ((nearIds xs).count id)) ∧
      ((nearIds xs).Nodup → (docs.map (·.id)).Nodup) ∧
      (docs.length < params.limit → (docs.map (·.id)).Nodup → (nearIds xs).Nodup) := by
  refine ⟨count_search_le h, nodup_of_nodup_nearIds h, fun huncut hnodup => ?_⟩
  obtain ⟨fresh, ids, hdocs, hperm, -, -⟩ := exists_ids_of_search h
  have hlength : (ids.take params.limit).length < params.limit := by
    rwa [← hdocs, List.length_map]
  rw [List.length_take] at hlength
  rw [hdocs, List.take_of_length_le (by omega)] at hnodup
  exact (List.nodup_append.1 (hperm.nodup_iff.1 hnodup)).1

/-- A document that is found on both paths is there once. -/
theorem nodup_search_road : ∃ xs docs,
    (search clerk "道路" ["道路"] {} ⟨10, .hybrid, false⟩).Yields xs docs ∧ nearIds xs = ["R-1"] ∧
      docs.map (·.id) = ["R-1", "R-2"] ∧ (docs.map (·.id)).Nodup := by
  obtain ⟨docs, hsearch, hids⟩ : ∃ docs,
      (search clerk "道路" ["道路"] {} ⟨10, .hybrid, false⟩).Yields
        [⟨.embedding "道路", .ok (some [1, 0])⟩,
          ⟨.vectorSearch [1, 0] {} 30, .ok (roadPapers.vectorSearch [1, 0] {} 30)⟩,
          ⟨.keywordSearch { keywords := ["道路"] } 30,
            .ok (roadPapers.keywordSearch { keywords := ["道路"] } 30)⟩] docs ∧
        docs.map (·.id) = ["R-1", "R-2"] :=
    ⟨_, .ask _ _ _ (.ask _ _ _ (.ask _ _ _ (.refl _))), by decide +kernel⟩
  exact ⟨_, docs, hsearch, rfl, hids, (nodup_search_iff hsearch).2.1 (by decide +kernel)⟩

/-- A corpus in which a document has been filed twice. -/
def filedTwice : Corpus where
  documents := [
    ⟨⟨"A", [("subject", "道路養護")]⟩, some [1, 0]⟩,
    ⟨⟨"A", [("subject", "道路養護")]⟩, some [1, 0]⟩]

/-- A document that has been filed twice is found twice. -/
theorem found_twice : ∃ xs docs, (∀ x ∈ xs, filedTwice.Allows x) ∧
    (search clerk "道路" ["道路"] {} ⟨10, .hybrid, false⟩).Yields xs docs ∧
      docs.map (·.id) = ["A", "A"] := by
  obtain ⟨docs, hsearch, hids⟩ : ∃ docs,
      (search clerk "道路" ["道路"] {} ⟨10, .hybrid, false⟩).Yields
        [⟨.embedding "道路", .ok (some [1, 0])⟩,
          ⟨.vectorSearch [1, 0] {} 30, .ok (filedTwice.vectorSearch [1, 0] {} 30)⟩,
          ⟨.keywordSearch { keywords := ["道路"] } 30,
            .ok (filedTwice.keywordSearch { keywords := ["道路"] } 30)⟩] docs ∧
        docs.map (·.id) = ["A", "A"] :=
    ⟨_, .ask _ _ _ (.ask _ _ _ (.ask _ _ _ (.refl _))), by decide +kernel⟩
  refine ⟨_, docs, List.forall_mem_cons.2 ⟨?_, List.forall_mem_cons.2 ⟨?_,
    List.forall_mem_singleton.2 ?_⟩⟩, hsearch, hids⟩
  · exact Corpus.allows_of_none rfl
  · exact Corpus.allows_ok rfl
  · exact Corpus.allows_ok rfl

/-! ### Corpora without repeated identifiers -/

/-- Candidates by embedding repeat nothing if the corpus does not. -/
theorem nodup_ids_vectorCandidates (hc : ∀ x ∈ xs, c.Allows x)
    (hids : (c.documents.map (·.record.id)).Nodup)
    (h : (vectorCandidates query filter limit).Yields xs near) : (near.map (·.id)).Nodup := by
  obtain ⟨reply, rfl, rfl⟩ | ⟨v, hits, rfl, rfl⟩ := vectorCandidates_cases h
  · exact List.nodup_nil
  · obtain rfl : hits = c.vectorSearch v filter limit :=
      hc ⟨.vectorSearch v filter limit, .ok hits⟩ (by simp) _ _ rfl rfl
    rw [List.map_map]
    exact (Corpus.nodup_ids_ranked hids v filter).sublist ((List.take_sublist _ _).map _)

/-- Vector searches of a corpus without repeated identifiers repeat none. -/
theorem nodup_nearIds (hc : ∀ x ∈ xs, c.Allows x) (hids : (c.documents.map (·.record.id)).Nodup)
    (h : (search ranker query terms filter params).Yields xs docs) : (nearIds xs).Nodup := by
  obtain ⟨ys, zs, found, order, rfl, hfound, horder, -⟩ := yields_search_iff.1 h
  obtain ⟨ys, zs', near, rfl, hnear, hfound⟩ := candidates_cases hfound
  rw [nearIds_append, nearIds_judgment horder, List.append_nil, nearIds_append,
    (exists_ids_of_withKeywords hfound).1, List.append_nil]
  rcases hnear with hnear | ⟨rfl, rfl⟩
  · have hc' : ∀ x ∈ ys, c.Allows x := fun x hx =>
      hc x (List.mem_append_left _ (List.mem_append_left _ hx))
    exact ids_vectorCandidates hnear ▸ nodup_ids_vectorCandidates hc' hids hnear
  · exact List.nodup_nil

/-- **A search of a corpus without repeated identifiers repeats none**, whatever the embedding of
the query and the judgment are. -/
theorem nodup_search_of_corpus (hc : ∀ x ∈ xs, c.Allows x)
    (hids : (c.documents.map (·.record.id)).Nodup)
    (h : (search ranker query terms filter params).Yields xs docs) : (docs.map (·.id)).Nodup :=
  nodup_of_nodup_nearIds h (nodup_nearIds hc hids h)

end Archivist.Retrieval
