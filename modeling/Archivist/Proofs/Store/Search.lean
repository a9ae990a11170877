import Archivist.Proofs.Order.Stable
import Archivist.Store.Answer

/-!
# What a Search of the Corpus Finds

Keyword search finds documents that pass its filter and hold one of its keywords, vector search
finds documents that pass its filter with their similarity to the vector. That the store has other
limits and orders for the two does not matter here: neither makes up a document, and where its limit
allows, keyword search finds all there are (`Corpus.mem_keywordSearch_iff`). Nor does vector search
list a document oftener than it is in the corpus (`Corpus.nodup_ids_ranked`).
-/

namespace Archivist

variable {c : Corpus} {filter : DocumentFilter} {limit : ℕ} {r : Record}

namespace DateRange

variable {range : DateRange} {d : Date}

/-- A range contains the days between its ends. -/
theorem contains_iff : range.contains d = true ↔
    (∀ first, range.first = some first → first.dayNumber ≤ d.dayNumber) ∧
      ∀ last, range.last = some last → d.dayNumber ≤ last.dayNumber := by
  have hfirst : range.first.all (decide <| · ≤ d) = true ↔
      ∀ first, range.first = some first → first.dayNumber ≤ d.dayNumber := by
    rw [Option.all_eq_true]
    exact forall₂_congr fun first _ => decide_eq_true_iff
  have hlast : range.last.all (decide <| d ≤ ·) = true ↔
      ∀ last, range.last = some last → d.dayNumber ≤ last.dayNumber := by
    rw [Option.all_eq_true]
    exact forall₂_congr fun last _ => decide_eq_true_iff
  rw [contains, Bool.and_eq_true, hfirst, hlast]

/-- A range without ends admits every record; any other those with a date in it. -/
theorem admits_iff : range.admits r = true ↔
    range.isBounded = false ∨ ∃ d, r.date? = some d ∧ range.contains d = true := by
  rw [admits, Bool.or_eq_true, Bool.not_eq_true', Option.any_eq_true]

end DateRange

/-- The term occurs in the text of the record, regardless of case; a blank one does not count. -/
def Record.Holds (r : Record) (term : String) : Prop :=
  Text.blank term = false ∧ Text.occurs (Text.lower term.toList) (Text.lower r.text.toList) = true

/-- A record is hit if it holds one of the keywords. -/
theorem Record.keywordHits_pos_iff {keywords : List String} :
    0 < r.keywordHits keywords ↔ ∃ k ∈ keywords, r.Holds k := by
  rw [keywordHits, List.countP_pos_iff]
  simp only [Holds, Bool.and_eq_true, Bool.not_eq_true']

/-- Keys that some elements of a list have are among the keys of all elements. -/
theorem filterMap_sublist_map {α κ : Type} {f : α → Option κ} {key : α → κ}
    (h : ∀ x k, f x = some k → k = key x) (xs : List α) :
    (xs.filterMap f).Sublist (xs.map key) := by
  induction xs with
  | nil => exact .slnil
  | cons x xs ih =>
      rw [List.filterMap_cons, List.map_cons]
      cases hx : f x with
      | none => exact ih.cons _
      | some k =>
          obtain rfl := h x k hx
          exact ih.cons_cons _

/-- Whether keyword search finds a record, if its limit allows. -/
def DocumentFilter.finds (filter : DocumentFilter) (r : Record) : Bool :=
  filter.admits r && (filter.keywords.isEmpty || decide (0 < r.keywordHits filter.keywords))

/-- What a filter finds passes it and holds a keyword, if any are given. -/
theorem DocumentFilter.finds_iff : filter.finds r = true ↔
    filter.admits r = true ∧ (filter.keywords ≠ [] → ∃ k ∈ filter.keywords, r.Holds k) := by
  rw [finds, Bool.and_eq_true, Bool.or_eq_true, List.isEmpty_iff, decide_eq_true_eq,
    Record.keywordHits_pos_iff, or_iff_not_imp_left]

namespace Corpus

/-! ### Keyword search -/

/-- The records that keyword search finds, best first, with the number of keywords in each. -/
def hits (c : Corpus) (filter : DocumentFilter) : List (ℕ × Record) :=
  stableSort betterHit <| ((c.documents.map (·.record)).filter filter.finds).map fun r =>
    (r.keywordHits filter.keywords, r)

/-- A keyword search gives the best hits. -/
theorem keywordSearch_eq (c : Corpus) (filter : DocumentFilter) (limit : ℕ) :
    c.keywordSearch filter limit = ((c.hits filter).take limit).map (·.2) := by
  have hfinds : ((((c.documents.map (·.record)).filter filter.admits).map fun r =>
      (r.keywordHits filter.keywords, r)).filter fun hit =>
        filter.keywords.isEmpty || decide (0 < hit.1)) =
      ((c.documents.map (·.record)).filter filter.finds).map fun r =>
        (r.keywordHits filter.keywords, r) := by
    rw [List.filter_map, List.filter_filter]
    congr 2
    funext r
    exact Bool.and_comm _ _
  rw [hits, ← hfinds]
  rfl

/-- There is a hit for each record that is found. -/
theorem length_hits (c : Corpus) (filter : DocumentFilter) :
    (c.hits filter).length = c.documents.countP fun s => filter.finds s.record := by
  rw [hits, (stableSort_perm _ _).length_eq, List.length_map, ← List.countP_eq_length_filter,
    List.countP_map]
  rfl

/-- The hits are the records that are found. -/
theorem mem_map_hits_iff : r ∈ (c.hits filter).map (·.2) ↔
    r ∈ c.documents.map (·.record) ∧ filter.finds r = true := by
  rw [List.mem_map, ← List.mem_filter]
  constructor
  · rintro ⟨hit, hhit, rfl⟩
    obtain ⟨r, hr, rfl⟩ := List.mem_map.1 (mem_stableSort.1 hhit)
    exact hr
  · intro hr
    exact ⟨_, mem_stableSort.2 (List.mem_map.2 ⟨r, hr, rfl⟩), rfl⟩

/-- **Keyword search finds all that it is to find** if its limit allows. -/
theorem mem_keywordSearch_iff
    (hlimit : (c.documents.countP fun s => filter.finds s.record) ≤ limit) :
    r ∈ c.keywordSearch filter limit ↔
      r ∈ c.documents.map (·.record) ∧ filter.finds r = true := by
  rw [← length_hits] at hlimit
  rw [keywordSearch_eq, List.take_of_length_le hlimit, mem_map_hits_iff]

/-- What a keyword search gives is in the corpus and is to be found. -/
theorem of_mem_keywordSearch (h : r ∈ c.keywordSearch filter limit) :
    ∃ s ∈ c.documents, s.record = r ∧ filter.admits r = true ∧
      (filter.keywords ≠ [] → ∃ k ∈ filter.keywords, r.Holds k) := by
  rw [keywordSearch_eq] at h
  obtain ⟨hr, hfinds⟩ := mem_map_hits_iff.1 (((List.take_sublist _ _).map _).subset h)
  obtain ⟨s, hs, rfl⟩ := List.mem_map.1 hr
  exact ⟨s, hs, rfl, DocumentFilter.finds_iff.1 hfinds⟩

/-! ### Vector search -/

/-- What a search by embedding gives is in the corpus, and has a similarity. -/
theorem of_mem_vectorSearch {vector : Embedding} {score : Score}
    (h : (r, score) ∈ c.vectorSearch vector filter limit) :
    ∃ s ∈ c.documents, s.record = r ∧ filter.admits r = true ∧
      ∃ v, s.embedding = some v ∧ score = similarity vector v := by
  obtain ⟨s, hs, hscored⟩ := List.mem_filterMap.1 (mem_stableSort.1 (List.mem_of_mem_take h))
  obtain ⟨hs, hadmits⟩ := List.mem_filter.1 hs
  obtain ⟨v, hv, heq⟩ := Option.map_eq_some_iff.1 hscored
  obtain ⟨rfl, rfl⟩ := Prod.mk.inj heq
  exact ⟨s, hs, rfl, hadmits, v, hv, rfl⟩

/-- The documents that pass a filter with their similarity to a vector, in the order of the
corpus. -/
def scored (c : Corpus) (vector : Embedding) (filter : DocumentFilter) : List (Record × Score) :=
  (c.documents.filter (filter.admits ·.record)).filterMap fun d =>
    d.embedding.map fun v => (d.record, similarity vector v)

/-- The documents that pass a filter with their similarity to a vector, most similar first. -/
def ranked (c : Corpus) (vector : Embedding) (filter : DocumentFilter) : List (Record × Score) :=
  stableSort (fun a b => decide (b.2 < a.2)) (c.scored vector filter)

/-- A search by embedding gives the most similar documents. -/
theorem vectorSearch_eq (c : Corpus) (vector : Embedding) (filter : DocumentFilter) (limit : ℕ) :
    c.vectorSearch vector filter limit = (c.ranked vector filter).take limit := rfl

/-- A document is scored at most once for each time that it is in the corpus. -/
theorem ids_scored_sublist (c : Corpus) (vector : Embedding) (filter : DocumentFilter) :
    ((c.scored vector filter).map (·.1.id)).Sublist (c.documents.map (·.record.id)) := by
  have hids : ((c.documents.filter (filter.admits ·.record)).filterMap fun d =>
      (d.embedding.map fun v => (d.record, similarity vector v)).map (·.1.id)).Sublist
        ((c.documents.filter (filter.admits ·.record)).map (·.record.id)) := by
    refine filterMap_sublist_map (fun d id h => ?_) _
    obtain ⟨⟨r, score⟩, hscored, rfl⟩ := Option.map_eq_some_iff.1 h
    obtain ⟨v, -, heq⟩ := Option.map_eq_some_iff.1 hscored
    exact congrArg (·.1.id) heq.symm
  rw [scored, List.map_filterMap]
  exact hids.trans (List.filter_sublist.map _)

/-- **In a corpus without repeated identifiers, none is ranked twice.** -/
theorem nodup_ids_ranked (h : (c.documents.map (·.record.id)).Nodup) (vector : Embedding)
    (filter : DocumentFilter) : ((c.ranked vector filter).map (·.1.id)).Nodup :=
  ((stableSort_perm _ _).map _).nodup_iff.2 (h.sublist (c.ids_scored_sublist vector filter))

end Corpus

end Archivist
