import Archivist.Proofs.Retrieval.Search
import Archivist.Proofs.Tool.Search
import Mathlib.Data.List.Nodup

/-!
# Searches for Similar Documents

The tool looks a document up by its identifier, embeds its text and returns the documents nearest to
the embedding, but not the document itself (`Toolbox.findSimilar_nearest`). Of a text that is given
with the call, it returns the nearest documents of all (`Toolbox.findSimilar_text`).

In both cases the limit of a call leaves room for a spare place.
-/

/-! ### Nearest documents

The documents similar to a text are found by a vector search, which is cut off, and of what it lists
one document may be left out afterwards. The search asks for one document more than are wanted, so
that nothing is missing if the excluded one is among the nearest; if it is not, the last one is cut
off again. That is exact if the corpus has no identifier twice: then the spare place is enough
(`take_filter_take`), and leaving a document out after sorting is the same as never having had it.

Main results:

* `Corpus.stablyOrdered_nearby_iff`: what it is to be ordered by similarity, ties as in the corpus.
* `Corpus.map_near_filter_ranked`: what vector search ranks, without what is left out, is in this
  order.
* `Retrieval.similar_nearest`: the first of these are what a search for a similar text returns.
-/

namespace Archivist

/-- **As many spare places as elements to be left out are enough** to have the first `n` of those
that stay. -/
theorem take_filter_take {α : Type} {p : α → Bool} {xs : List α} {spare : ℕ}
    (h : xs.countP (fun x => !p x) ≤ spare) (n : ℕ) :
    ((xs.take (n + spare)).filter p).take n = (xs.filter p).take n := by
  induction xs generalizing n spare with
  | nil => rw [List.take_nil]
  | cons x xs ih =>
      cases hx : p x with
      | true =>
          rw [List.countP_cons_of_neg (by simp [hx])] at h
          cases n with
          | zero => rw [List.take_zero, List.take_zero]
          | succ n =>
              rw [Nat.succ_add, List.take_succ_cons, List.filter_cons_of_pos hx,
                List.filter_cons_of_pos hx, List.take_succ_cons, List.take_succ_cons, ih h]
      | false =>
          rw [List.countP_cons_of_pos (by simp [hx])] at h
          obtain ⟨spare, rfl⟩ : ∃ k, spare = k + 1 := ⟨spare - 1, by omega⟩
          rw [← Nat.add_assoc, List.take_succ_cons, List.filter_cons_of_neg (by simp [hx]),
            List.filter_cons_of_neg (by simp [hx]), ih (by omega)]

/-- A document with its similarity, which is what it is ranked by. -/
def Document.near (r : Record) (score : Score) : Document :=
  { Document.ofRecord r .vector score with rerankScore := score }

/-- The first is at least as similar as the second. -/
def Document.Nearer (d e : Document) : Prop := e.similarity ≤ d.similarity

namespace Corpus

variable {c : Corpus} {v : Embedding} {filter : DocumentFilter} {s : StoredDocument}
  {eligible : Record → Bool} {d : Document} {docs : List Document}

/-- The eligible documents that have an embedding, with their similarity to a vector, in the order
of the corpus. -/
def nearby (c : Corpus) (v : Embedding) (eligible : Record → Bool) : List Document :=
  (c.documents.filter (eligible ·.record)).filterMap fun s =>
    s.embedding.map fun e => .near s.record (similarity v e)

/-- The eligible documents that have an embedding, most similar first. -/
def nearest (c : Corpus) (v : Embedding) (eligible : Record → Bool) : List Document :=
  stableSort (fun d e => decide (e.similarity < d.similarity)) (c.nearby v eligible)

/-- Every similarity to the vector is a number. -/
def Comparable (c : Corpus) (v : Embedding) : Prop :=
  ∀ s ∈ c.documents, ∀ e, s.embedding = some e → (similarity v e).isNaN = false

/-- The documents near a vector are those that have an embedding and are eligible. -/
theorem mem_nearby_iff : d ∈ c.nearby v eligible ↔
    ∃ s ∈ c.documents, eligible s.record = true ∧
      ∃ e, s.embedding = some e ∧ d = .near s.record (similarity v e) := by
  simp only [nearby, List.mem_filterMap, List.mem_filter, Option.map_eq_some_iff, and_assoc,
    @eq_comm _ d]

/-- The nearest are the same documents in another order. -/
theorem mem_nearest_iff : d ∈ c.nearest v eligible ↔ d ∈ c.nearby v eligible := mem_stableSort

/-- **Stable order by similarity** is that of the nearest documents, and no other. -/
theorem stablyOrdered_nearby_iff (hv : c.Comparable v) :
    StablyOrdered Document.Nearer (c.nearby v eligible) docs ↔ docs = c.nearest v eligible := by
  refine (Score.decides Scored.similarity).stablyOrdered_iff fun d hd => ?_
  obtain ⟨s, hs, -, e, he, rfl⟩ := mem_nearby_iff.1 hd
  exact hv s hs e he

/-! ### What vector search ranks -/

/-- What vector search has scored and is not left out. -/
theorem map_near_filter_scored (c : Corpus) (v : Embedding) (filter : DocumentFilter)
    (p : Record → Bool) :
    ((c.scored v filter).filter (p ·.1)).map (fun hit => Document.near hit.1 hit.2) =
      c.nearby v fun r => filter.admits r && p r := by
  rw [scored, nearby]
  induction c.documents with
  | nil => rfl
  | cons s rest ih =>
      cases hadmits : filter.admits s.record <;> cases hp : p s.record <;>
        cases he : s.embedding <;> simp [hadmits, hp, he, ih]

/-- Documents are ranked stably by their similarity. -/
theorem stablyOrdered_ranked (hv : c.Comparable v) (filter : DocumentFilter) :
    StablyOrdered (fun a b => b.2 ≤ a.2) (c.scored v filter) (c.ranked v filter) := by
  refine (Score.decides Prod.snd).stablyOrdered_stableSort fun hit hhit => ?_
  obtain ⟨s, hs, hscored⟩ := List.mem_filterMap.1 hhit
  obtain ⟨e, he, rfl⟩ := Option.map_eq_some_iff.1 hscored
  exact hv s (List.mem_filter.1 hs).1 e he

/-- **Leaving documents out after sorting** is the same as never having had them. -/
theorem map_near_filter_ranked (hv : c.Comparable v) (filter : DocumentFilter) (p : Record → Bool) :
    ((c.ranked v filter).filter (p ·.1)).map (fun hit => Document.near hit.1 hit.2) =
      c.nearest v fun r => filter.admits r && p r := by
  rw [← stablyOrdered_nearby_iff hv, ← map_near_filter_scored]
  exact ((stablyOrdered_ranked hv filter).filter _).map

/-- One spare place is enough to leave out the document with an identifier. -/
theorem countP_excluded_le (hids : (c.documents.map (·.record.id)).Nodup) (v : Embedding)
    (filter : DocumentFilter) (exclude : Option String) :
    (c.ranked v filter).countP (fun hit => !decide (exclude ≠ some hit.1.id)) ≤ 1 := by
  cases exclude with
  | none => simp
  | some id =>
      have hcount := List.nodup_iff_count.1 (nodup_ids_ranked hids v filter) id
      rw [List.count, List.countP_map] at hcount
      refine le_of_eq_of_le (List.countP_congr fun hit _ => ?_) hcount
      rw [Bool.not_eq_true', decide_eq_false_iff_not, not_not, Option.some.injEq]
      exact eq_comm.trans beq_iff_eq.symm

/-- **What is left of a vector search with one spare place** are the nearest documents. -/
theorem take_filter_vectorSearch (hids : (c.documents.map (·.record.id)).Nodup)
    (hv : c.Comparable v) (filter : DocumentFilter) (exclude : Option String) (limit : ℕ) :
    (((c.vectorSearch v filter (limit + 1)).filter fun hit => exclude ≠ some hit.1.id).take
        limit).map (fun hit => Document.near hit.1 hit.2) =
      (c.nearest v fun r => filter.admits r && decide (exclude ≠ some r.id)).take limit := by
  rw [vectorSearch_eq, take_filter_take (c.countP_excluded_le hids v filter exclude), List.map_take,
    map_near_filter_ranked hv filter fun r => decide (exclude ≠ some r.id)]

/-- A document is found by its identifier if no other has the same. -/
theorem document?_of_mem (hids : (c.documents.map (·.record.id)).Nodup) (hs : s ∈ c.documents) :
    c.document? s.record.id = some s.record := by
  have hfound : (c.documents.find? (·.record.id = s.record.id)).isSome :=
    List.find?_isSome.2 ⟨s, hs, decide_eq_true rfl⟩
  obtain ⟨s', hs'⟩ := Option.isSome_iff_exists.1 hfound
  have hid : s'.record.id = s.record.id := by
    have hpasses := List.find?_some hs'
    exact of_decide_eq_true hpasses
  obtain rfl := List.inj_on_of_nodup_map hids (List.mem_of_find?_eq_some hs') hs hid
  rw [document?, hs', Option.map_some]

end Corpus

namespace Retrieval

variable {c : Corpus} {v : Embedding}

/-- **A search for a similar text** returns the nearest documents that pass its filter, without the
one that is excluded. -/
theorem similar_nearest (hids : (c.documents.map (·.record.id)).Nodup) (hv : c.Comparable v)
    (text : String) (filter : DocumentFilter) {limit : ℕ} (hlimit : limit + 1 < Count.size 64)
    (exclude : Option String) :
    (similar text filter limit exclude).Yields
      [⟨.embedding text, .ok (some v)⟩,
        ⟨.vectorSearch v filter (limit + 1), .ok (c.vectorSearch v filter (limit + 1))⟩]
      ((c.nearest v fun r => filter.admits r && decide (exclude ≠ some r.id)).take limit) := by
  rw [← Corpus.take_filter_vectorSearch hids hv, similar]
  refine Action.yields_bind_iff.2 ⟨_, _, some v, List.singleton_append.symm,
    Action.yields_ask_iff.2 rfl, ?_⟩
  rw [Count.wrap_of_lt hlimit]
  exact Action.yields_bind_pure_iff.2 ⟨_, Action.yields_ask_iff.2 rfl, rfl⟩

end Retrieval

/-- A filter without conditions lets every record pass. -/
theorem DocumentFilter.admits_empty (r : Record) : ({} : DocumentFilter).admits r = true := rfl

namespace Toolbox

variable {t : Toolbox} {args : SimilarArgs} {c : Corpus} {v : Embedding}

/-- One more than the limit of a search is still a count. -/
theorem limit_succ_lt (t : Toolbox) (requested : Option ℕ) :
    t.limit requested + 1 < Count.size 64 := by
  have hlimit : t.limit requested ≤ 50 := (t.limit_mem requested).2
  have hsize : 51 < Count.size 64 := by decide
  omega

/-- What is found near a text that is given with the call. -/
theorem findSimilar_text (hids : (c.documents.map (·.record.id)).Nodup) (hv : c.Comparable v)
    (hnone : args.documentId = none) {text : String} (htext : args.text = some text) :
    (t.findSimilar args).Yields
      [⟨.embedding text, .ok (some v)⟩,
        ⟨.vectorSearch v {} (t.limit args.limit + 1),
          .ok (c.vectorSearch v {} (t.limit args.limit + 1))⟩]
      (.documents ((c.nearest v fun _ => true).take (t.limit args.limit))) := by
  have hsimilar := Retrieval.similar_nearest hids hv text {} (t.limit_succ_lt args.limit) none
  rw [findSimilar, hnone, htext]
  exact Action.yields_bind_pure_iff.2 ⟨_, hsimilar, rfl⟩

/-- **What is found near a document**: the first documents, as many as the call asks for, of all
that have an embedding and are not that document, in stable order of their similarity to the
embedding of its text, which is also the score that they are ranked by. -/
theorem findSimilar_nearest (hids : (c.documents.map (·.record.id)).Nodup) (hv : c.Comparable v)
    {s : StoredDocument} (hs : s ∈ c.documents) (hargs : args.documentId = some s.record.id) :
    (t.findSimilar args).Yields
        [⟨.document s.record.id, .ok (c.document? s.record.id)⟩,
          ⟨.embedding s.record.text, .ok (some v)⟩,
          ⟨.vectorSearch v {} (t.limit args.limit + 1),
            .ok (c.vectorSearch v {} (t.limit args.limit + 1))⟩]
        (.documents ((c.nearest v (·.id ≠ s.record.id)).take (t.limit args.limit))) ∧
      (∀ docs, StablyOrdered Document.Nearer (c.nearby v (·.id ≠ s.record.id)) docs ↔
        docs = c.nearest v (·.id ≠ s.record.id)) ∧
      ∀ d ∈ c.nearest v (·.id ≠ s.record.id),
        d.id ≠ s.record.id ∧ d.rerankScore = d.similarity := by
  have heligible : (fun r : Record => ({} : DocumentFilter).admits r &&
      decide (some s.record.id ≠ some r.id)) = fun r => decide (r.id ≠ s.record.id) := by
    funext r
    rw [DocumentFilter.admits_empty, Bool.true_and, decide_eq_decide, ne_eq, Option.some.injEq]
    exact not_congr eq_comm
  have hsimilar := Retrieval.similar_nearest hids hv s.record.text {}
    (t.limit_succ_lt args.limit) (some s.record.id)
  rw [heligible] at hsimilar
  refine ⟨?_, fun docs => Corpus.stablyOrdered_nearby_iff hv, fun d hd => ?_⟩
  · rw [findSimilar, hargs, c.document?_of_mem hids hs]
    refine Action.yields_bind_iff.2 ⟨_, _, some s.record, List.singleton_append.symm,
      Action.yields_ask_iff.2 rfl, ?_⟩
    exact Action.yields_bind_pure_iff.2 ⟨_, hsimilar, rfl⟩
  · obtain ⟨s', -, hid, e, -, rfl⟩ := Corpus.mem_nearby_iff.1 (Corpus.mem_nearest_iff.1 hd)
    exact ⟨of_decide_eq_true hid, rfl⟩

/-- A corpus in which two documents are equally near to what a third one says, which has been filed
with another embedding. -/
def bridgeShelf : Corpus where
  documents := [
    ⟨⟨"B-1", [("subject", "橋梁檢測")]⟩, some [1, 0]⟩,
    ⟨⟨"B-2", [("subject", "橋梁補強")]⟩, some [0, 1]⟩,
    ⟨⟨"B-3", [("subject", "橋梁改建")]⟩, none⟩,
    ⟨⟨"B-4", [("subject", "橋梁巡查")]⟩, some [0, 2]⟩]

/-- The documents on this shelf can be compared. -/
theorem comparable_bridgeShelf : bridgeShelf.Comparable [0, 1] := by
  intro s hs e he
  simp only [bridgeShelf, List.mem_cons, List.not_mem_nil, or_false] at hs
  rcases hs with rfl | rfl | rfl | rfl
  · cases he
    decide +kernel
  · cases he
    decide +kernel
  · cases he
  · cases he
    decide +kernel

/-- The first of two documents that are equally near is found, and not the document itself. -/
theorem findSimilar_bridge : ∃ docs,
    (Workshop.desk.toolbox.findSimilar ⟨some "B-1", none, some 1⟩).Yields
      [⟨.document "B-1", .ok (bridgeShelf.document? "B-1")⟩,
        ⟨.embedding "橋梁檢測", .ok (some [0, 1])⟩,
        ⟨.vectorSearch [0, 1] {} 2, .ok (bridgeShelf.vectorSearch [0, 1] {} 2)⟩]
      (.documents docs) ∧
    docs.map (fun d => (d.id, d.rerankScore)) = [("B-2", 1)] := by
  have hmem : ⟨⟨"B-1", [("subject", "橋梁檢測")]⟩, some [1, 0]⟩ ∈ bridgeShelf.documents :=
    List.mem_cons_self
  exact ⟨_, (findSimilar_nearest (by decide +kernel) comparable_bridgeShelf hmem rfl).1,
    by decide +kernel⟩

end Toolbox

end Archivist
