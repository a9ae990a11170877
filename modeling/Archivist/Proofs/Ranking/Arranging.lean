import Archivist.Proofs.Ranking.Verdict
import Archivist.Ranking.Rerank
import Mathlib.Data.List.Perm.Basic

/-!
# Documents Arranged by a Judgment

A ranker asks a language model at most one question and goes on with the positions in its answer,
whatever the answer is (`Ranker.run_judge_bind`). The documents at these positions come first, then
all others in their own order: every position has its place, none has two
(`Ranker.nodup_places`), and a number of documents are taken from the front.

## Main results

* `Ranker.arrangeWith_spec`: which documents are there, and what is read from an answer.
-/

namespace Archivist

namespace Ranker

variable {r : Ranker} {question : String} {documents : List Document} {order : List ℕ} {n : ℕ}

/-! ### Asking for a judgment -/

/-- The documents that are shown. -/
def shown (r : Ranker) (documents : List Document) : List Document :=
  documents.take (max r.maxJudged 1)

/-- The request for a judgment. -/
def request (r : Ranker) (question : String) (documents : List Document) : ChatRequest :=
  .forTask .rerank [{ role := .user, content := Ranking.judgePrompt question (r.shown documents) }]

/-- The positions that an answer names; a failure names none. -/
def named (r : Ranker) (documents : List Document) : Except Failure String → List ℕ
  | .error _ => []
  | .ok output => Ranking.read output (r.shown documents).length

/-- An order that names nothing is none. -/
def usable (order : List ℕ) : Option (List ℕ) := if order = [] then none else some order

/-- **One question is asked**, and whatever the answer is, there is an order or none. -/
theorem run_judge_bind {β : Type} (h : documents ≠ []) (f : Option (List ℕ) → β) :
    (r.judge question documents >>= fun order => pure (f order)).run =
      .ask (.complete (r.request question documents)) fun reply =>
        .done (.ok (f (usable (r.named documents reply)))) := by
  obtain ⟨d, ds, rfl⟩ := List.exists_cons_of_ne_nil h
  refine congrArg (Program.ask _) (funext fun reply => ?_)
  cases reply <;> rfl

/-- Nobody is asked about no documents. -/
theorem run_judge_bind_nil {β : Type} (f : Option (List ℕ) → β) :
    (r.judge question [] >>= fun order => pure (f order)).run = .done (.ok (f none)) :=
  rfl

/-- No position is named twice. -/
theorem nodup_named (r : Ranker) (documents : List Document) (reply : Except Failure String) :
    (r.named documents reply).Nodup := by
  cases reply with
  | error e => exact List.nodup_nil
  | ok output => exact Ranking.nodup_read _ _

/-- A language model names only what it was shown. -/
theorem lt_of_mem_named {reply : Except Failure String} {i : ℕ} (h : i ∈ r.named documents reply) :
    i < documents.length := by
  cases reply with
  | error e => cases h
  | ok output =>
      exact (Ranking.lt_of_mem_read h).trans_le (List.length_take_le' _ _)

/-! ### Places -/

/-- All positions, those of an order first. -/
def arrangement (total : ℕ) (order : List ℕ) : List ℕ :=
  order ++ (List.range total).filter (· ∉ order)

/-- The positions of the first `n`. -/
def places (total n : ℕ) (order : List ℕ) : List ℕ := (arrangement total order).take n

/-- Every position has exactly one place. -/
theorem arrangement_perm {total : ℕ} (hnodup : order.Nodup) (hlt : ∀ i ∈ order, i < total) :
    (arrangement total order).Perm (List.range total) := by
  have hrest : ((List.range total).filter (· ∉ order)).Nodup := List.nodup_range.filter _
  have hdisjoint : order.Disjoint ((List.range total).filter (· ∉ order)) := by
    intro i hi hi'
    exact of_decide_eq_true (List.mem_filter.1 hi').2 hi
  refine (List.perm_ext_iff_of_nodup (hnodup.append hrest hdisjoint) List.nodup_range).2 fun i => ?_
  rw [List.mem_append, List.mem_filter, List.mem_range, decide_eq_true_iff]
  constructor
  · rintro (hi | hi)
    · exact hlt i hi
    · exact hi.1
  · intro hi
    by_cases hmem : i ∈ order
    · exact .inl hmem
    · exact .inr ⟨hi, hmem⟩

/-- No position is placed twice. -/
theorem nodup_places {total : ℕ} (hnodup : order.Nodup) (hlt : ∀ i ∈ order, i < total) (n : ℕ) :
    (places total n order).Nodup :=
  ((arrangement_perm hnodup hlt).nodup_iff.2 List.nodup_range).sublist (List.take_sublist _ _)

/-- There are as many places as documents are wanted, or as there are. -/
theorem length_places {total : ℕ} (hnodup : order.Nodup) (hlt : ∀ i ∈ order, i < total) (n : ℕ) :
    (places total n order).length = min n total := by
  rw [places, List.length_take, (arrangement_perm hnodup hlt).length_eq, List.length_range]

/-! ### Documents at their places -/

/-- The documents that an order names stand in this order. -/
theorem map_named (hlt : ∀ i ∈ order, i < documents.length) :
    (order.filterMap fun i => documents[i]?).map some = order.map fun i => documents[i]? := by
  induction order with
  | nil => rfl
  | cons i order ih =>
      rw [List.forall_mem_cons] at hlt
      rw [List.filterMap_cons, List.getElem?_eq_getElem hlt.1, List.map_cons, List.map_cons,
        List.getElem?_eq_getElem hlt.1, ih hlt.2]

/-- All others stand in their own order. -/
theorem map_others (documents : List Document) (order : List ℕ) :
    ((documents.zipIdx.filter (·.2 ∉ order)).map (·.1)).map some =
      ((List.range documents.length).filter (· ∉ order)).map fun i => documents[i]? := by
  have hrange : List.range documents.length = documents.zipIdx.map (·.2) := by
    rw [List.zipIdx_map_snd, List.range_eq_range']
  rw [hrange, List.filter_map, List.map_map, List.map_map]
  refine List.map_congr_left fun x hx => ?_
  exact (List.mem_zipIdx_iff_getElem?.1 (List.mem_of_mem_filter hx)).symm

/-- The documents that are taken are those at the first places. -/
theorem map_arrange (hlt : ∀ i ∈ order, i < documents.length) (n : ℕ) :
    (arrange documents n (usable order)).map some =
      (places documents.length n order).map fun i => documents[i]? := by
  have hall : (arrange documents n (some order)).map some =
      (places documents.length n order).map fun i => documents[i]? := by
    rw [arrange, places, arrangement, List.map_take, List.map_take, List.map_append,
      List.map_append, map_named hlt, map_others]
  rw [usable]
  split
  · rename_i hnil
    subst hnil
    rw [← hall]
    simp [arrange]
  · exact hall

/-- `arranged` are the first `n` of all documents, those in the given order in front. -/
structure Arranges (documents : List Document) (order : List ℕ) (n : ℕ)
    (arranged : List Document) : Prop where
  length_eq : arranged.length = min n documents.length
  nodup : (places documents.length n order).Nodup
  map_eq : arranged.map some = (places documents.length n order).map fun i => documents[i]?
  plain : order = [] → arranged = documents.take n

/-- An order arranges the documents. -/
theorem arranges_arrange (hnodup : order.Nodup) (hlt : ∀ i ∈ order, i < documents.length) (n : ℕ) :
    Arranges documents order n (arrange documents n (usable order)) where
  length_eq := by
    have hlength := congrArg List.length (map_arrange hlt n)
    rwa [List.length_map, List.length_map, length_places hnodup hlt] at hlength
  nodup := nodup_places hnodup hlt n
  map_eq := map_arrange hlt n
  plain := by
    rintro rfl
    rfl

/-- **Documents that a language model arranges.** Without a language model, or without documents,
nothing is asked and the first `n` documents are taken. Otherwise one request is made, and whatever
is answered, `n` documents are taken, or all if there are fewer, no position twice: first those that
the answer names, then the others in their own order, and simply the first `n` if it names none.

What is read from an answer is without repetition and below the number of candidates; it is what the
numbers in the text name, in the order of their first mention. Different positions that are written
down as numbers, with something between them that has no digits, are read back. -/
theorem arrangeWith_spec (r : Ranker) (question : String) (documents : List Document) (n : ℕ) :
    (∀ present, present = false ∨ documents = [] →
      (r.arrangeWith present question documents n).run = .done (.ok (documents.take n))) ∧
    (documents ≠ [] → ∃ arranged : Except Failure String → List Document,
      (r.arrangeWith true question documents n).run =
        .ask (.complete (r.request question documents))
          (fun reply => .done (.ok (arranged reply))) ∧
      ∀ reply, Arranges documents (r.named documents reply) n (arranged reply)) ∧
    (∀ (output : String) (candidates : ℕ),
      (Ranking.read output candidates).Nodup ∧
      (∀ i ∈ Ranking.read output candidates, i < candidates) ∧
      ∀ runs, Ranking.Runs output.toList runs → Ranking.read output candidates =
        firstOfEach id [] (Ranking.positions candidates (runs.filterMap Ranking.number?))) ∧
    ∀ (front : List Char) (parts : List (List Char × List Char)) (ns : List ℕ) (candidates : ℕ),
      (∀ c ∈ front, Text.isDigit c = false) →
      List.Forall₂ (fun p n => Ranking.Spells p.1 n) parts ns →
      (∀ p ∈ parts, ∀ c ∈ p.2, Text.isDigit c = false) → (∀ p ∈ parts.dropLast, p.2 ≠ []) →
      ns.Nodup → (∀ n ∈ ns, 1 ≤ n ∧ n ≤ candidates) →
      Ranking.read (String.ofList (front ++ Ranking.written parts)) candidates =
        ns.map (· - 1) := by
  refine ⟨fun present h => ?_, fun h => ?_, fun output candidates => ?_, ?_⟩
  · cases present with
    | false => rfl
    | true =>
        obtain rfl := h.resolve_left (by decide)
        exact run_judge_bind_nil (arrange [] n)
  · refine ⟨fun reply => arrange documents n (usable (r.named documents reply)),
      run_judge_bind h _, fun reply => ?_⟩
    exact arranges_arrange (nodup_named r documents reply) (fun _ => lt_of_mem_named) n
  · exact ⟨Ranking.nodup_read _ _, fun _ => Ranking.lt_of_mem_read,
      fun _ hruns => Ranking.read_eq hruns candidates⟩
  · exact fun _ _ _ _ => Ranking.read_written

/-- Numbers in any digits, with any separators, are positions. -/
theorem read_mixed_digits : Ranking.read "第３，1; ０2" 3 = [2, 0, 1] := by
  have hfront : ∀ c ∈ ['第'], Text.isDigit c = false := by
    rw [List.forall_mem_singleton]
    decide
  have hgaps : ∀ p ∈ [(['３'], ['，']), (['1'], [';', ' ']), (['０', '2'], [])],
      ∀ c ∈ p.2, Text.isDigit c = false := by
    simp only [List.forall_mem_cons, List.not_mem_nil, false_imp_iff, implies_true, and_true]
    decide
  exact (arrangeWith_spec ⟨⟨0, 0, 0⟩, 1⟩ "" [] 0).2.2.2 ['第']
    [(['３'], ['，']), (['1'], [';', ' ']), (['０', '2'], [])] [3, 1, 2] 3 hfront
    (.cons ⟨by decide, by decide⟩ <| .cons ⟨by decide, by decide⟩ <|
      .cons ⟨by decide, by decide⟩ .nil)
    hgaps (by decide) (by decide) (by decide)

end Ranker

end Archivist
