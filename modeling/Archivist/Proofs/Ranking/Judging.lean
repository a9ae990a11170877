import Archivist.Proofs.Number.Scalar
import Archivist.Proofs.Ranking.Arranging
import Archivist.Proofs.Ranking.Rerank
import Mathlib.Algebra.Order.Field.Basic
import Mathlib.Data.Rat.Cast.Order
import Mathlib.Tactic.Linarith
import Mathlib.Tactic.NormNum

/-!
# Documents Ranked by a Judgment

Ranking gives documents new scores and puts them in order by these, stably
(`Ranking.RanksStably`). A judgment adds to the scores: the document at a place of the order gains
by this place (`Ranking.relevance_of_place`), every other document gains nothing
(`Ranking.relevance_of_notMem`). The identifiers of documents lead back to them if no two are the
same.

Without rounding, what a document gains is less at every further place, and nothing is less still,
so that of documents that the other signals hold equal the one that is judged better comes first
(`Ranking.sublist_rankJudged`).

## Main results

* `Ranker.rankWith_spec`: what a ranking does to documents, with a judgment and without.
-/

namespace Archivist

namespace Ranking

/-- Documents with different identifiers are told apart by these. -/
theorem eq_of_id_eq {S : Type} {documents : List (Scored S)} {d e : Scored S} {i j : ℕ}
    (hids : (documents.map (·.id)).Nodup) (hd : documents[i]? = some d)
    (he : documents[j]? = some e) (heq : d.id = e.id) : i = j := by
  have hlt : i < (documents.map (·.id)).length := by
    rw [List.length_map]
    exact (List.getElem?_eq_some_iff.1 hd).1
  refine (List.getElem?_inj hlt hids).1 ?_
  rw [List.getElem?_map, List.getElem?_map, hd, he]
  exact congrArg some heq

section Scores

variable {S : Type} [Scalar S] {w : Weights S} {terms : List String} {documents : List (Scored S)}
  {order : List ℕ} {d e : Scored S} {i j place : ℕ}

/-! ### Order -/

/-- The documents have new scores and are in order by these, highest first; nothing else has
changed, and documents with the same score keep their order. -/
structure RanksStably [LE S] (scored : Scored S → Scored S) (documents ranked : List (Scored S)) :
    Prop where
  unchanged : ∀ d,
    { scored d with keywordScore := d.keywordScore, rerankScore := d.rerankScore } = d
  ordered : StablyOrdered (fun a b => b.rerankScore ≤ a.rerankScore) (documents.map scored) ranked

/-- Documents are ranked by their scores, and stably. -/
theorem ranksStably_scoreAndSort [LE S] {good : Scored S → Prop} {judged : Option (String → S)}
    (h : Decides (fun a b : Scored S => Scalar.less b.rerankScore a.rerankScore) good
      fun a b => b.rerankScore ≤ a.rerankScore)
    (hgood : ∀ d ∈ documents, good (rescore w terms judged d)) :
    RanksStably (rescore w terms judged) documents (scoreAndSort w terms judged documents) where
  unchanged _ := rfl
  ordered := h.stablyOrdered_stableSort (List.forall_mem_map.2 hgood)

/-! ### Relevance -/

/-- Which relevance an identifier is given, and by which place. -/
theorem mem_relevances_iff {x : String × S} : x ∈ relevances documents order ↔
    ∃ place i d, order[place]? = some i ∧ documents[i]? = some d ∧
      (d.id, 1.0 - Scalar.ofNat place / Scalar.ofNat order.length) = x := by
  simp only [relevances, List.mem_filterMap, Prod.exists, List.mem_zipIdx_iff_getElem?,
    Option.map_eq_some_iff]
  exact ⟨fun ⟨i, place, hi, d, hd, hx⟩ => ⟨place, i, d, hi, hd, hx⟩,
    fun ⟨place, i, d, hi, hd, hx⟩ => ⟨i, place, hi, d, hd, hx⟩⟩

/-- **The document at a place of the order has the relevance of this place.** -/
theorem relevance_of_place (hids : (documents.map (·.id)).Nodup) (horder : order.Nodup)
    (hi : order[place]? = some i) (hd : documents[i]? = some d) :
    relevance documents order d.id = 1.0 - Scalar.ofNat place / Scalar.ofNat order.length := by
  have hunique : ∀ x ∈ (relevances documents order).reverse, x.1 = d.id →
      x.2 = (1.0 - Scalar.ofNat place / Scalar.ofNat order.length : S) := by
    intro x hx heq
    obtain ⟨place', i', d', hi', hd', rfl⟩ := mem_relevances_iff.1 (List.mem_reverse.1 hx)
    obtain rfl := eq_of_id_eq hids hd' hd heq
    have hplace : place' = place :=
      (List.getElem?_inj (List.getElem?_eq_some_iff.1 hi').1 horder).1 (hi'.trans hi.symm)
    rw [hplace]
  have hmem : (d.id, 1.0 - Scalar.ofNat place / Scalar.ofNat order.length) ∈
      (relevances documents order).reverse :=
    List.mem_reverse.2 (mem_relevances_iff.2 ⟨place, i, d, hi, hd, rfl⟩)
  rw [relevance]
  cases hfind : (relevances documents order).reverse.find? (·.1 = d.id) with
  | none => exact absurd (decide_eq_true rfl) (List.find?_eq_none.1 hfind _ hmem)
  | some x =>
      have hid := List.find?_some hfind
      exact hunique x (List.mem_of_find?_eq_some hfind) (of_decide_eq_true hid)

/-- A document that is not in the order has none. -/
theorem relevance_of_notMem (hids : (documents.map (·.id)).Nodup) (hi : i ∉ order)
    (hd : documents[i]? = some d) : (relevance documents order d.id : S) = Scalar.ofNat 0 := by
  have hnone : (relevances documents order).reverse.find? (·.1 = d.id) = none := by
    refine List.find?_eq_none.2 fun x hx heq => hi ?_
    obtain ⟨place, j, e, hj, he, rfl⟩ := mem_relevances_iff.1 (List.mem_reverse.1 hx)
    obtain rfl := eq_of_id_eq hids he hd (of_decide_eq_true heq)
    exact List.mem_of_getElem? hj
  rw [relevance, hnone]
  rfl

end Scores

/-! ### Gains without rounding -/

variable {w : Weights ℚ} {terms : List String} {documents : List (Scored ℚ)} {order : List ℕ}
  {d e : Scored ℚ} {i j place : ℕ}

/-- The score of a document by similarity and coverage. -/
def twoSignals (w : Weights ℚ) (terms : List String) (d : Scored ℚ) : ℚ :=
  (rescore w terms none d).rerankScore

/-- A document with the score that a judgment gives it. -/
def judgedBy (w : Weights ℚ) (terms : List String) (documents : List (Scored ℚ))
    (order : List ℕ) : Scored ℚ → Scored ℚ :=
  rescore w terms (some (relevance documents order))

/-- Ranking without a judgment is stable. -/
theorem ranksStably_rank (w : Weights ℚ) (terms : List String) (documents : List (Scored ℚ)) :
    RanksStably (rescore w terms none) documents (rank w terms documents) :=
  ranksStably_scoreAndSort (Scalar.decides Scored.rerankScore) fun _ _ => trivial

/-- Ranking with a judgment is stable. -/
theorem ranksStably_rankJudged (w : Weights ℚ) (terms : List String) (documents : List (Scored ℚ))
    (order : List ℕ) :
    RanksStably (judgedBy w terms documents order) documents (rankJudged w terms documents order) :=
  ranksStably_scoreAndSort (Scalar.decides Scored.rerankScore) fun _ _ => trivial

/-- A judged score adds the relevance to the other two signals. -/
theorem rerankScore_judgedBy (w : Weights ℚ) (terms : List String) (documents : List (Scored ℚ))
    (order : List ℕ) (d : Scored ℚ) : (judgedBy w terms documents order d).rerankScore =
      twoSignals w terms d + w.judged * relevance documents order d.id :=
  rfl

/-- A document that is named gains by its place. -/
theorem rerankScore_of_place (hids : (documents.map (·.id)).Nodup) (horder : order.Nodup)
    (hi : order[place]? = some i) (hd : documents[i]? = some d) :
    (judgedBy w terms documents order d).rerankScore =
      twoSignals w terms d + w.judged * (1 - place / order.length) := by
  have hone : (1.0 : ℚ) = 1 := by norm_num
  rw [rerankScore_judgedBy, relevance_of_place hids horder hi hd, Scalar.ofNat_eq, Scalar.ofNat_eq]
  exact congrArg (fun x => twoSignals w terms d + w.judged * (x - place / order.length)) hone

/-- A document that is not named gains nothing. -/
theorem rerankScore_of_notMem (hids : (documents.map (·.id)).Nodup) (hi : i ∉ order)
    (hd : documents[i]? = some d) :
    (judgedBy w terms documents order d).rerankScore = twoSignals w terms d := by
  rw [rerankScore_judgedBy, relevance_of_notMem hids hi hd, Scalar.ofNat_zero, mul_zero, add_zero]

/-- What is judged better gains more. -/
theorem rerankScore_lt (hids : (documents.map (·.id)).Nodup) (horder : order.Nodup)
    (hw : 0 < w.judged) (hd : documents[i]? = some d) (he : documents[j]? = some e)
    (hbetter : order.idxOf i < order.idxOf j)
    (hequal : twoSignals w terms d = twoSignals w terms e) :
    (judgedBy w terms documents order e).rerankScore <
      (judgedBy w terms documents order d).rerankScore := by
  have hi : i ∈ order := List.idxOf_lt_length_iff.1 (hbetter.trans_le List.idxOf_le_length)
  have hpos : (0 : ℚ) < order.length := Nat.cast_pos.2 (List.length_pos_of_mem hi)
  rw [rerankScore_of_place hids horder (List.getElem?_idxOf hi) hd, hequal]
  by_cases hj : j ∈ order
  · rw [rerankScore_of_place hids horder (List.getElem?_idxOf hj) he]
    have hplaces : (order.idxOf i : ℚ) / order.length < order.idxOf j / order.length :=
      div_lt_div_of_pos_right (Nat.cast_lt.2 hbetter) hpos
    have hgains := mul_lt_mul_of_pos_left (sub_lt_sub_left hplaces 1) hw
    linarith
  · rw [rerankScore_of_notMem hids hj he]
    have hplace : (order.idxOf i : ℚ) / order.length < 1 :=
      (div_lt_one hpos).2 (Nat.cast_lt.2 (List.idxOf_lt_length_iff.2 hi))
    have hgain := mul_pos hw (sub_pos.2 hplace)
    linarith

/-- In a list in order, what cannot come after stands before. -/
theorem sublist_of_not_le {α : Type} {le : α → α → Prop} {a b : α} {ys : List α}
    (hle : ys.Pairwise le) (ha : a ∈ ys) (hb : b ∈ ys) (hne : a ≠ b) (hnot : ¬ le b a) :
    [a, b].Sublist ys := by
  obtain ⟨us, vs, rfl⟩ := List.append_of_mem ha
  rcases List.mem_append.1 hb with hb | hb
  · exact absurd ((List.pairwise_append.1 hle).2.2 b hb a List.mem_cons_self) hnot
  · have hb : b ∈ vs := (List.mem_cons.1 hb).resolve_left hne.symm
    exact ((List.singleton_sublist.2 hb).cons_cons a).trans (List.sublist_append_right us _)

/-- **Of documents that the other signals hold equal, the one that is judged better comes
first.** -/
theorem sublist_rankJudged (hids : (documents.map (·.id)).Nodup) (horder : order.Nodup)
    (hw : 0 < w.judged) (hd : documents[i]? = some d) (he : documents[j]? = some e)
    (hbetter : order.idxOf i < order.idxOf j)
    (hequal : twoSignals w terms d = twoSignals w terms e) :
    [judgedBy w terms documents order d, judgedBy w terms documents order e].Sublist
      (rankJudged w terms documents order) := by
  have hlt := rerankScore_lt hids horder hw hd he hbetter hequal
  have hstable := ranksStably_rankJudged w terms documents order
  have hmem : ∀ {k : ℕ} {f : Scored ℚ}, documents[k]? = some f →
      judgedBy w terms documents order f ∈ rankJudged w terms documents order := fun hf =>
    hstable.ordered.perm.mem_iff.2 (List.mem_map_of_mem (List.mem_of_getElem? hf))
  refine sublist_of_not_le hstable.ordered.ordered (hmem hd) (hmem he) (fun heq => ?_)
    (not_le.2 hlt)
  exact hlt.ne (congrArg Scored.rerankScore heq).symm

/-- What documents gain by an order: by their places in it, or nothing; and what is better in the
order, and equal otherwise, comes first. -/
structure Gains (w : Weights ℚ) (terms : List String) (documents : List (Scored ℚ))
    (order : List ℕ) : Prop where
  of_place : ∀ (place i : ℕ) (d : Scored ℚ), order[place]? = some i → documents[i]? = some d →
    (judgedBy w terms documents order d).rerankScore =
      twoSignals w terms d + w.judged * (1 - place / order.length)
  of_notMem : ∀ i d, i ∉ order → documents[i]? = some d →
    (judgedBy w terms documents order d).rerankScore = twoSignals w terms d
  better : 0 < w.judged → ∀ i j d e, documents[i]? = some d → documents[j]? = some e →
    order.idxOf i < order.idxOf j → twoSignals w terms d = twoSignals w terms e →
    [judgedBy w terms documents order d, judgedBy w terms documents order e].Sublist
      (rankJudged w terms documents order)

/-- Every document gains as its place says, if no identifier comes twice. -/
theorem gains_of_nodup (hids : (documents.map (·.id)).Nodup) (horder : order.Nodup) :
    Gains w terms documents order where
  of_place _ _ _ := rerankScore_of_place hids horder
  of_notMem _ _ := rerankScore_of_notMem hids
  better hw _ _ _ _ := sublist_rankJudged hids horder hw

end Ranking

namespace Ranker

open Ranking

/-- **Documents that a language model ranks.** Without a language model, or without documents,
nothing is asked and documents are ranked by similarity and coverage. Otherwise one request is made;
if the answer names none of the documents, nothing else happens, and if it does, they are ranked by
what it names, which is without repetition and in range.

Either way documents get new scores and are put in order by these, stably, if the scores are
numbers. Without rounding they are, and documents with different identifiers gain what their places
in the order are worth. -/
theorem rankWith_spec (r : Ranker) (question : String) (terms : List String)
    (documents : List Document) :
    (∀ present, present = false ∨ documents = [] →
      (r.rankWith present question terms documents).run = .done (.ok (r.rank terms documents))) ∧
    (documents ≠ [] → ∃ ranked : Except Failure String → List Document,
      (r.rankWith true question terms documents).run =
        .ask (.complete (r.request question documents)) (fun reply => .done (.ok (ranked reply))) ∧
      ∀ reply,
        (r.named documents reply = [] → ranked reply = r.rank terms documents) ∧
        (r.named documents reply ≠ [] →
          ranked reply = rankJudged r.weights terms documents (r.named documents reply))) ∧
    (∀ reply, (r.named documents reply).Nodup ∧ ∀ i ∈ r.named documents reply,
      i < documents.length) ∧
    (∀ order, (∀ d ∈ r.rankBy terms documents order, d.rerankScore.isNaN = false) →
      RanksStably (rescore r.weights terms (order.map (relevance documents))) documents
        (r.rankBy terms documents order)) ∧
    ∀ (w : Weights ℚ) (documents : List (Scored ℚ)),
      RanksStably (rescore w terms none) documents (Ranking.rank w terms documents) ∧
      ∀ order : List ℕ,
        RanksStably (judgedBy w terms documents order) documents
          (rankJudged w terms documents order) ∧
        ((documents.map (·.id)).Nodup → order.Nodup → Gains w terms documents order) := by
  refine ⟨fun present h => ?_, fun h => ?_, fun reply => ?_, fun order hnumber => ?_,
    fun w documents => ⟨ranksStably_rank w terms documents, fun order =>
      ⟨ranksStably_rankJudged w terms documents order, gains_of_nodup⟩⟩⟩
  · cases present with
    | false => rfl
    | true =>
        -- Without documents the judge is not asked, although there is one.
        obtain rfl := h.resolve_left (by decide)
        rw [rankWith, if_pos rfl, rankWithJudge_eq]
        exact run_judge_bind_nil (r.rankBy terms [])
  · refine ⟨fun reply => r.rankBy terms documents (usable (r.named documents reply)), ?_,
      fun reply => ⟨fun hnil => ?_, fun hne => ?_⟩⟩
    · rw [rankWith, if_pos rfl, rankWithJudge_eq]
      exact run_judge_bind h _
    · -- An answer that names no document counts as none.
      change r.rankBy terms documents (usable _) = _
      rw [usable, if_pos hnil]
      rfl
    · change r.rankBy terms documents (usable _) = _
      rw [usable, if_neg hne]
      rfl
  · exact ⟨nodup_named r documents reply, fun _ => lt_of_mem_named⟩
  · refine ranksStably_scoreAndSort (Score.decides Scored.rerankScore) fun d hd => ?_
    exact hnumber _ (mem_scoreAndSort_iff.2 ⟨d, hd, rfl⟩)

end Ranker

end Archivist
