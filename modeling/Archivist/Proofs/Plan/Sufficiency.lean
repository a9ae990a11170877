import Archivist.Plan.Judgment
import Archivist.Proofs.Number.Largest

/-!
# Sufficient Results

Only results that carry data count: where there are some, the verdict is read off them as a set
(`Judgment.assess_congr`), so neither their order nor results without data can matter. They are
sufficient if one of them answers the question directly or the largest relevance of all their
documents is not below the bound (`Judgment.assess_eq_none_iff`), and both are kept when results are
added. Where no result carries data, what is reported are two counts.

A language model is asked only about results that are sufficient so far. Its refusal is a verdict
of its own, its failure changes nothing.

## Main results

* `Judge.evaluate_spec`: what a verdict on results depends on, and what a language model can do to
  it.
-/

namespace Archivist

namespace Judgment

variable {m : Score} {results results' extra : List ToolResult}

/-! ### Results that carry data -/

/-- The results with which something has been found. -/
def productive (results : List ToolResult) : List ToolResult := results.filter (·.hasData)

/-- One of the results answers the question without ranked documents. -/
def IsAnswered (results : List ToolResult) : Prop :=
  ∃ r ∈ results, r.data.any (·.isDirect) = true

instance (results : List ToolResult) : Decidable (IsAnswered results) :=
  inferInstanceAs (Decidable (∃ r ∈ results, r.data.any (·.isDirect) = true))

/-- The productive results are those that have data. -/
theorem mem_productive_iff {r : ToolResult} :
    r ∈ productive results ↔ r ∈ results ∧ r.hasData = true :=
  List.mem_filter

/-- There are productive results if one has data. -/
theorem productive_ne_nil_iff : productive results ≠ [] ↔ ∃ r ∈ results, r.hasData = true := by
  rw [Ne, productive, List.filter_eq_nil_iff]
  push Not
  rfl

/-- More results have more productive ones among them. -/
theorem productive_subset (h : results ⊆ results') : productive results ⊆ productive results' :=
  fun _ hr => mem_productive_iff.2 ((mem_productive_iff.1 hr).imp_left fun hmem => h hmem)

/-! ### Relevance -/

/-- The relevance of each document that has been found. -/
def relevances (results : List ToolResult) : List Score :=
  (results.flatMap (·.found)).map (·.relevance)

/-- More results have more relevances among them. -/
theorem relevances_subset (h : results ⊆ results') : relevances results ⊆ relevances results' :=
  List.map_subset _ fun _ hd =>
    let ⟨r, hr, hd⟩ := List.mem_flatMap.1 hd
    List.mem_flatMap.2 ⟨r, h hr, hd⟩

/-- The best relevance is the largest of all. -/
theorem isLargest_bestRelevance (results : List ToolResult) :
    Score.IsLargest (bestRelevance results) (relevances results) :=
  .foldl_larger _

/-- The best relevance is that of a set of results. -/
theorem bestRelevance_congr (h : ∀ r, r ∈ results ↔ r ∈ results') :
    bestRelevance results = bestRelevance results' :=
  (isLargest_bestRelevance results).eq_of_mem_iff (isLargest_bestRelevance results') fun _ =>
    ⟨fun hx => relevances_subset (fun r => (h r).1) hx,
      fun hx => relevances_subset (fun r => (h r).2) hx⟩

/-! ### Verdicts -/

/-- Results without data are not sufficient, and it is told how many have failed. -/
theorem assess_of_unproductive (h : productive results = []) :
    assess m results = some (.noResults (results.countP (!·.success))
      (results.length - results.countP (!·.success))) := by
  rw [productive] at h
  rw [assess, h]
  rfl

/-- Results with data are sufficient if the question is answered, or the best relevance is not too
low. -/
theorem assess_of_productive (h : productive results ≠ []) :
    assess m results =
      if IsAnswered (productive results) then none
      else if bestRelevance (productive results) < m then
        some (.lowRelevance (bestRelevance (productive results)))
      else none := by
  have hempty : (results.filter (·.hasData)).isEmpty = false := by
    rwa [List.isEmpty_eq_false_iff]
  have hany : (results.filter (·.hasData)).any (·.data.any (·.isDirect)) = true ↔
      IsAnswered (productive results) := List.any_eq_true
  rw [assess, hempty, if_neg Bool.false_ne_true]
  by_cases hanswered : IsAnswered (productive results)
  · rw [if_pos (hany.2 hanswered), if_pos hanswered]
  · rw [if_neg (mt hany.1 hanswered), if_neg hanswered]
    rfl

/-- **Where results carry data, the verdict is one on the set of these.** -/
theorem assess_congr (hne : productive results ≠ [])
    (h : ∀ r, r ∈ productive results ↔ r ∈ productive results') :
    assess m results = assess m results' := by
  obtain ⟨r, hr⟩ := List.exists_mem_of_ne_nil _ hne
  have hne' : productive results' ≠ [] := List.ne_nil_of_mem ((h r).1 hr)
  have hanswered : IsAnswered (productive results) ↔ IsAnswered (productive results') :=
    exists_congr fun r => and_congr_left fun _ => h r
  rw [assess_of_productive hne, assess_of_productive hne', bestRelevance_congr h]
  exact if_congr hanswered rfl rfl

/-- The order of the results does not matter. -/
theorem assess_perm (h : results.Perm results') : assess m results = assess m results' := by
  have hproductive : (productive results).Perm (productive results') := h.filter _
  by_cases hne : productive results = []
  · have hne' : productive results' = [] := List.perm_nil.1 (hne ▸ hproductive.symm)
    rw [assess_of_unproductive hne, assess_of_unproductive hne', h.countP_eq, h.length_eq]
  · exact assess_congr hne fun r => hproductive.mem_iff

/-- When results are sufficient. -/
theorem assess_eq_none_iff : assess m results = none ↔ productive results ≠ [] ∧
    (IsAnswered (productive results) ∨ ¬ bestRelevance (productive results) < m) := by
  by_cases hne : productive results = []
  · rw [assess_of_unproductive hne]
    exact iff_of_false (Option.some_ne_none _) fun h => h.1 hne
  · rw [assess_of_productive hne]
    split
    next hanswered => exact iff_of_true rfl ⟨hne, .inl hanswered⟩
    next hanswered =>
      split
      next hlow =>
        exact iff_of_false (Option.some_ne_none _) fun h => h.2.elim hanswered fun hnot => hnot hlow
      next hlow => exact iff_of_true rfl ⟨hne, .inr hlow⟩

/-- **Results that are sufficient stay so among others.** -/
theorem assess_eq_none_of_subset (hsub : results ⊆ results') (h : assess m results = none) :
    assess m results' = none := by
  have hproductive := productive_subset hsub
  obtain ⟨hne, hreason⟩ := assess_eq_none_iff.1 h
  obtain ⟨r, hr⟩ := List.exists_mem_of_ne_nil _ hne
  refine assess_eq_none_iff.2 ⟨List.ne_nil_of_mem (hproductive hr), hreason.imp ?_ ?_⟩
  · exact fun ⟨r, hr, hdirect⟩ => ⟨r, hproductive hr, hdirect⟩
  · intro hlow hlow'
    have hbest := isLargest_bestRelevance (productive results)
    have hbest' := isLargest_bestRelevance (productive results')
    have hle : bestRelevance (productive results) ≤ bestRelevance (productive results') :=
      Score.le_of_not_lt hbest'.isNaN_eq_false hbest.isNaN_eq_false
        (hbest.not_lt_of_subset hbest' (relevances_subset hproductive))
    exact hlow (Score.lt_of_le_of_lt hle hlow')

/-- Results without data do not count beside one that carries some. -/
theorem assess_append (hdata : ∃ r ∈ results, r.hasData = true)
    (hextra : ∀ r ∈ extra, r.hasData = false) : assess m (results ++ extra) = assess m results := by
  have hnone : productive extra = [] :=
    List.filter_eq_nil_iff.2 fun r hr => Bool.eq_false_iff.1 (hextra r hr)
  have hproductive : productive (results ++ extra) = productive results := by
    rw [productive, List.filter_append]
    exact (congrArg (productive results ++ ·) hnone).trans (List.append_nil _)
  refine (assess_congr (productive_ne_nil_iff.2 hdata) fun r => ?_).symm
  rw [hproductive]

end Judgment

namespace Judge

open Judgment

/-- The request for a second opinion. -/
def request (question : String) (results : List ToolResult) : ChatRequest :=
  { ChatRequest.forTask .evaluation
      [{ role := .user, content := Prompt.sufficiency question results }] with
    maxTokens }

/-- What becomes of sufficient results with a second opinion. -/
def secondOpinion : Except Failure String → Option Shortfall
  | .error _ => none
  | .ok output => if (readVerdict output).1 then none else some (.judged (readVerdict output).2)

/-- A language model that is to be asked is asked once. -/
theorem run_evaluate_of_asks {j : Judge} {question : String} {results : List ToolResult}
    (hnone : assess j.minRelevance results = none) (hasks : j.asksModel = true) :
    (j.evaluate question results).run = .ask (.complete (request question results))
      fun reply => .done (.ok (secondOpinion reply)) := by
  rw [evaluate, hnone, hasks]
  exact congrArg (Program.ask _) (funext fun reply => by cases reply <;> rfl)

/-- **Verdicts on results.** They do not depend on the order of the results. Sufficient results stay
so among others, and where some result carries data, results without data change nothing, wherever
they stand.

A language model has no part in a verdict against the results. Otherwise it is asked if that is
wanted; what it says may be a verdict against them, and if it fails the results are sufficient as
they were. -/
theorem evaluate_spec (j : Judge) (question : String) :
    (∀ results results' : List ToolResult, results.Perm results' →
      assess j.minRelevance results = assess j.minRelevance results') ∧
    (∀ results results' : List ToolResult, results ⊆ results' →
      assess j.minRelevance results = none → assess j.minRelevance results' = none) ∧
    (∀ results extra mixed : List ToolResult, (∃ r ∈ results, r.hasData = true) →
      (∀ r ∈ extra, r.hasData = false) → mixed.Perm (results ++ extra) →
      assess j.minRelevance mixed = assess j.minRelevance results) ∧
    ∀ results : List ToolResult,
      (∀ shortfall, assess j.minRelevance results = some shortfall →
        (j.evaluate question results).run = .done (.ok (some shortfall))) ∧
      (assess j.minRelevance results = none →
        (j.asksModel = false → (j.evaluate question results).run = .done (.ok none)) ∧
        (j.asksModel = true → ∃ opinion : Except Failure String → Option Shortfall,
          (j.evaluate question results).run = .ask (.complete (request question results))
            (fun reply => .done (.ok (opinion reply))) ∧
          (∀ e, opinion (.error e) = none) ∧
          ∀ output, opinion (.ok output) =
            if (readVerdict output).1 then none else some (.judged (readVerdict output).2))) := by
  refine ⟨fun _ _ => assess_perm, fun _ _ => assess_eq_none_of_subset, fun results extra mixed
    hdata hextra hmixed => (assess_perm hmixed).trans (assess_append hdata hextra), fun results =>
    ⟨fun shortfall h => ?_, fun h => ⟨fun hasks => ?_, fun hasks => ?_⟩⟩⟩
  · rw [evaluate, h]
    rfl
  · rw [evaluate, h, hasks]
    rfl
  · exact ⟨secondOpinion, run_evaluate_of_asks h hasks, fun _ => rfl, fun _ => rfl⟩

end Judge

end Archivist
