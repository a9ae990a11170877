import Archivist.Answer.Synthesis
import Archivist.Plan.Correction
import Archivist.Plan.Planner
import Archivist.Proofs.Concurrency.Wording
import Archivist.Proofs.Tool.Question
import Archivist.Tool.Round

/-!
# Results and the Words of Failures

The result of a call that has failed has the words of the failure in it. What is made of results
does not: how they are judged and corrected, what the language model is told of them and which
sources an answer has is the same for results that differ in these words alone. So is what planning
and correcting asks.
-/

namespace Archivist

namespace ToolResult

/-- The result without the words of a failure. -/
def wordless (r : ToolResult) : ToolResult := { r with error := r.error.map fun _ => "" }

/-- Results that differ in words of failures alone. -/
def Rewords (rs rs' : List ToolResult) : Prop := rs.map wordless = rs'.map wordless

variable {rs rs' : List ToolResult}

/-- What does not see words of failures is the same for results that differ in them alone. -/
theorem Rewords.congr {α : Type} (h : Rewords rs rs') {f : List ToolResult → α}
    (hf : ∀ rs, f (rs.map wordless) = f rs) : f rs = f rs' := by
  rw [← hf rs, h, hf]

/-- More results may follow that differ in words alone. -/
theorem Rewords.append {more more' : List ToolResult} (h : Rewords rs rs')
    (hmore : Rewords more more') : Rewords (rs ++ more) (rs' ++ more') := by
  rw [Rewords, List.map_append, List.map_append, h, hmore]

section

variable {α : Type}

/-- What does not see the words of one result does not see them in a list. -/
theorem map_wordless {f : ToolResult → α} (hf : ∀ r, f r.wordless = f r) (rs : List ToolResult) :
    (rs.map wordless).map f = rs.map f := by
  have hcomp : f ∘ wordless = f := funext hf
  rw [List.map_map, hcomp]

/-- What is picked without regard to words is picked in the same way. -/
theorem filterMap_wordless {f : ToolResult → Option α} (hf : ∀ r, f r.wordless = f r)
    (rs : List ToolResult) : (rs.map wordless).filterMap f = rs.filterMap f := by
  have hcomp : f ∘ wordless = f := funext hf
  rw [List.filterMap_map, hcomp]

end

/-- What has been found is not said in words of failures. -/
theorem flatMap_found_wordless (rs : List ToolResult) :
    (rs.map wordless).flatMap (·.found) = rs.flatMap (·.found) := by
  rw [List.flatMap_map]
  rfl

/-- Results are picked alike by what does not see words of failures. -/
theorem filter_wordless {p : ToolResult → Bool} (hp : ∀ r, p r.wordless = p r)
    (rs : List ToolResult) : (rs.map wordless).filter p = (rs.filter p).map wordless := by
  have hcomp : p ∘ wordless = p := funext hp
  rw [List.filter_map, hcomp]

/-- There are results or there are not, whatever failures say. -/
theorem isEmpty_wordless (rs : List ToolResult) : (rs.map wordless).isEmpty = rs.isEmpty := by
  cases rs <;> rfl

/-- A test that does not see words comes out the same. -/
theorem any_wordless {p : ToolResult → Bool} (hp : ∀ r, p r.wordless = p r)
    (rs : List ToolResult) : (rs.map wordless).any p = rs.any p := by
  have hcomp : p ∘ wordless = p := funext hp
  rw [List.any_map, hcomp]

end ToolResult

open ToolResult

/-- Two ends of a stream that differ in words of a failure alone. -/
inductive Synthesis.Ended.Rewords : Ended → Ended → Prop where
  | complete : Rewords .complete .complete
  | failed {e e' : Failure} (h : e.Rewords e') : Rewords (.failed e) (.failed e')
  | brokenDown : Rewords .brokenDown .brokenDown

/-! ### What is made of results -/

/-- **Results are judged by what has been found.** -/
theorem Judgment.assess_wordless (minRelevance : Score) (rs : List ToolResult) :
    assess minRelevance (rs.map wordless) = assess minRelevance rs := by
  have hdata : (rs.map wordless).filter (·.hasData) = (rs.filter (·.hasData)).map wordless :=
    filter_wordless (fun _ => rfl) rs
  have hfailed : (rs.map wordless).countP (!·.success) = rs.countP (!·.success) := List.countP_map
  have hdirect := any_wordless (p := (·.data.any (·.isDirect))) (fun _ => rfl)
    (rs.filter (·.hasData))
  have hbest : bestRelevance ((rs.filter (·.hasData)).map wordless) =
      bestRelevance (rs.filter (·.hasData)) := by
    rw [bestRelevance, bestRelevance, flatMap_found_wordless]
  simp only [assess, hdata, isEmpty_wordless, hdirect, hfailed, List.length_map, hbest]

namespace Correction

/-- Dates are moved for the same results. -/
theorem broaden_wordless (days : Int) (rs : List ToolResult) :
    broaden days (rs.map wordless) = broaden days rs := by
  rw [broaden, broaden, filter_wordless (fun _ => rfl), map_wordless (fun _ => rfl)]

/-- Filters are dropped for the same results. -/
theorem dropFilters_wordless (rs : List ToolResult) :
    dropFilters (rs.map wordless) = dropFilters rs := by
  rw [dropFilters, dropFilters, filter_wordless (fun _ => rfl), filterMap_wordless (fun _ => rfl)]

/-- Searches are switched for the same results. -/
theorem switch_wordless (rs : List ToolResult) : switch (rs.map wordless) = switch rs :=
  filterMap_wordless (fun _ => rfl) rs

/-- Looks for entities give way to searches for the same results. -/
theorem fallBack_wordless (question : String) (rs : List ToolResult) :
    fallBack question (rs.map wordless) = fallBack question rs := by
  simp only [fallBack]
  rw [filter_wordless (fun _ => rfl), any_wordless (fun _ => rfl), map_wordless (fun _ => rfl)]

/-- The corrections by rule are the same. -/
theorem byRule_wordless (days : Int) (question : String) (rs : List ToolResult) :
    byRule days question (rs.map wordless) = byRule days question rs := by
  rw [byRule, byRule, broaden_wordless, dropFilters_wordless, switch_wordless, fallBack_wordless]

/-- The first search for documents is the same. -/
theorem firstSearch?_wordless (rs : List ToolResult) :
    firstSearch? (rs.map wordless) = firstSearch? rs := by
  rw [firstSearch?, firstSearch?, map_wordless (fun _ => rfl)]

/-- Terms are widened for the same search. -/
theorem expand_wordless (x : Expander) (question : String) (rs : List ToolResult) :
    expand x question (rs.map wordless) = expand x question rs := by
  rw [expand, expand, firstSearch?_wordless]

end Correction

/-- **Results are corrected by what has been asked and found.** -/
theorem Corrector.correct_wordless (c : Corrector) (question : String) (shortfall : Shortfall)
    (rs : List ToolResult) :
    c.correct question shortfall (rs.map wordless) = c.correct question shortfall rs := by
  have hchoose : c.choose question (rs.map wordless) = c.choose question rs := by
    funext byRule
    rw [choose, choose, Correction.expand_wordless]
  rw [correct, correct, Correction.byRule_wordless, hchoose]

namespace Synthesis

/-- The summary of results does not quote failures. -/
theorem summary_wordless (rs : List ToolResult) : summary (rs.map wordless) = summary rs := by
  have hline : ∀ r : ToolResult, summaryLine r.wordless = summaryLine r := fun _ => rfl
  rw [summary, summary, isEmpty_wordless, map_wordless hline]

/-- The documents for an answer are the same. -/
theorem documents_wordless (rs : List ToolResult) :
    documents (rs.map wordless) = documents rs := by
  rw [documents, documents, flatMap_found_wordless]

/-- **The language model is told that a call has failed**, and nothing else of it. -/
theorem request_wordless (c : ContextConfig) (historyTurns : ℕ) (question : String)
    (history : List Remark) (rs : List ToolResult) :
    request c historyTurns question history (rs.map wordless) =
      request c historyTurns question history rs := by
  rw [request, request, prompt, prompt, documents_wordless, summary_wordless]

/-- So are the sources. -/
theorem citations_wordless (rs : List ToolResult) :
    citations (rs.map wordless) = citations rs := by
  simp only [citations]
  rw [filter_wordless (fun _ => rfl), filterMap_wordless (fun _ => rfl)]

/-- Two streams that differ in words of a failure alone are passed on alike. -/
theorem streamFrom_rewords {chunks chunks' : List Chunk}
    (h : List.Forall₂ Chunk.Rewords chunks chunks') (s : Sanitize.Sanitizer) (sent : List String) :
    (streamFrom s sent chunks).pieces = (streamFrom s sent chunks').pieces ∧
      Ended.Rewords (streamFrom s sent chunks).ended (streamFrom s sent chunks').ended := by
  induction h generalizing s sent with
  | nil => exact ⟨rfl, .complete⟩
  | cons hchunk _ ih =>
      cases hchunk with
      | failure he => exact ⟨rfl, .failed he⟩
      | breakdown => exact ⟨rfl, .brokenDown⟩
      | text text =>
          obtain ⟨hpieces, hended⟩ := ih (s.push text).2 (sent ++ pieceOf (s.push text).1)
          exact ⟨congrArg (pieceOf (s.push text).1 ++ ·) hpieces, hended⟩

end Synthesis

/-! ### Planning, judging and correcting -/

/-- A plan is the same whatever failures say on the way to it. -/
theorem Planner.wordless_plan (p : Planner) (question : String) (history : List Remark)
    (h : Hints) : (p.plan question history h).Wordless fun _ => True := by
  refine (Action.wordless_ask trivial ?_).bind fun _ => Action.wordless_pure _
  intro request h
  cases h

/-- Without a second opinion nobody is asked. -/
theorem Judge.evaluate_eq {j : Judge} (hj : j.asksModel = false) (question : String)
    (rs : List ToolResult) :
    j.evaluate question rs = pure (Judgment.assess j.minRelevance rs) := by
  rw [evaluate, hj]
  cases Judgment.assess j.minRelevance rs <;> rfl

/-- The verdict of rules is the same whatever failures say. -/
theorem Judge.wordless_evaluate {j : Judge} (hj : j.asksModel = false) (question : String)
    (rs : List ToolResult) : (j.evaluate question rs).Wordless fun _ => True := by
  rw [evaluate_eq hj]
  exact Action.wordless_pure _

/-- It does not depend on the words of failures among the results. -/
theorem Judge.evaluate_wordless {j : Judge} (hj : j.asksModel = false) (question : String)
    (rs : List ToolResult) : j.evaluate question (rs.map wordless) = j.evaluate question rs := by
  rw [evaluate_eq hj, evaluate_eq hj, Judgment.assess_wordless]

namespace Correction

open Archivist.Action

/-- Widening is the same whatever the graph says when it fails. -/
theorem wordless_expand (x : Expander) (question : String) (rs : List ToolResult) :
    (expand x question rs).Wordless Ask.IsForTool := by
  refine (x.wordless_expand _).bind fun expanded => ?_
  split
  · exact wordless_pure _
  · exact wordless_pure _

end Correction

/-- A corrected plan is the same whatever failures say on the way to it. -/
theorem Corrector.wordless_correct (c : Corrector) (question : String) (shortfall : Shortfall)
    (rs : List ToolResult) : (c.correct question shortfall rs).Wordless Ask.IsForTool := by
  have hchoose : ∀ byRule, (c.choose question rs byRule).Wordless Ask.IsForTool := fun byRule => by
    rw [choose]
    split
    · exact Action.wordless_pure _
    · exact (Correction.wordless_expand ..).bind fun _ => Action.wordless_pure _
  rw [correct]
  split
  · exact Action.wordless_crash
  · exact (hchoose _).bind fun _ => Action.wordless_pure _

/-! ### Rounds -/

namespace Workshop

/-- The lane of a call ends alike, whatever failures say. -/
theorem rewords_lane (s : Workshop) (call : ToolCall) :
    (s.lane call).Rewords Ask.IsForTool Eq (s.lane call) := by
  rw [lane]
  split
  · exact .ended (.value (.error (.refl _)))
  · exact .ready true _ (s.toolbox.wordless_run _).run

/-- The result of a call differs in the words of its failure alone. -/
theorem wordless_result (s : Workshop) (call : ToolCall) {e e' : Ending ToolOutput}
    (h : e.Rewords Eq e') : (s.result call e).wordless = (s.result call e').wordless := by
  cases h with
  | crashed | late => rfl
  | value h =>
      cases h with
      | error => rfl
      | ok h => rw [h]

/-- So do the results of a round. -/
theorem zipWith_result_rewords (s : Workshop) (calls : List ToolCall)
    {es es' : List (Ending ToolOutput)} (h : List.Forall₂ (Ending.Rewords Eq) es es') :
    ToolResult.Rewords (List.zipWith s.result calls es) (List.zipWith s.result calls es') := by
  induction h generalizing calls with
  | nil => rfl
  | cons he _ ih =>
      cases calls with
      | nil => rfl
      | cons call rest =>
          have hrest := ih rest
          rw [ToolResult.Rewords] at hrest ⊢
          rw [List.zipWith_cons_cons, List.zipWith_cons_cons, List.map_cons, List.map_cons,
            s.wordless_result call he, hrest]

variable {env env' : Environment} {rel : env.State → env'.State → Prop} {w : World env}
  {w' : World env'}

/-- **A round has results that differ in words of failures alone.** -/
theorem round_rewords (s : Workshop) (h : w.Rewords rel w') (henv : env.Rewords env' rel)
    (limit : Option ℕ) (calls : List ToolCall) :
    Option.Rel ToolResult.Rewords (s.round limit calls w).1 (s.round limit calls w').1 ∧
      (s.round limit calls w).2.Rewords rel (s.round limit calls w').2 := by
  have hlanes : List.Forall₂ (Lane.Rewords Ask.IsForTool Eq) (calls.map s.lane)
      (calls.map s.lane) := List.forall₂_same.2 fun l hl => by
      obtain ⟨call, -, rfl⟩ := List.mem_map.1 hl
      exact s.rewords_lane call
  obtain ⟨hendings, hw⟩ := h.join henv hlanes limit
  refine ⟨?_, hw⟩
  simp only [round]
  generalize (w.join limit (calls.map s.lane)).1 = es?,
    (w'.join limit (calls.map s.lane)).1 = es'? at hendings ⊢
  cases hendings with
  | none => exact .none
  | some hes => exact .some (s.zipWith_result_rewords calls hes)

end Workshop

end Archivist
