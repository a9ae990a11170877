import Archivist.Plan.Correction
import Archivist.Plan.Planner
import Archivist.Answer.Synthesis
import Archivist.Proofs.Concurrency.Perform
import Archivist.Proofs.Tool.Question

/-!
# Planning, Judging and Correcting

A turn asks for a plan, for a judgment and for a correction. Each of these is an action by itself,
and `Promise` says what a turn can rely on: what the language model is asked for, that a failure or
a breakdown is that of the last exchange, and what the value is like.

A correction may also break down by itself, namely if it is to move dates by more days than there
are; and if it gives a plan, the plan has calls (`Corrector.correct_promise`).
-/

namespace Archivist

variable {α β : Type}

/-- How an exchange came out for the one who asked. A stream that is broken off has failed, whatever
it began with. -/
def Exchange.ended : Exchange → Synthesis.Ended
  | ⟨_, ⟨_, none⟩⟩ => .brokenDown
  | ⟨_, ⟨_, some (.error e)⟩⟩ => .failed e
  | ⟨.stream _, ⟨_, some (.ok chunks)⟩⟩ => (Synthesis.stream chunks).ended
  | ⟨_, ⟨_, some (.ok _)⟩⟩ => .complete

namespace Exchange

/-- An exchange without an outcome has broken down. -/
theorem ended_of_none {x : Exchange} (h : x.response.outcome = none) : x.ended = .brokenDown := by
  obtain ⟨q, delay, outcome⟩ := x
  obtain rfl : outcome = none := h
  cases q <;> rfl

/-- An exchange with a failure has failed. -/
theorem ended_of_error {q : Ask} {response : Response q} {e : Failure}
    (h : response.outcome = some (.error e)) : Exchange.ended ⟨q, response⟩ = .failed e := by
  rcases response with ⟨delay, outcome⟩
  cases h
  cases q <;> rfl

end Exchange

/-- What the language model is asked for, apart from the orders of documents that tools ask for. -/
def requestsOf (xs : List Exchange) : List Task :=
  (xs.filterMap (·.question.task?)).filter (· ≠ .rerank)

/-- What is asked of the language model, part by part. -/
@[simp] theorem requestsOf_append (xs ys : List Exchange) :
    requestsOf (xs ++ ys) = requestsOf xs ++ requestsOf ys := by
  simp [requestsOf]

/-- Tools ask nothing of the language model that counts. -/
theorem requestsOf_eq_nil {xs : List Exchange} (h : ∀ x ∈ xs, x.question.IsForTool) :
    requestsOf xs = [] := by
  rw [requestsOf, List.filter_eq_nil_iff]
  intro task ht
  obtain ⟨x, hx, hq⟩ := List.mem_filterMap.1 ht
  simp [h x hx task hq]

/-- One question is one request at most. -/
theorem requestsOf_singleton (q : Ask) (response : Response q) :
    (requestsOf [⟨q, response⟩]).Sublist q.task?.toList := by
  refine List.filter_sublist.trans ?_
  cases h : q.task? <;> simp [h]

/-- What a turn can rely on: the language model is asked for some of `tasks` at most, a failure or a
breakdown is that of the last exchange, unless the breakdown was to be expected, and the value is as
`U` says. -/
def Promise (tasks : List Task) (U : α → Prop) (unsound : Prop) (xs : List Exchange)
    (e : Ending α) : Prop :=
  (requestsOf xs).Sublist tasks ∧ match e with
    | .value (.ok a) => U a
    | .value (.error e) => ∃ x, xs.getLast? = some x ∧ x.ended = .failed e
    | .crashed => unsound ∨ ∃ x, xs.getLast? = some x ∧ x.ended = .brokenDown
    | .late => True

/-- An action that asks the language model once and makes something of what that says. -/
theorem promise_of_ask {q : Ask} {unsound : Prop} {U : α → Prop}
    {next : Reply q → Program Reply (Except Failure α)} (hq : ∀ text, q ≠ .embedding text)
    (hnext : ∀ response : Response q, ∀ r, response.outcome = some r →
      (next r).Always (Promise q.task?.toList U unsound) [⟨q, response⟩]) :
    Program.Always (Promise q.task?.toList U unsound) (.ask q next) [] := by
  refine ⟨hq, fun response => ⟨⟨requestsOf_singleton q response, trivial⟩, ?_⟩⟩
  cases ho : response.outcome with
  | none =>
      exact ⟨requestsOf_singleton q response, Or.inr ⟨_, rfl, Exchange.ended_of_none ho⟩⟩
  | some r => exact hnext response r ho

/-- A plan is asked for once. -/
theorem Planner.plan_promise (p : Planner) (question : String) (history : List Remark) (h : Hints)
    (unsound : Prop) :
    Program.Always (Promise [.planning] (fun _ => True) unsound)
      (p.plan question history h).run [] := by
  refine promise_of_ask nofun fun response r ho => ?_
  have hlast := requestsOf_singleton _ response
  rcases r with e | output
  · exact ⟨hlast, _, rfl, Exchange.ended_of_error ho⟩
  · exact ⟨hlast, trivial⟩

/-- A judgment is asked for once at most, and cannot fail. -/
theorem Judge.evaluate_promise (j : Judge) (question : String) (results : List ToolResult)
    (unsound : Prop) :
    Program.Always (Promise [.evaluation] (fun _ => True) unsound)
      (j.evaluate question results).run [] := by
  have hnone : ∀ r : Option Shortfall,
      Program.Always (Promise [.evaluation] (fun _ => True) unsound)
        (pure r : Action (Option Shortfall)).run [] := fun r => ⟨List.nil_sublist _, trivial⟩
  simp only [evaluate]
  split
  · exact hnone _
  · split
    · exact hnone _
    · refine promise_of_ask nofun fun response r ho => ?_
      have hlast := requestsOf_singleton _ response
      rcases r with e | output
      · exact ⟨hlast, trivial⟩
      · exact ⟨hlast, trivial⟩

/-! ### Corrections -/

/-- If not all elements of a list have an image, there is one that has none. -/
theorem exists_eq_none_of_mapM {f : α → Option β} {xs : List α} (h : xs.mapM f = none) :
    ∃ x, f x = none := by
  induction xs with
  | nil => cases h
  | cons x xs ih =>
      cases hx : f x with
      | none => exact ⟨x, hx⟩
      | some y =>
          rw [List.mapM_cons, hx] at h
          cases hxs : xs.mapM f with
          | none => exact ih hxs
          | some ys =>
              rw [hxs] at h
              cases h

namespace Correction

/-- Dates can be moved unless the days are too many. -/
theorem lt_of_byRule {days : Int} {question : String} {results : List ToolResult}
    (h : byRule days question results = none) : maxShift < days := by
  simp only [byRule, broaden] at h
  rw [Option.map_eq_none_iff, Option.map_eq_none_iff] at h
  obtain ⟨call, hcall⟩ := exists_eq_none_of_mapM h
  simp only [broadened] at hcall
  split at hcall
  · rw [Option.map_eq_none_iff, DateRange.broaden] at hcall
    split at hcall
    · rename_i hlt
      have : (0 : Int) ≤ maxShift := by decide
      omega
    · cases hcall
  · cases hcall

open Archivist.Action

/-- Widening the terms of a search asks the graph, and does not fail. -/
theorem meets_expand (x : Expander) (question : String) (results : List ToolResult) :
    (expand x question results).Meets Ask.IsGraph fun o => ∃ calls, o = some (.ok calls) := by
  refine (x.meets_expand _).bind_ok fun expanded => ?_
  split
  · exact meets_pure ⟨_, rfl⟩
  · exact meets_pure ⟨_, rfl⟩

/-- A corrected plan has calls. -/
theorem calls_ne_nil_of_replan {c : Correction} {shortfall : Shortfall} {calls : List ToolCall}
    {r : Replan} (h : c.replan shortfall calls = some r) : r.plan.calls ≠ [] := by
  rw [replan] at h
  split at h
  · cases h
  · rename_i hne
    cases h
    simpa using hne

end Correction

namespace Corrector

open Archivist.Action

/-- A correction is chosen without fail. -/
theorem meets_choose (c : Corrector) (question : String) (results : List ToolResult)
    (byRule : List (Correction × List ToolCall)) :
    (c.choose question results byRule).Meets Ask.IsGraph
      fun o => ∃ found, o = some (.ok found) := by
  rw [choose]
  split
  · exact meets_pure ⟨_, rfl⟩
  · exact (Correction.meets_expand c.expander question results).bind_ok fun calls =>
      meets_pure ⟨_, rfl⟩

/-- What a correction meets: it does not fail, it gives a plan with calls if it gives one, and it
gives up only over days that are too many. -/
def Sound (c : Corrector) : Option (Except Failure (Option Replan)) → Prop
  | none => maxShift < c.broadenDays
  | some (.error _) => False
  | some (.ok r) => ∀ replan, r = some replan → replan.plan.calls ≠ []

/-- A correction asks the knowledge graph alone, and its plan is sound. -/
theorem meets_correct (c : Corrector) (question : String) (shortfall : Shortfall)
    (results : List ToolResult) :
    (c.correct question shortfall results).Meets Ask.IsGraph c.Sound := by
  rw [correct]
  split
  · rename_i h
    exact Correction.lt_of_byRule h
  · refine (c.meets_choose question results _).bind_ok fun found => ?_
    exact meets_pure fun replan h => Correction.calls_ne_nil_of_replan h

/-- **A correction has calls**, asks nothing of the language model, and cannot fail; it breaks down
over days that are too many. -/
theorem correct_promise (c : Corrector) (question : String) (shortfall : Shortfall)
    (results : List ToolResult) :
    Program.Always (Promise [] (fun r => ∀ replan, r = some replan → replan.plan.calls ≠ [])
      (maxShift < c.broadenDays)) (c.correct question shortfall results).run [] := by
  refine ((c.meets_correct question shortfall results).always
    (fun _ => Ask.IsGraph.ne_embedding) (List.forall_mem_nil _)).mono ?_
  rintro xs e ⟨hxs, he⟩
  refine ⟨?_, ?_⟩
  · exact List.sublist_nil.2 (requestsOf_eq_nil fun x hx => (hxs x hx).isForTool)
  · rcases e with (e | r) | _ | _
    · exact he.elim
    · exact he
    · exact he.imp_right fun ⟨x, hx, ho⟩ => ⟨x, hx, Exchange.ended_of_none ho⟩
    · trivial

end Corrector

end Archivist
