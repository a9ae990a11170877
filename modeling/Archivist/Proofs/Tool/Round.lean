import Archivist.Proofs.Concurrency.Settled
import Archivist.Proofs.Tool.Question
import Archivist.Tool.Round

/-!
# Rounds

A round gives a result for each of its calls, in their order, unless its time is up; and in any case
it asks only what tools ask. If answers do not change, it comes to the same results wherever it is
run (`Workshop.comesTo_round`).
-/

namespace Archivist.Workshop

variable {env : Environment} {limit : ℕ} {calls : List ToolCall} {w : World env}

/-- A lane asks what the tool of its call asks. -/
theorem asks_lane (s : Workshop) (call : ToolCall) : (s.lane call).Asks Ask.IsForTool := by
  simp only [lane]
  split
  · trivial
  · exact (s.toolbox.asks_run _).run

/-- A round asks what tools ask. -/
theorem round_asked (s : Workshop) (limit : Option ℕ) (calls : List ToolCall) (w : World env) :
    w.Asked Ask.IsForTool (s.round limit calls w).2 := by
  refine World.join_asked w limit fun l hl => ?_
  obtain ⟨call, -, rfl⟩ := List.mem_map.1 hl
  exact s.asks_lane call

/-- The results of a round are those of its lanes. -/
theorem round_fst (s : Workshop) (limit : Option ℕ) (calls : List ToolCall) (w : World env) :
    (s.round limit calls w).1 =
      (w.join limit (calls.map s.lane)).1.map (List.zipWith s.result calls) := rfl

/-- A round leaves the world as its lanes do. -/
theorem round_snd (s : Workshop) (limit : Option ℕ) (calls : List ToolCall) (w : World env) :
    (s.round limit calls w).2 = (w.join limit (calls.map s.lane)).2 := rfl

/-- The results of endings are those of their calls. -/
theorem map_call_zipWith (s : Workshop) {endings : List (Ending ToolOutput)}
    (hlen : endings.length = calls.length) :
    (List.zipWith s.result calls endings).map (·.call) = calls := by
  have hcall : ∀ call ending, (s.result call ending).call = call := by
    rintro call ((e | output) | _ | _) <;> rfl
  calc (List.zipWith s.result calls endings).map (·.call)
      = (calls.zip endings).map Prod.fst := by
        rw [List.map_zipWith, List.zip, List.map_zipWith]
        simp only [hcall]
    _ = calls := List.map_fst_zip (Nat.le_of_eq hlen.symm)

/-- **Each call has a result.** -/
theorem map_call_of_round {s : Workshop} {results : List ToolResult}
    (h : (s.round (some limit) calls w).1 = some results) : results.map (·.call) = calls := by
  obtain ⟨endings, he, rfl⟩ := Option.map_eq_some_iff.1 h
  have hlen := World.length_of_join he
  rw [List.length_map] at hlen
  exact s.map_call_zipWith hlen

/-- There are no results only when the time is up. -/
theorem le_now_of_round {s : Workshop} (h : (s.round (some limit) calls w).1 = none) :
    limit ≤ (s.round (some limit) calls w).2.now :=
  World.le_now_of_join (Option.map_eq_none_iff.1 h)

/-- The lane of a call has not begun. -/
theorem isNew_lane (s : Workshop) (call : ToolCall) : (s.lane call).IsNew := by
  simp only [lane]
  split <;> trivial

/-- **A round comes to the results that it always comes to**, whatever has been done before it. -/
theorem comesTo_round (s : Workshop) (limit : ℕ) (calls : List ToolCall) (L : Lore) :
    World.ComesTo (fun w : World env => s.round (some limit) calls w) L
      (some (List.zipWith s.result calls (calls.map fun call => (s.lane call).ending L))) := by
  have hjoin : World.ComesTo (fun w : World env => w.join (some limit) (calls.map s.lane)) L
      (some ((calls.map s.lane).map (Lane.ending L))) := by
    refine World.comesTo_join (fun l hl => ?_) (fun hnone => ?_) L
    · obtain ⟨call, -, rfl⟩ := List.mem_map.1 hl
      exact s.isNew_lane call
    · cases hnone
  refine ⟨hjoin.leads, hjoin.calm, fun w hcovered hw ht => ?_⟩
  rw [round_fst, hjoin.eq w hcovered hw ht, List.map_map]
  rfl

end Archivist.Workshop
