import Archivist.Proofs.Turn.Step
import Mathlib.Data.List.Infix

/-!
# The Course of a Search

A turn that is no small talk searches: it plans, runs tools, judges, perhaps corrects the plan and
runs tools again, and answers. `searchPaths` lists the stages that such a turn may go through.

`Desk.At` is what holds between two parts of a search: where the states of the turn stand, and the
account so far, which must be the beginning of a path. `Assistant.Stopped` is what holds where a
search halts. One rule for each kind of part says how the search goes on; a pass through the loop is
put together from them, and the whole search from its passes.

A second pass never asks for a third (`Assistant.ensures_pass_corrected`), so the loop needs no
bound (`Assistant.passes_add_two`).
-/

/-! ### The account of a turn

What a turn has done can be read off the desk: the events it has told, the exchanges it has made,
the rounds it has begun. `Desk.Account` sums them up, by the stages that have been told, the pieces
of the answer that have been told since, and the requests to the language model. Each part of a turn
adds to the account what it does: a stage (`Desk.Account.enter`), a round (`Desk.Account.round`), or
exchanges and pieces of the answer (`Desk.Account.after`).
-/

namespace Archivist

variable {env : Environment}

/-- The stage that an event tells. -/
def Event.stage? : Event → Option Stage
  | .status stage _ => some stage
  | _ => none

/-- What has been done since the session was as `s`: the stages that have been told, then pieces of
an answer, and at most these requests to the language model apart from those of tools. There has
been a round for each time that tools have been announced. -/
structure Desk.Account (s : Session env) (stages : List Stage) (pieces : List String)
    (requests : List Task) (d : Desk env) : Prop where
  told : ∃ statuses, d.events = statuses ++ pieces.map .token ∧
    statuses.map Event.stage? = stages.map some
  unfinished : d.sink.finished = false
  asked : ∃ xs, d.session.world.log = s.world.log ++ xs ∧ (requestsOf xs).Sublist requests
  rounds : d.rounds.length = stages.count .toolExecution
  calls_ne_nil : ∀ calls ∈ d.rounds, calls ≠ []

namespace Desk.Account

variable {s : Session env} {d : Desk env} {stages : List Stage} {requests : List Task}

/-- At the start nothing has been told. -/
theorem start (s : Session env) : Account s [] [] [] { session := s } where
  told := ⟨[], rfl, rfl⟩
  unfinished := rfl
  asked := ⟨[], (List.append_nil _).symm, List.Sublist.slnil⟩
  rounds := rfl
  calls_ne_nil := List.forall_mem_nil _

theorem mono {pieces : List String} (h : Account s stages pieces requests d) {more : List Task}
    (hr : requests.Sublist more) : Account s stages pieces more d :=
  { h with asked := h.asked.imp fun _ hx => ⟨hx.1, hx.2.trans hr⟩ }

/-- The account is that of the world, the sink and the rounds. -/
theorem congr {d' : Desk env} {pieces : List String} (h : Account s stages pieces requests d)
    (hw : d'.session.world = d.session.world) (hs : d'.sink = d.sink) (hr : d'.rounds = d.rounds) :
    Account s stages pieces requests d' where
  told := by
    rw [Desk.events, hs]
    exact h.told
  unfinished := by
    rw [hs]
    exact h.unfinished
  asked := by
    rw [hw]
    exact h.asked
  rounds := by
    rw [hr]
    exact h.rounds
  calls_ne_nil := by
    rw [hr]
    exact h.calls_ne_nil

/-- A status more is a stage more. -/
theorem told_concat (h : Account s stages [] requests d) (stage : Stage) (detail : Option String) :
    ∃ statuses, d.events ++ [.status stage detail] = statuses ++ [].map .token ∧
      statuses.map Event.stage? = (stages ++ [stage]).map some := by
  obtain ⟨statuses, hevents, hstages⟩ := h.told
  refine ⟨statuses ++ [.status stage detail], ?_, ?_⟩
  · simp only [hevents, List.map_nil, List.append_nil]
  · simp only [List.map_append, hstages, List.map_cons, List.map_nil, Event.stage?]

/-- Exchanges more are requests more. -/
theorem asked_append (h : Account s stages [] requests d) {w : World env} {xs : List Exchange}
    {tasks : List Task} (hlog : w.log = d.session.world.log ++ xs)
    (hx : (requestsOf xs).Sublist tasks) :
    ∃ ys, w.log = s.world.log ++ ys ∧ (requestsOf ys).Sublist (requests ++ tasks) := by
  obtain ⟨ys, hy, hr⟩ := h.asked
  refine ⟨ys ++ xs, ?_, ?_⟩
  · rw [hlog, hy, List.append_assoc]
  · rw [requestsOf_append]
    exact hr.append hx

/-- A stage is told. -/
theorem enter (h : Account s stages [] requests d) {stage : Stage} (detail : Option String)
    (hne : stage ≠ .toolExecution) :
    Account s (stages ++ [stage]) [] requests
      (d.after [.status stage detail] d.session.world) where
  told := h.told_concat stage detail
  unfinished := h.unfinished
  asked := h.asked
  rounds := by
    rw [List.count_append, List.count_singleton, if_neg (by simpa using hne), Nat.add_zero]
    exact h.rounds
  calls_ne_nil := h.calls_ne_nil

/-- Exchanges are made, and pieces of an answer told. -/
theorem after (h : Account s stages [] requests d) {w : World env} {xs : List Exchange}
    {tasks : List Task} (hlog : w.log = d.session.world.log ++ xs)
    (hx : (requestsOf xs).Sublist tasks) (pieces : List String) :
    Account s stages pieces (requests ++ tasks) (d.after (pieces.map .token) w) where
  told := by
    obtain ⟨statuses, he, hs⟩ := h.told
    rw [List.map_nil, List.append_nil] at he
    exact ⟨statuses, congrArg (· ++ _) he, hs⟩
  unfinished := h.unfinished
  asked := h.asked_append hlog hx
  rounds := h.rounds
  calls_ne_nil := h.calls_ne_nil

/-- A round is begun. -/
theorem round (h : Account s stages [] requests d) {w : World env}
    (hasked : d.session.world.Asked Ask.IsForTool w) {calls : List ToolCall} (hne : calls ≠ [])
    (detail : Option String) :
    Account s (stages ++ [.toolExecution]) [] requests
      { d.after [.status .toolExecution detail] w with rounds := d.rounds ++ [calls] } where
  told := h.told_concat .toolExecution detail
  unfinished := h.unfinished
  asked := by
    obtain ⟨xs, hx, hq⟩ := hasked
    have hnone : (requestsOf xs).Sublist [] := List.sublist_nil.2 (requestsOf_eq_nil hq)
    have hsum := h.asked_append hx hnone
    rwa [List.append_nil] at hsum
  rounds := by
    rw [List.length_append, List.count_append, h.rounds]
    rfl
  calls_ne_nil := by
    intro calls' hmem
    rcases List.mem_append.1 hmem with hmem | hmem
    · exact h.calls_ne_nil calls' hmem
    · rwa [List.mem_singleton.1 hmem]

end Desk.Account

/-- The stages of a search that gets to its end. -/
def searchPaths : List (List Stage) :=
  [[], [.replanning], [.replanning, .toolExecution]].map fun detour =>
    [.classifying, .planning, .toolExecution, .evaluation] ++ detour ++ [.synthesis]

/-- What a search asks the language model for, apart from what its tools do. -/
def searchRequests : List Task := [.planning, .evaluation, .synthesis]

/-- How far a search has come. -/
structure Progress where
  state : TurnState
  /-- The number of corrections. -/
  replans : ℕ := 0
  /-- The stages that have been told. -/
  stages : List Stage
  /-- What the language model may have been asked for. -/
  requests : List Task := []

/-- The search is on one of the paths. -/
def Progress.OnCourse (p : Progress) : Prop :=
  (∃ path ∈ searchPaths, p.stages <+: path) ∧ p.requests.Sublist searchRequests

instance (p : Progress) : Decidable p.OnCourse :=
  inferInstanceAs (Decidable ((∃ path ∈ searchPaths, p.stages <+: path) ∧ _))

/-- The desk of a search that has come this far, with results of a number of calls. -/
structure Desk.At (s : Session env) (p : Progress) (calls : ℕ) (d : Desk env) : Prop where
  account : Account s p.stages [] p.requests d
  state : d.machine.state = p.state
  replans : d.machine.replans = p.replans
  calls : d.rounds.flatten.length = calls

/-- The last exchange came out like this. -/
def Desk.LastEnded (s : Session env) (d : Desk env) (ended : Synthesis.Ended) : Prop :=
  ∃ front x, d.session.world.log = s.world.log ++ front ++ [x] ∧ x.ended = ended

/-- What makes a turn halt: the last exchange failed or broke down, or the time is up. Or dates are
to be moved by more days than there are. -/
inductive Assistant.Halts (a : Assistant) (s : Session env) (d : Desk env) : Halt → Prop where
  | failed {e : Failure} (h : d.LastEnded s (.failed e)) : Halts a s d (.failed e)
  | brokenDown (h : d.LastEnded s .brokenDown) : Halts a s d .crashed
  | tooManyDays (h : maxShift < a.corrector.broadenDays) : Halts a s d .crashed
  | late (h : s.world.now + a.allowance ≤ d.session.world.now) : Halts a s d .late

/-- What holds where a search halts: it was on one of the paths, and pieces of the answer have been
told only at its end. -/
structure Assistant.Stopped (a : Assistant) (s : Session env) (h : Halt) (d : Desk env) : Prop where
  account : ∃ stages pieces, d.Account s stages pieces searchRequests ∧
    (∃ path ∈ searchPaths, stages <+: path) ∧ (pieces ≠ [] → stages.getLast? = some .synthesis)
  halts : a.Halts s d h

/-- Where a plan is made. -/
def Progress.admitted : Progress where
  state := .planning
  stages := [.classifying]

/-- Where tools run for the first time. -/
def Progress.planned : Progress where
  state := .toolExecution
  stages := [.classifying, .planning]
  requests := [.planning]

/-- Where tools run for the second time. -/
def Progress.corrected : Progress where
  state := .toolExecution
  replans := 1
  stages := [.classifying, .planning, .toolExecution, .evaluation, .replanning]
  requests := [.planning, .evaluation]

/-- Where an answer is begun. -/
def Progress.searched (detour : List Stage) (replans : ℕ) : Progress where
  state := .synthesis
  replans
  stages := [.classifying, .planning, .toolExecution, .evaluation] ++ detour
  requests := [.planning, .evaluation]

/-- The desk of a search that has all its results. -/
def Desk.Searched (s : Session env) (calls : ℕ) (d : Desk env) : Prop :=
  ∃ detour ∈ [[], [.replanning], [.replanning, .toolExecution]], ∃ replans,
    d.At s (.searched detour replans) calls

/-- A plan that is carried out has calls. -/
theorem Plan.calls_finalize_ne_nil (p : Plan) (h : Hints) (question : String) :
    (p.finalize h question).calls ≠ [] := by
  simp only [finalize]
  split
  · exact List.cons_ne_nil _ _
  · rename_i hne
    rwa [isEmpty, List.isEmpty_iff] at hne

/-- Only the state and the number of corrections count for a step. -/
theorem TurnMachine.exists_apply {m₀ m m₁ : TurnMachine} {e : TurnEvent} (hs : m.state = m₀.state)
    (hr : m.replans = m₀.replans) (h : m₀.apply e = .ok m₁) :
    ∃ m', m.apply e = .ok m' ∧ m'.state = m₁.state ∧ m'.replans = m₁.replans := by
  have heff : m.effective e = m₀.effective e := by
    rw [effective, effective, canReplan, canReplan, hr]
  simp only [apply] at h ⊢
  rw [hs, hr, heff]
  cases hn : m₀.state.next (m₀.effective e) with
  | error failure =>
      rw [hn] at h
      cases h
  | ok next =>
      rw [hn] at h
      cases h
      exact ⟨_, rfl, rfl, rfl⟩

namespace Desk.At

variable {a : Assistant} {s : Session env} {p : Progress} {calls : ℕ} {d : Desk env}
  {E : Halt → Desk env → Prop}

/-- A search that is on course has stopped where it halts. -/
theorem stopped (h : d.At s p calls) (hp : p.OnCourse) {e : Halt} (he : a.Halts s d e) :
    a.Stopped s e d :=
  ⟨⟨p.stages, [], h.account.mono hp.2, hp.1, nofun⟩, he⟩

/-- Telling a stage brings a search on by this stage. -/
theorem enter (h : d.At s p calls) {stage : Stage} (hne : stage ≠ .toolExecution)
    (detail : Option String) :
    (Step.enter stage detail).Ensures d
      (fun _ d' => d'.At s { p with stages := p.stages ++ [stage] } calls) E :=
  Step.ensures_tell ⟨h.account.enter detail hne, h.state, h.replans, h.calls⟩

/-- A step that the state allows takes the search further. -/
theorem advance (h : d.At s p calls) {e : TurnEvent} {m : TurnMachine}
    (hm : TurnMachine.apply ⟨p.state, p.replans, []⟩ e = .ok m) :
    (Step.advance e).Ensures d
      (fun _ d' => d'.At s { p with state := m.state, replans := m.replans } calls) E := by
  obtain ⟨m', hm', hstate, hreplans⟩ := TurnMachine.exists_apply h.state h.replans hm
  exact Step.ensures_advance hm' ⟨h.account.congr rfl rfl rfl, hstate, hreplans, h.calls⟩

/-- An action that keeps its promise takes the search further. -/
theorem perform {α : Type} {tasks : List Task} {U : α → Prop} {m : Action α} (h : d.At s p calls)
    (hm : Program.Always (Promise tasks U (maxShift < a.corrector.broadenDays)) m.run [])
    (hp : Progress.OnCourse { p with requests := p.requests ++ tasks }) :
    (Step.perform (some (s.world.now + a.allowance)) m).Ensures d
      (fun x d' => U x ∧ d'.At s { p with requests := p.requests ++ tasks } calls)
      (a.Stopped s) := by
  have hat : ∀ xs w, d.session.world.Spoke xs w → (requestsOf xs).Sublist tasks →
      (d.after [] w).At s { p with requests := p.requests ++ tasks } calls := fun xs w hw hx =>
    ⟨h.account.after hw.log hx [], h.state, h.replans, h.calls⟩
  have hlast : ∀ xs w ended, d.session.world.Spoke xs w →
      (∃ x, xs.getLast? = some x ∧ x.ended = ended) → (d.after [] w).LastEnded s ended := by
    rintro xs w ended hw ⟨x, hx, hended⟩
    obtain ⟨ys, hy, -⟩ := h.account.asked
    obtain ⟨front, rfl⟩ := List.getLast?_eq_some_iff.1 hx
    refine ⟨ys ++ front, x, ?_, hended⟩
    calc w.log = d.session.world.log ++ (front ++ [x]) := hw.log
      _ = s.world.log ++ (ys ++ front) ++ [x] := by simp [hy]
  refine Step.ensures_perform hm ?_ ?_ ?_ ?_
  · rintro xs w x hw ⟨hx, hu⟩
    exact ⟨hu, hat xs w hw hx⟩
  · rintro xs w e hw ⟨hx, he⟩
    exact (hat xs w hw hx).stopped hp (.failed (hlast xs w _ hw he))
  · rintro xs w hw ⟨hx, he⟩
    refine (hat xs w hw hx).stopped hp ?_
    rcases he with he | he
    · exact .tooManyDays he
    · exact .brokenDown (hlast xs w _ hw he)
  · rintro xs w t hw hlimit ht ⟨hx, -⟩
    cases hlimit
    exact (hat xs w hw hx).stopped hp (.late ht)

/-- A round takes the search further by the results of its calls. -/
theorem round (h : d.At s p calls) {workshop : Workshop} {plan : Plan} (hne : plan.calls ≠ [])
    (hp : Progress.OnCourse { p with stages := p.stages ++ [.toolExecution] }) :
    (Step.round workshop (some (s.world.now + a.allowance)) plan).Ensures d
      (fun results d' => d'.At s { p with stages := p.stages ++ [.toolExecution] }
        (calls + results.length))
      (a.Stopped s) := by
  have hat : ∀ w, d.session.world.Asked Ask.IsForTool w →
      Desk.At s { p with stages := p.stages ++ [.toolExecution] } (calls + plan.calls.length)
        { d.after [.status .toolExecution (some (Text.joined ", " plan.names))] w with
          rounds := d.rounds ++ [plan.calls] } := fun w hw =>
    ⟨h.account.round hw hne _, h.state, h.replans, by simp [h.calls]⟩
  refine Step.ensures_round ?_ ?_
  · intro w results hw hcalls
    rw [← List.length_map (f := (·.call)), hcalls]
    exact hat w hw
  · intro w hw ht
    exact (hat w hw).stopped hp (.late ht)

end Desk.At

namespace Assistant

variable {a : Assistant} {s : Session env} {d : Desk env} {question : String} {plan : Plan}
  {earlier : List ToolResult}

open Step

/-- The first pass gives a plan for a second one, or all results of the search. -/
theorem ensures_pass_planned (h : d.At s .planned earlier.length) (hne : plan.calls ≠ []) :
    (a.pass (some (s.world.now + a.allowance)) question plan earlier).Ensures d
      (fun r d' => match r.2 with
        | none => d'.Searched s r.1.length
        | some plan => d'.At s .corrected r.1.length ∧ plan.calls ≠ [])
      (a.Stopped s) := by
  refine (h.round hne (by decide)).bind fun results d₁ h₁ => ?_
  refine (h₁.advance rfl).bind fun _ d₂ h₂ => ?_
  refine ensures_get_bind ?_
  have hcan : d₂.machine.canReplan = true := by
    rw [TurnMachine.canReplan, h₂.replans]
    rfl
  rw [hcan, if_neg (by decide)]
  rw [← List.length_append] at h₂
  refine (h₂.enter (by decide) none).bind fun _ d₃ h₃ => ?_
  refine (h₃.perform (a.judge.evaluate_promise ..) (by decide)).bind fun shortfall? d₄ h₄ => ?_
  cases shortfall? with
  | none =>
      refine (h₄.2.advance rfl).bind fun _ d₅ h₅ => ?_
      exact ensures_pure ⟨[], by decide, 0, h₅⟩
  | some shortfall =>
      refine (h₄.2.advance rfl).bind fun _ d₅ h₅ => ?_
      refine (h₅.enter (by decide) _).bind fun _ d₆ h₆ => ?_
      refine (h₆.perform (a.corrector.correct_promise ..) (by decide)).bind fun replan? d₇ h₇ => ?_
      cases replan? with
      | none =>
          refine (h₇.2.advance rfl).bind fun _ d₈ h₈ => ?_
          exact ensures_pure ⟨[.replanning], by decide, 1, h₈⟩
      | some replan =>
          refine (h₇.2.advance rfl).bind fun _ d₈ h₈ => ?_
          exact ensures_pure ⟨h₈, h₇.1 replan rfl⟩

/-- A second pass gives all results of the search. -/
theorem ensures_pass_corrected (h : d.At s .corrected earlier.length) (hne : plan.calls ≠ []) :
    (a.pass (some (s.world.now + a.allowance)) question plan earlier).Ensures d
      (fun r d' => r.2 = none ∧ d'.Searched s r.1.length) (a.Stopped s) := by
  refine (h.round hne (by decide)).bind fun results d₁ h₁ => ?_
  refine (h₁.advance rfl).bind fun _ d₂ h₂ => ?_
  refine ensures_get_bind ?_
  have hcan : d₂.machine.canReplan = false := by
    rw [TurnMachine.canReplan, h₂.replans]
    rfl
  rw [hcan, if_pos (by decide)]
  rw [← List.length_append] at h₂
  refine (h₂.advance rfl).bind fun _ d₃ h₃ => ?_
  exact ensures_pure ⟨rfl, [.replanning, .toolExecution], by decide, 1, h₃⟩

/-- Passes that begin with a corrected plan end with the first of them. -/
theorem ensures_passes_corrected (most : ℕ) (h : d.At s .corrected earlier.length)
    (hne : plan.calls ≠ []) :
    (a.passes (some (s.world.now + a.allowance)) question (most + 1) plan earlier).Ensures d
      (fun results d' => d'.Searched s results.length) (a.Stopped s) := by
  refine (ensures_pass_corrected h hne).bind ?_
  rintro ⟨results, _⟩ d₁ ⟨rfl, h₁⟩
  exact ensures_pure h₁

/-- **Passes give the results of the whole search**, if they give any. -/
theorem ensures_passes (most : ℕ) (h : d.At s .planned earlier.length) (hne : plan.calls ≠ []) :
    (a.passes (some (s.world.now + a.allowance)) question (most + 2) plan earlier).Ensures d
      (fun results d' => d'.Searched s results.length) (a.Stopped s) := by
  refine (ensures_pass_planned h hne).bind ?_
  rintro ⟨results, _ | plan'⟩ d₁ h₁
  · exact ensures_pure h₁
  · exact ensures_passes_corrected most h₁.1 h₁.2

/-- **There is no third pass**: whatever the bound on passes is, the second is the last. -/
theorem passes_add_two (most : ℕ) (h : d.At s .planned earlier.length) (hne : plan.calls ≠ []) :
    (a.passes (some (s.world.now + a.allowance)) question (most + 2) plan earlier).run.run d =
      (a.passes (some (s.world.now + a.allowance)) question 2 plan earlier).run.run d := by
  refine (ensures_pass_planned h hne).run_bind_congr ?_
  rintro ⟨results, _ | plan'⟩ d₁ h₁
  · rfl
  · refine (ensures_pass_corrected h₁.1 h₁.2).run_bind_congr ?_
    rintro ⟨results', _⟩ d₂ ⟨rfl, -⟩
    rfl

/-- Looking into a question ends with a search that is complete, or stops on its course. -/
theorem ensures_lookInto {history : List Remark} {hints : Hints} (h : d.At s .admitted 0) :
    (a.lookInto (some (s.world.now + a.allowance)) question history hints).Ensures d
      (fun results d' => d'.Searched s results.length) (a.Stopped s) := by
  refine (h.enter (by decide) none).bind fun _ d₁ h₁ => ?_
  refine (h₁.perform (a.planner.plan_promise ..) (by decide)).bind fun plan d₂ h₂ => ?_
  refine (h₂.2.advance rfl).bind fun _ d₃ h₃ => ?_
  exact ensures_passes 0 h₃ (plan.calls_finalize_ne_nil hints question)

end Assistant

end Archivist
