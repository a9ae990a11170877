import Archivist.Proofs.Turn.Ending
import Mathlib.Data.List.Nodup

/-!
# The Course of a Turn

What a turn tells about its stages, and whom it asks for what, follows from the path it takes. The
loop of a search runs tools twice at most, so everything is bounded that is done once in a pass.

## Main results

* `Assistant.turn_course`: the stages of a turn, and the bounds on what it does.
-/

namespace Archivist

variable {env : Environment}

/-- The stages that have been told. -/
def stagesOf (events : List Event) : List Stage := events.filterMap Event.stage?

/-- What all turns keep to that have made these exchanges. -/
structure Assistant.Course (r : TurnRequest) (s : Session env) (asked : List Exchange)
    (d : Desk env) : Prop where
  log : d.session.world.log = s.world.log ++ asked
  /-- The stages are the beginning of a path, and a whole path if the turn gets to its end. -/
  stages : ∃ path ∈ r.paths, stagesOf d.events <+: path ∧
    ((∃ citations latency calls, .done citations latency calls ∈ d.events) →
      stagesOf d.events = path)
  /-- Pieces of an answer come after the last stage. -/
  tokens : ∀ before text after, d.events = before ++ .token text :: after →
    .chitchat ∈ stagesOf before ∨ .synthesis ∈ stagesOf before
  rounds : d.rounds.length ≤ 2
  calls_ne_nil : ∀ calls ∈ d.rounds, calls ≠ []
  plannings : (asked.filterMap (·.question.task?)).count .planning ≤ 1
  evaluations : (asked.filterMap (·.question.task?)).count .evaluation ≤ 1
  /-- All calls of all rounds are counted; a search has at least one. -/
  toolCalls : ∀ citations latency calls, .done citations latency calls ∈ d.events →
    calls = d.rounds.flatten.length ∧ (r.isSmalltalk = false → 1 ≤ calls)
  /-- Small talk is free, looks up no embedding, and asks the language model at most once. -/
  smalltalk : r.isSmalltalk = true → d.session.limiter = s.limiter ∧
    d.session.world.cache = s.world.cache ∧ asked.length ≤ 1 ∧
      ∀ x ∈ asked, x.question.task? = some .chitchat
  /-- A search that is not admitted asks nobody and looks up nothing. -/
  rejected : r.isSmalltalk = false → ∀ e,
    (s.limiter.acquire r.caller s.world.clock).1 = .error e → d.session.world = s.world

/-! ### Stages that have been told -/

/-- A list of statuses tells its stages. -/
theorem stagesOf_statuses {statuses : List Event} {stages : List Stage}
    (h : statuses.map Event.stage? = stages.map some) : stagesOf statuses = stages := by
  induction statuses generalizing stages with
  | nil =>
      cases stages with
      | nil => rfl
      | cons stage stages => cases h
  | cons e statuses ih =>
      cases stages with
      | nil => cases h
      | cons stage stages =>
          obtain ⟨he, h⟩ := List.cons.inj h
          rw [stagesOf, List.filterMap_cons_some he, ← stagesOf, ih h]

/-- What tells no stage. -/
theorem stagesOf_eq_nil {events : List Event} (h : ∀ e ∈ events, e.stage? = none) :
    stagesOf events = [] :=
  List.filterMap_eq_nil_iff.2 h

@[simp] theorem stagesOf_append (xs ys : List Event) :
    stagesOf (xs ++ ys) = stagesOf xs ++ stagesOf ys :=
  List.filterMap_append

/-- Pieces of an answer tell no stage. -/
@[simp] theorem stagesOf_tokens (pieces : List String) : stagesOf (pieces.map .token) = [] := by
  refine stagesOf_eq_nil fun e he => ?_
  obtain ⟨piece, -, rfl⟩ := List.mem_map.1 he
  rfl

/-- An ending tells no stage. -/
theorem stagesOf_ending {last : Event} (h : last.isTerminal = true) : stagesOf [last] = [] := by
  refine stagesOf_eq_nil fun e he => ?_
  rw [List.mem_singleton.1 he]
  cases last <;> first | rfl | cases h

namespace Desk.Account

variable {s : Session env} {d : Desk env} {stages : List Stage} {pieces : List String}
  {requests : List Task}

/-- The stages that a desk has told of are those of its account. -/
theorem stagesOf_events (h : d.Account s stages pieces requests) : stagesOf d.events = stages := by
  obtain ⟨statuses, hevents, hstages⟩ := h.told
  rw [hevents, stagesOf_append, stagesOf_statuses hstages, stagesOf_tokens, List.append_nil]

/-- A piece of an answer has all stages in front of it. -/
theorem stagesOf_before_token (h : d.Account s stages pieces requests) {last : Event}
    (hlast : last.isTerminal = true) {before after : List Event} {text : String}
    (he : d.events ++ [last] = before ++ .token text :: after) :
    pieces ≠ [] ∧ stagesOf before = stages := by
  obtain ⟨statuses, hevents, hstages⟩ := h.told
  rw [hevents, List.append_assoc, List.append_eq_append_iff] at he
  -- A token among the statuses would tell a stage.
  obtain ⟨between, rfl, hrest⟩ : ∃ between, before = statuses ++ between ∧
      pieces.map Event.token ++ [last] = between ++ .token text :: after := by
    rcases he with ⟨between, hb, hr⟩ | ⟨between, hb, hr⟩
    · exact ⟨between, hb, hr⟩
    · cases between with
      | nil => exact ⟨[], by rw [hb, List.append_nil, List.append_nil], hr.symm⟩
      | cons e between =>
          obtain ⟨rfl, -⟩ := List.cons.inj hr
          have hmem : Event.token text ∈ statuses := by simp [hb]
          have hstage : (Event.token text).stage? ∈ stages.map some :=
            hstages ▸ List.mem_map_of_mem hmem
          obtain ⟨stage, -, h⟩ := List.mem_map.1 hstage
          cases h
  have hnone : stagesOf between ++ stagesOf (.token text :: after) = [] := by
    rw [← stagesOf_append, ← hrest, stagesOf_append, stagesOf_tokens, stagesOf_ending hlast]
    rfl
  constructor
  · rintro rfl
    have hmem : Event.token text ∈ [last] := by
      rw [List.map_nil, List.nil_append] at hrest
      simp [hrest]
    rw [← List.mem_singleton.1 hmem] at hlast
    cases hlast
  · rw [stagesOf_append, stagesOf_statuses hstages, (List.append_eq_nil_iff.1 hnone).1,
      List.append_nil]

/-- Only the ending of a turn ends it. -/
theorem eq_of_isTerminal (h : d.Account s stages pieces requests) {last e : Event}
    (he : e ∈ d.events ++ [last]) (ht : e.isTerminal = true) : e = last := by
  rw [List.mem_append, List.mem_singleton] at he
  refine he.resolve_left fun hmem => ?_
  rw [h.isTerminal_eq_false hmem] at ht
  cases ht

/-- The requests of a kind that tools do not make are counted by the account. -/
theorem count_task_le_one (hr : requests.Nodup) {xs : List Exchange}
    (hx : (requestsOf xs).Sublist requests) {task : Task} (ht : task ≠ .rerank) :
    (xs.filterMap (·.question.task?)).count task ≤ 1 := by
  rw [← List.count_filter (p := (· ≠ .rerank)) (by simpa using ht), ← requestsOf]
  exact List.nodup_iff_count_le_one.1 (hr.sublist hx) task

end Desk.Account

/-! ### Turns -/

/-- Lists that are not empty have at least as many elements as there are lists. -/
theorem length_le_length_flatten {α : Type} {rows : List (List α)} (h : ∀ row ∈ rows, row ≠ []) :
    rows.length ≤ rows.flatten.length := by
  induction rows with
  | nil => exact Nat.le_refl 0
  | cons row rows ih =>
      have hrow : 0 < row.length := List.length_pos_iff.2 (h row List.mem_cons_self)
      have hrows := ih fun row' hmem => h row' (List.mem_cons_of_mem row hmem)
      simp only [List.length_cons, List.flatten_cons, List.length_append]
      omega

/-- No path runs tools more than twice, and a search runs them. -/
theorem count_toolExecution_le {r : TurnRequest} {path : List Stage} (h : path ∈ r.paths) :
    path.count .toolExecution ≤ 2 ∧ (r.isSmalltalk = false → 1 ≤ path.count .toolExecution) := by
  rw [TurnRequest.paths] at h
  split at h
  · rename_i hr
    rw [List.mem_singleton.1 h, hr]
    exact ⟨by decide, fun hr' => Bool.noConfusion hr'⟩
  · have hall : ∀ path ∈ searchPaths,
        path.count .toolExecution ≤ 2 ∧ 1 ≤ path.count .toolExecution := by decide
    exact ⟨(hall path h).1, fun _ => (hall path h).2⟩

namespace Assistant

variable {a : Assistant} {r : TurnRequest} {s : Session env} {d : Desk env}

/-- The results of a turn that gets to its end are those of all calls of all rounds. -/
theorem Driven.length_results {results : List ToolResult} (h : a.Driven r s (.ok results) d) :
    results.length = d.rounds.flatten.length := by
  cases h with
  | chatted _ h =>
      obtain ⟨pieces, ha⟩ := h.account
      rw [List.length_eq_zero_iff.1 ha.rounds]
      rfl
  | answered _ _ h => exact h.calls.symm

/-- Small talk leaves the limiter and the cache as they are. -/
theorem Driven.smalltalk {o : Except Halt (List ToolResult)} (h : a.Driven r s o d)
    (hr : r.isSmalltalk = true) : d.Chatted s := by
  cases h with
  | chatted _ h => exact h
  | chatHalted _ h => exact h
  | rejected hr' | answered hr' | stopped hr' =>
      rw [hr] at hr'
      cases hr'

/-- A search that is not admitted leaves the world as it is. -/
theorem Driven.world_eq {o : Except Halt (List ToolResult)} (h : a.Driven r s o d)
    (hr : r.isSmalltalk = false) {e : Failure}
    (hl : (s.limiter.acquire r.caller s.world.clock).1 = .error e) :
    d.session.world = s.world := by
  cases h with
  | chatted hr' | chatHalted hr' =>
      rw [hr] at hr'
      cases hr'
  | rejected _ _ _ hs => rw [hs]
  | answered _ hl' | stopped _ hl' =>
      rw [hl'] at hl
      cases hl

/-- **Every turn keeps to the course**, whatever the collaborators do. -/
theorem turn_course (a : Assistant) (r : TurnRequest) (s : Session env) :
    ∃ asked, Course r s asked (a.turn r s) := by
  obtain ⟨o, d, -, hd, hend, -⟩ := turn_endsWith a r s
  -- The account that a turn gives of itself carries all parts of the course.
  obtain ⟨path, hpath, stages, pieces, requests, ha, hnodup, hbegins, hok, hpieces⟩ :=
    hd.exists_account
  obtain ⟨asked, hlog, hrequests⟩ := ha.asked
  have hlast : (a.endingOf s d o).isTerminal = true := by
    rcases o with e | results <;> rfl
  have hstages : stagesOf (a.turn r s).events = stages := by
    rw [hend.events, stagesOf_append, ha.stagesOf_events, stagesOf_ending hlast, List.append_nil]
  -- A terminal event is the last one, so that a done event tells how the turn ended.
  have hdone : ∀ citations latency calls, .done citations latency calls ∈ (a.turn r s).events →
      ∃ results, o = .ok results ∧ calls = results.length := by
    intro citations latency calls hmem
    have he := ha.eq_of_isTerminal (hend.events ▸ hmem) rfl
    rcases o with e | results
    · cases he
    · cases he
      exact ⟨results, rfl, rfl⟩
  refine ⟨asked, {
    log := by rw [hend.session, hlog]
    stages := ⟨path, hpath, by rwa [hstages], ?_⟩
    tokens := ?_
    rounds := ?_
    calls_ne_nil := by
      rw [hend.rounds]
      exact ha.calls_ne_nil
    plannings := Desk.Account.count_task_le_one hnodup hrequests (by decide)
    evaluations := Desk.Account.count_task_le_one hnodup hrequests (by decide)
    toolCalls := ?_
    smalltalk := ?_
    rejected := ?_ }⟩
  · rintro ⟨citations, latency, calls, hmem⟩
    obtain ⟨results, rfl, -⟩ := hdone _ _ _ hmem
    rw [hstages, hok rfl]
  · intro before text after he
    rw [hend.events] at he
    obtain ⟨hne, hbefore⟩ := ha.stagesOf_before_token hlast he
    rw [hbefore]
    exact hpieces hne
  · rw [hend.rounds, ha.rounds]
    exact (hbegins.sublist.count_le _).trans (count_toolExecution_le hpath).1
  · intro citations latency calls hmem
    obtain ⟨results, rfl, rfl⟩ := hdone _ _ _ hmem
    rw [hend.rounds, hd.length_results]
    refine ⟨rfl, fun hr => ?_⟩
    calc 1 ≤ path.count .toolExecution := (count_toolExecution_le hpath).2 hr
      _ = d.rounds.length := by rw [ha.rounds, hok rfl]
      _ ≤ d.rounds.flatten.length := length_le_length_flatten ha.calls_ne_nil
  · intro hr
    obtain ⟨xs, hw, hlen, hxs⟩ := (hd.smalltalk hr).asked
    obtain rfl : xs = asked := List.append_cancel_left (hw.log.symm.trans hlog)
    rw [hend.session]
    exact ⟨(hd.smalltalk hr).limiter, hw.cache, hlen, hxs⟩
  · intro hr e hl
    rw [hend.session]
    exact hd.world_eq hr hl

end Assistant

end Archivist
