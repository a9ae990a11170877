import Archivist.Proofs.Concurrency.Permits
import Archivist.Proofs.Concurrency.Settled
import Archivist.Proofs.Tool.Round
import Archivist.Turn.Assembly
import Mathlib.Logic.Relation

/-!
# The Floor of a Workshop

A workshop takes any number of rounds at a time. Their lanes stand on one floor: they share the
permits, the cache of embeddings and the collaborators, and take turns in any order
(`Workshop.Step`). Rounds begin whenever they like, and whoever waits for one may give it up.

## Main results

* `Workshop.rounds_on_floor`: each round comes to a result for each of its calls; never more lanes
  are under way than there are permits; lanes come to their ends; and a call that is not cut off
  comes to one result, whatever other calls there are.
* `Workshop.reaches_round`, `Workshop.exists_results_of_round`: a round by itself is one way in
  which lanes take turns on a floor, and without a limit to its time it has its results.
-/

namespace Archivist

/-- A result is data or an error, and says which. -/
def ToolResult.IsClear (x : ToolResult) : Prop :=
  (x.success = true ∧ x.data ≠ none ∧ x.error = none) ∨
    (x.success = false ∧ x.data = none ∧ x.error ≠ none)

/-- A round on a floor. -/
structure Batch where
  calls : List ToolCall
  /-- The place of the lane of the first call; those of the others are behind it. -/
  first : ℕ

/-- The lanes of a round. -/
def Batch.lanes (r : Batch) (ls : List (Lane ToolOutput)) : List (Lane ToolOutput) :=
  (ls.drop r.first).take r.calls.length

/-- A workshop at work. -/
structure Floor (env : Environment) where
  world : World env
  /-- The lanes of all rounds that have ever begun. -/
  lanes : List (Lane ToolOutput)
  /-- The rounds that have begun and have not been given up. -/
  rounds : List Batch

variable {env : Environment} {r : Batch} {ls : List (Lane ToolOutput)}

namespace Batch

/-- A round has a lane for each of its calls. -/
theorem length_lanes (h : r.first + r.calls.length ≤ ls.length) :
    (r.lanes ls).length = r.calls.length := by
  rw [lanes, List.length_take, List.length_drop]
  omega

/-- The lane of a call. -/
theorem getElem?_lanes {i : ℕ} {call : ToolCall} (h : r.calls[i]? = some call) :
    (r.lanes ls)[i]? = ls[r.first + i]? := by
  obtain ⟨hi, -⟩ := List.getElem?_eq_some_iff.1 h
  rw [lanes, List.getElem?_take_of_lt hi, List.getElem?_drop]

end Batch

namespace Workshop

/-- The results of a round, once all of its lanes have ended. -/
def results? (s : Workshop) (r : Batch) (ls : List (Lane ToolOutput)) : Option (List ToolResult) :=
  ((r.lanes ls).mapM Lane.ending?).map (List.zipWith s.result r.calls)

/-- The floor before the first round. -/
def opening (s : Workshop) (limits : CacheLimits) (state : env.State) (now clock : ℕ) :
    Floor env where
  world := { now, clock, cache := .fresh limits, permits := { free := s.parallel }, state }
  lanes := []
  rounds := []

/-- What can happen on a floor. -/
inductive Step (s : Workshop) (f : Floor env) : Floor env → Prop where
  /-- A round begins. -/
  | began (calls : List ToolCall) :
      Step s f { f with
        lanes := f.lanes ++ calls.map s.lane
        rounds := f.rounds ++ [⟨calls, f.lanes.length⟩] }
  /-- A lane has its turn. -/
  | acted {i : ℕ} {l l' : Lane ToolOutput} {w : World env} (hl : f.lanes[i]? = some l)
      (h : f.world.act i l = some (l', w)) :
      Step s f { f with world := w, lanes := f.lanes.set i l' }
  /-- Time passes. The clock never goes back. -/
  | waited {now clock : ℕ} (hnow : f.world.now ≤ now) (hclock : f.world.clock ≤ clock) :
      Step s f { f with world := { f.world with now, clock } }
  /-- Who waits for a round gives it up. -/
  | left (n : ℕ) : Step s f { f with rounds := f.rounds.eraseIdx n }
  /-- A lane of a round that has been given up is dropped. -/
  | dropped {i : ℕ} {l : Lane ToolOutput} (hl : f.lanes[i]? = some l)
      (hi : ∀ r ∈ f.rounds, i < r.first ∨ r.first + r.calls.length ≤ i) :
      Step s f { f with world := f.world.abandon i l, lanes := f.lanes.set i (.ended .late) }
  /-- Somebody else asks a collaborator. -/
  | asked (q : Ask) : Step s f { f with world := (f.world.respond q).2 }
  /-- The cache drops what is too old. -/
  | purged :
      Step s f { f with
        world := { f.world with cache := (f.world.cache.purge f.world.clock).2 } }

/-- The floors that a workshop comes to from one on which no round has begun. -/
def Reaches (s : Workshop) (start f : Floor env) : Prop := Relation.ReflTransGen s.Step start f

variable {s : Workshop} {f f' : Floor env} {results : List ToolResult}

/-! ### Results -/

/-- Every result is clear. -/
theorem isClear_result (s : Workshop) (call : ToolCall) (e : Ending ToolOutput) :
    (s.result call e).IsClear := by
  match e with
  | .value (.ok output) => exact .inl ⟨rfl, Option.some_ne_none _, rfl⟩
  | .value (.error e) | .crashed | .late => exact .inr ⟨rfl, rfl, Option.some_ne_none _⟩

/-- A round whose lanes have ended has a result for each of its calls, in their order. -/
theorem exists_results? (hplaced : r.first + r.calls.length ≤ ls.length)
    (hends : ∀ l ∈ r.lanes ls, ∃ e, l = .ended e) :
    ∃ results, s.results? r ls = some results ∧ results.map (·.call) = r.calls ∧
      ∀ x ∈ results, x.IsClear := by
  obtain ⟨endings, hendings⟩ := World.exists_mapM_ending? hends
  have hlength : endings.length = r.calls.length := by
    rw [← Batch.length_lanes hplaced, World.eq_map_ended hendings, List.length_map]
  refine ⟨List.zipWith s.result r.calls endings, by rw [results?, hendings, Option.map_some],
    s.map_call_zipWith hlength, fun x hx => ?_⟩
  obtain ⟨n, hn⟩ := List.mem_iff_getElem?.1 hx
  obtain ⟨call, e, -, -, rfl⟩ := List.getElem?_zipWith_eq_some.1 hn
  exact s.isClear_result call e

/-- The result of a call is that of the ending of its lane. -/
theorem getElem?_of_results? {i : ℕ} {call : ToolCall} {l : Lane ToolOutput}
    (h : s.results? r ls = some results) (hcall : r.calls[i]? = some call)
    (hl : ls[r.first + i]? = some l) :
    ∃ e, l = .ended e ∧ results[i]? = some (s.result call e) := by
  obtain ⟨endings, hendings, rfl⟩ := Option.map_eq_some_iff.1 h
  rw [← Batch.getElem?_lanes hcall, World.eq_map_ended hendings, List.getElem?_map] at hl
  obtain ⟨e, he, rfl⟩ := Option.map_eq_some_iff.1 hl
  exact ⟨e, rfl, List.getElem?_zipWith_eq_some.2 ⟨call, e, hcall, he, rfl⟩⟩

/-! ### What every floor keeps to -/

/-- The lane of each call of a round ends as that call always does, or has been cut off. -/
def Settles (s : Workshop) (L : Lore) (f : Floor env) : Prop :=
  ∀ r ∈ f.rounds, ∀ i call, r.calls[i]? = some call → ∃ l, f.lanes[r.first + i]? = some l ∧
    (l = .ended .late ∨ l.ending L = (s.lane call).ending L)

/-- What holds of lanes that have ended with a failure and of lanes that need a permit and have not
begun holds of the lanes of calls. -/
theorem forall_mem_lane {P : Lane ToolOutput → Prop} {calls : List ToolCall}
    (hended : ∀ e, P (.ended (.value (.error e))))
    (hready : ∀ p, P (.ready true (some s.allowance) p)) : ∀ l ∈ calls.map s.lane, P l := by
  refine List.forall_mem_map.2 fun call _ => ?_
  rw [lane]
  split
  · exact hended _
  · exact hready _

/-- The lanes of calls join the others. -/
theorem admits_append_lanes {w : World env} (h : w.Admits s.parallel ls) (calls : List ToolCall) :
    w.Admits s.parallel (ls ++ calls.map s.lane) :=
  h.append (forall_mem_lane (fun _ => trivial) fun _ => ⟨rfl, rfl⟩)
    (forall_mem_lane (fun _ => rfl) fun _ => rfl) (forall_mem_lane (fun _ => rfl) fun _ => rfl)

/-- Before the first round nobody holds a permit. -/
theorem admits_opening (s : Workshop) (limits : CacheLimits) (state : env.State) (now clock : ℕ) :
    (s.opening limits state now clock).world.Admits s.parallel ([] : List (Lane ToolOutput)) where
  bounded := List.forall_mem_nil _
  serves := (Gate.Serves.of_free s.parallel).congr rfl fun _ => iff_of_false not_false
    fun ⟨_, hl, _⟩ => List.not_mem_nil (List.mem_of_getElem? hl)

/-- At least one call can run at a time. -/
theorem parallel_pos (s : Workshop) : 0 < s.parallel :=
  Nat.lt_of_lt_of_le Nat.one_pos (Nat.le_max_right _ _)

namespace Step

/-- The permits are counted on. -/
theorem admits (h : s.Step f f') (ha : f.world.Admits s.parallel f.lanes) :
    f'.world.Admits s.parallel f'.lanes := by
  cases h with
  | began calls => exact admits_append_lanes ha calls
  | acted hl h => exact (World.acts_of_act h).admits hl ha
  | waited | asked | purged => exact ha.congr rfl
  | left => exact ha
  | dropped hl hi => exact ha.abandon hl

/-- A step on a floor is what follows in time. -/
theorem leads (h : s.Step f f') : f.world.Leads f'.world := by
  cases h with
  | began | left => exact .refl _
  | acted hl h => exact (World.acts_of_act h).leads
  | waited | purged => exact .of_eq rfl rfl
  | dropped => exact .of_eq (World.log_abandon ..) (World.timeouts_abandon ..)
  | asked q => exact World.leads_respond _ q

/-- Each call has a lane of its own. -/
theorem placed (h : s.Step f f')
    (hp : ∀ r ∈ f.rounds, r.first + r.calls.length ≤ f.lanes.length) :
    ∀ r ∈ f'.rounds, r.first + r.calls.length ≤ f'.lanes.length := by
  cases h with
  | began calls =>
      intro r hr
      rw [List.length_append, List.length_map]
      rcases List.mem_append.1 hr with hr | hr
      · exact Nat.le_add_right_of_le (hp r hr)
      · rw [List.mem_singleton.1 hr]
  | acted | dropped =>
      intro r hr
      rw [List.length_set]
      exact hp r hr
  | waited | asked | purged => exact hp
  | left n => exact fun r hr => hp r (List.mem_of_mem_eraseIdx hr)

end Step

/-- One lane changes, and stays one that is cut off or ends as before. -/
theorem Settles.set {L : Lore} {i : ℕ} {l l' : Lane ToolOutput} (h : s.Settles L f)
    (hl : f.lanes[i]? = some l) (hlate : l = .ended .late → l' = .ended .late)
    (hl' : l' = .ended .late ∨ l'.ending L = l.ending L) (w : World env) :
    s.Settles L { f with world := w, lanes := f.lanes.set i l' } := by
  intro r hr n call hcall
  obtain ⟨l₀, hl₀, hends⟩ := h r hr n call hcall
  obtain ⟨hlt, -⟩ := List.getElem?_eq_some_iff.1 hl
  by_cases hi : r.first + n = i
  · subst hi
    obtain rfl : l = l₀ := Option.some.inj (hl.symm.trans hl₀)
    refine ⟨l', List.getElem?_set_self hlt, ?_⟩
    rcases hends with hends | hends
    · exact .inl (hlate hends)
    · exact hl'.imp_right fun heq => heq.trans hends
  · exact ⟨l₀, by rwa [List.getElem?_set_ne (Ne.symm hi)], hends⟩

/-- **Whatever happens on a floor, lanes keep to their endings**, and the cache tells what lookups
come to. -/
theorem Step.settles {L : Lore} (h : s.Step f f') (hcovered : f'.world.Covered L)
    (hu : f.world.Upholds L f.lanes) (hs : s.Settles L f) :
    f'.world.Upholds L f'.lanes ∧ s.Settles L f' := by
  cases h with
  | began calls =>
      refine ⟨hu.append (List.forall_mem_map.2 fun call _ => s.isNew_lane call),
        fun r hr n call hcall => ?_⟩
      rcases List.mem_append.1 hr with hr | hr
      · obtain ⟨l, hl, hends⟩ := hs r hr n call hcall
        obtain ⟨hlt, -⟩ := List.getElem?_eq_some_iff.1 hl
        exact ⟨l, by rwa [List.getElem?_append_left hlt], hends⟩
      · obtain rfl := List.mem_singleton.1 hr
        refine ⟨s.lane call, ?_, .inr rfl⟩
        rw [List.getElem?_append_right (Nat.le_add_right _ _), Nat.add_sub_cancel_left,
          List.getElem?_map, hcall, Option.map_some]
  | acted hl h =>
      obtain ⟨hu', hl'⟩ := (World.acts_of_act h).late_or_settled hl hcovered hu
      refine ⟨hu', hs.set hl ?_ hl' _⟩
      rintro rfl
      cases h
  | waited hnow hclock => exact ⟨hu.waited _ hclock, hs⟩
  | left n => exact ⟨hu, fun r hr => hs r (List.mem_of_mem_eraseIdx hr)⟩
  | dropped hl hi => exact ⟨hu.abandon hl .late, hs.set hl (fun _ => rfl) (.inl rfl) _⟩
  | asked q => exact ⟨hu.congr rfl rfl, hs⟩
  | purged => exact ⟨hu.purged, hs⟩

namespace Reaches

variable {limits : CacheLimits} {state : env.State} {now clock : ℕ} {L : Lore}

/-- So is everything that can be reached. -/
theorem leads {start : Floor env} (h : s.Reaches start f) : start.world.Leads f.world := by
  induction h with
  | refl => exact .refl _
  | tail _ hstep ih => exact ih.trans hstep.leads

/-- Permits are in order wherever things have got to. -/
theorem admits (h : s.Reaches (s.opening limits state now clock) f) :
    f.world.Admits s.parallel f.lanes := by
  induction h with
  | refl => exact s.admits_opening limits state now clock
  | tail _ hstep ih => exact hstep.admits ih

/-- The lanes of a round stay where they were put. -/
theorem placed (h : s.Reaches (s.opening limits state now clock) f) :
    ∀ r ∈ f.rounds, r.first + r.calls.length ≤ f.lanes.length := by
  induction h with
  | refl => exact List.forall_mem_nil _
  | tail _ hstep ih => exact hstep.placed ih

/-- **On every floor, lanes keep to their endings**, as long as answers do not change. -/
theorem settles (h : s.Reaches (s.opening limits state now clock) f)
    (hcovered : f.world.Covered L) : f.world.Upholds L f.lanes ∧ s.Settles L f := by
  induction h with
  | refl =>
      have hcalm : (s.opening limits state now clock).world.Calm L :=
        ⟨Cache.attends_fresh _, .fresh _ _⟩
      exact ⟨hcalm.upholds (List.forall_mem_nil _), List.forall_mem_nil _⟩
  | tail _ hstep ih =>
      obtain ⟨hu, hs⟩ := ih (hstep.leads.covered hcovered)
      exact hstep.settles hcovered hu hs

/-- A call that has not been cut off has the result that it always has. -/
theorem getElem?_results (h : s.Reaches (s.opening limits state now clock) f)
    (hcovered : f.world.Covered L) (hr : r ∈ f.rounds)
    (hresults : s.results? r f.lanes = some results) {i : ℕ} {call : ToolCall}
    (hcall : r.calls[i]? = some call)
    (hlate : f.lanes[r.first + i]? ≠ some (.ended .late)) :
    results[i]? = some (s.result call ((s.lane call).ending L)) := by
  obtain ⟨-, hsettles⟩ := h.settles hcovered
  obtain ⟨l, hl, hends⟩ := hsettles r hr i call hcall
  obtain ⟨e, rfl, hresult⟩ := getElem?_of_results? hresults hcall hl
  rw [hresult, ← hends.resolve_left fun heq => hlate (hl.trans (congrArg some heq))]
  rfl

end Reaches

/-- **Rounds on one floor.** In whatever order lanes take turns, however many rounds there are and
whatever becomes of their calls:

* once the lanes of a round have ended, it has a result for each of its calls, in their order, and
  each result is data or an error;
* never more lanes are under way than there are permits, of which there is at least one;
* all lanes come to their ends;
* if the collaborators answer each question in one way, a call that is not cut off has one result,
  in whatever round it is and whatever other calls there are on the floor; unless two texts that
  have been embedded have one digest. -/
theorem rounds_on_floor {s : Workshop} {limits : CacheLimits} {state : env.State} {now clock : ℕ}
    {f : Floor env} (h : s.Reaches (s.opening limits state now clock) f) :
    (∀ r ∈ f.rounds, (∀ l ∈ r.lanes f.lanes, ∃ e, l = .ended e) →
      ∃ results, s.results? r f.lanes = some results ∧ results.map (·.call) = r.calls ∧
        ∀ x ∈ results, x.IsClear) ∧
    f.lanes.countP Lane.isUnderWay ≤ max s.maxParallel 1 ∧
    World.Concludes env f.lanes f.world.permits ∧
    ∀ {env' : Environment} {limits' : CacheLimits} {state' : env'.State} {now' clock' : ℕ}
      {f' : Floor env'} {answer : (q : Ask) → Option (Reply q)},
      s.Reaches (s.opening limits' state' now' clock') f' →
      env.Answers answer → env'.Answers answer →
      Set.InjOn Digest.ofText (f.world.embedded ∪ f'.world.embedded) →
      ∀ r ∈ f.rounds, ∀ r' ∈ f'.rounds, ∀ results results' i i' call,
        s.results? r f.lanes = some results → s.results? r' f'.lanes = some results' →
        r.calls[i]? = some call → r'.calls[i']? = some call →
        f.lanes[r.first + i]? ≠ some (.ended .late) →
        f'.lanes[r'.first + i']? ≠ some (.ended .late) → results[i]? = results'[i']? := by
  refine ⟨fun r hr hends => exists_results? (h.placed r hr) hends, h.admits.countP_le,
    h.admits.concludes s.parallel_pos, ?_⟩
  intro env' limits' state' now' clock' f' answer h' henv henv' hdigest r hr r' hr' results results'
    i i' call hresults hresults' hcall hcall' hlate hlate'
  obtain ⟨b, hb⟩ := Book.exists_of_injOn hdigest fun text =>
    (answer (.embedding text)).map Flight.outcome
  have hcovered : f.world.Covered ⟨answer, b⟩ :=
    World.covered_of_answers henv rfl h.leads rfl fun text htext => hb text (.inl htext)
  have hcovered' : f'.world.Covered ⟨answer, b⟩ :=
    World.covered_of_answers henv' rfl h'.leads rfl fun text htext => hb text (.inr htext)
  rw [h.getElem?_results hcovered hr hresults hcall hlate,
    h'.getElem?_results hcovered' hr' hresults' hcall' hlate']

/-- A round begins on an empty floor. -/
theorem reaches_began (s : Workshop) (w : World env) (calls : List ToolCall) :
    s.Reaches ⟨w, [], []⟩ ⟨w, calls.map s.lane, [⟨calls, 0⟩]⟩ :=
  .single (.began (f := ⟨w, [], []⟩) calls)

/-! ### Counts beside other calls -/

/-- Of all questions, only counts are answered: there is nothing. -/
def tallied : (q : Ask) → Option (Reply q)
  | .statistics _ => some (.ok { total := 0, groups := [] })
  | _ => none

/-- Collaborators that count and break down over anything else, and at once. -/
def tally : Environment where
  State := Unit
  respond := fun q _ => (⟨0, tallied q⟩, ())

/-- These collaborators answer each question in one way. -/
theorem answers_tally : tally.Answers tallied := fun _ _ => rfl

/-- A lane that finds a permit free comes to its end if its one question is answered at once. -/
theorem Reaches.exchange {start f : Floor tally} {i free : ℕ} {allowance : Allowance} {q : Ask}
    {next : Reply q → Program Reply (Except Failure ToolOutput)} {e : Ending ToolOutput}
    (h : s.Reaches start f) (hl : f.lanes[i]? = some (.ready true allowance (.ask q next)))
    (hq : ∀ text, q ≠ .embedding text) (hfree : f.world.permits = { free := free + 1 })
    (he : tallied q = none ∧ e = .crashed ∨
      ∃ r x, tallied q = some r ∧ next r = .done x ∧ e = .value x) :
    ∃ f', s.Reaches start f' ∧ f'.rounds = f.rounds ∧ f'.lanes = f.lanes.set i (.ended e) ∧
      f'.world.permits = { free := free + 1 } ∧ f'.world.embedded = f.world.embedded := by
  have hset : ∀ (ls : List (Lane ToolOutput)) l, ls.length = f.lanes.length →
      (ls.set i l)[i]? = some l := fun ls l hlength =>
    List.getElem?_set_self (hlength ▸ (List.getElem?_eq_some_iff.1 hl).1)
  have henter : f.world.act i (.ready true allowance (.ask q next)) =
      some (.running true (allowance.map (f.world.now + ·)) (.ask q next),
        { f.world with permits := { free := free } }) := by
    rw [World.act, hfree]
    rfl
  have hask : ∀ (w : World tally) deadline, w.act i (.running true deadline (.ask q next)) =
      some ((w.respond q).2.resume true deadline next (tallied q)) := by
    intro w deadline
    cases q with
    | embedding text => exact absurd rfl (hq text)
    | _ => rfl
  have hasked := (h.tail (.acted hl henter)).tail (.acted (hset _ _ rfl) (hask _ _))
  rcases he with ⟨hnone, rfl⟩ | ⟨r, x, hsome, hnext, rfl⟩
  · rw [hnone] at hasked
    exact ⟨_, hasked, rfl, List.set_set _, rfl, World.embedded_respond _ hq⟩
  · rw [hsome] at hasked
    have hdone := hasked.tail (.acted (i := i)
      (l := .running true (allowance.map (f.world.now + ·)) (next r))
      (hset _ _ (List.length_set ..)) (by rw [hnext]; rfl))
    refine ⟨_, hdone, rfl, ?_, rfl, World.embedded_respond _ hq⟩
    exact (List.set_set _).trans (List.set_set _)

/-- A call over which the collaborators break down. -/
def lookAtAgency : ToolCall := ⟨"get_entity_detail", [("name", .str "工務局")]⟩

/-- A call that counts all documents. -/
def countAll : ToolCall := ⟨"get_statistics", []⟩

/-- A call of no tool. -/
def runCommand : ToolCall := ⟨"run_command", []⟩

/-- The call asks the graph for the name. -/
theorem lane_lookAtAgency (s : Workshop) : ∃ next, s.lane lookAtAgency =
    .ready true (some s.allowance) (.ask (.entitiesNamed "工務局") next) := by
  have htool : lookAtAgency.tool? = some .getEntityDetail := by decide +kernel
  rw [lane, ToolRequest.ofCall, htool]
  exact ⟨_, rfl⟩

/-- The call asks for the count and is done. -/
theorem lane_countAll (s : Workshop) : ∃ next : Reply (.statistics {}) → _,
    s.lane countAll = .ready true (some s.allowance) (.ask (.statistics {}) next) ∧
      ∀ stats, next (.ok stats) = .done (.ok (.statistics {} stats)) := by
  have htool : countAll.tool? = some .getStatistics := by decide +kernel
  rw [lane, ToolRequest.ofCall, htool]
  exact ⟨_, rfl, fun _ => rfl⟩

/-- The call is refused before it begins. -/
theorem lane_runCommand (s : Workshop) : ∃ e, s.lane runCommand = .ended (.value (.error e)) := by
  have htool : runCommand.tool? = none := by decide +kernel
  rw [lane, ToolRequest.ofCall, htool]
  exact ⟨_, rfl⟩

/-- A count beside a call that breaks down has the result that it has beside a call of no tool. -/
theorem count_beside_breakdown : ∃ (s : Workshop) (f f' : Floor tally)
    (results results' : List ToolResult),
    s.Reaches (s.opening ⟨8, 1, 1⟩ () 0 0) f ∧ s.Reaches (s.opening ⟨8, 1, 1⟩ () 0 0) f' ∧
      s.results? ⟨[lookAtAgency, countAll], 0⟩ f.lanes = some results ∧
      s.results? ⟨[runCommand, countAll], 0⟩ f'.lanes = some results' ∧
      results[1]? = results'[1]? := by
  obtain ⟨s, free, hfree⟩ : ∃ (s : Workshop) (free : ℕ), s.parallel = free + 1 :=
    ⟨({} : Config).workshop { index := ⟨[]⟩ }, 3, rfl⟩
  obtain ⟨next₀, hask⟩ := s.lane_lookAtAgency
  obtain ⟨next₁, hcount, hnext⟩ := s.lane_countAll
  obtain ⟨e, hrefused⟩ := s.lane_runCommand
  have hbegan := fun calls =>
    s.reaches_began (s.opening ⟨8, 1, 1⟩ () 0 0 : Floor tally).world calls
  have hpermits : (s.opening ⟨8, 1, 1⟩ () 0 0 : Floor tally).world.permits = { free := free + 1 } :=
    congrArg (Gate.mk · [] []) hfree
  -- On the first floor the look at the agency breaks down before the count is made.
  obtain ⟨f₁, h₁, hrounds₁, hlanes₁, hpermits₁, hembedded₁⟩ :=
    (hbegan [lookAtAgency, countAll]).exchange (i := 0) (congrArg some hask) (by nofun) hpermits
      (.inl ⟨rfl, rfl⟩)
  obtain ⟨f, h, hrounds, hlanes, -, hembedded⟩ := h₁.exchange (i := 1)
    (by rw [hlanes₁]; exact congrArg some hcount) (by nofun) hpermits₁
    (.inr ⟨_, _, rfl, hnext _, rfl⟩)
  -- On the second floor the call of no tool has ended from the start.
  obtain ⟨f', h', hrounds', hlanes', -, hembedded'⟩ :=
    (hbegan [runCommand, countAll]).exchange (i := 1) (congrArg some hcount) (by nofun) hpermits
      (.inr ⟨_, _, rfl, hnext _, rfl⟩)
  rw [hlanes₁] at hlanes
  rw [hrounds₁] at hrounds
  have hr : ⟨[lookAtAgency, countAll], 0⟩ ∈ f.rounds := by
    rw [hrounds]
    exact List.mem_cons_self
  have hr' : ⟨[runCommand, countAll], 0⟩ ∈ f'.rounds := by
    rw [hrounds']
    exact List.mem_cons_self
  have hresults : ∃ results, s.results? ⟨[lookAtAgency, countAll], 0⟩ f.lanes = some results := by
    rw [hlanes]
    exact ⟨_, rfl⟩
  have hresults' : ∃ results, s.results? ⟨[runCommand, countAll], 0⟩ f'.lanes = some results := by
    rw [hlanes', List.map_cons, hrefused]
    exact ⟨_, rfl⟩
  obtain ⟨results, hresults⟩ := hresults
  obtain ⟨results', hresults'⟩ := hresults'
  obtain ⟨-, -, -, hisolated⟩ := rounds_on_floor h
  refine ⟨s, f, f', results, results', h, h', hresults, hresults', ?_⟩
  refine hisolated h' answers_tally answers_tally ?_ _ hr _ hr' _ _ 1 1 countAll hresults hresults'
    rfl rfl ?_ ?_
  · rw [hembedded, hembedded₁, hembedded']
    rintro text (⟨x, hx, -⟩ | ⟨x, hx, -⟩) <;> cases hx
  · rw [hlanes]
    nofun
  · rw [hlanes']
    nofun

/-! ### Rounds by themselves -/

/-- Lanes that are run take turns on a floor. -/
theorem reaches_run (s : Workshop) (limit : Option ℕ) (w : World env) (cursor : ℕ)
    (ls : List (Lane ToolOutput)) (rounds : List Batch) :
    s.Reaches ⟨w, ls, rounds⟩ ⟨(w.run limit cursor ls).2, (w.run limit cursor ls).1, rounds⟩ :=
  World.run_induct (I := fun ls' w' => s.Reaches ⟨w, ls, rounds⟩ ⟨w', ls', rounds⟩)
    (fun h hl ha => h.tail (.acted hl ha))
    (fun _ h => h.tail (.waited (Nat.le_max_left _ _) (Nat.le_refl _))) limit w cursor ls .refl

/-- **A round by itself is one way in which lanes take turns on a floor**: its results are those
that the floor comes to. -/
theorem reaches_round (s : Workshop) (limits : CacheLimits) (state : env.State) (now clock : ℕ)
    (limit : Option ℕ) (calls : List ToolCall) :
    ∃ f, s.Reaches (s.opening limits state now clock) f ∧ f.rounds = [⟨calls, 0⟩] ∧
      s.results? ⟨calls, 0⟩ f.lanes =
        (s.round limit calls (s.opening limits state now clock).world).1 := by
  refine ⟨_, (s.reaches_began _ calls).trans (s.reaches_run limit _ 0 _ _), rfl, ?_⟩
  -- The lanes of the round are all that there are.
  have hlanes : ∀ w : World env, Batch.lanes ⟨calls, 0⟩ (w.run limit 0 (calls.map s.lane)).1 =
      (w.run limit 0 (calls.map s.lane)).1 := fun w => by
    refine List.take_of_length_le ?_
    rw [List.length_drop, World.length_run, List.length_map, Nat.sub_zero]
  rw [round_fst, World.join_fst, results?]
  exact congrArg (fun ls => Option.map _ (List.mapM Lane.ending? ls)) (hlanes _)

/-- **A round by itself has its results**, if there is no limit to its time. -/
theorem exists_results_of_round (s : Workshop) (limits : CacheLimits) (state : env.State)
    (now clock : ℕ) (calls : List ToolCall) :
    ∃ results, (s.round none calls (s.opening limits state now clock).world).1 = some results := by
  have hadmits := admits_append_lanes (s.admits_opening limits state now clock) calls
  have hends := hadmits.run_ended s.parallel_pos
    (forall_mem_lane (fun _ => trivial) fun _ => trivial) 0
  obtain ⟨endings, hendings⟩ := World.exists_mapM_ending? hends
  refine ⟨List.zipWith s.result calls endings, ?_⟩
  rw [round_fst, World.join_fst]
  exact congrArg _ hendings

end Workshop

end Archivist
