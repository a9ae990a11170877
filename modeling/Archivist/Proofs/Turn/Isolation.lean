import Archivist.Proofs.Turn.Ending
import Archivist.Proofs.Turn.Twin
import Archivist.Turn.Assembly
import Mathlib.Data.Set.Function

/-!
# Turns Cannot See Other Callers

A session is what turns have in common: the cache of embeddings with its lookups, the permits for
tools, the buckets of all callers. None of it can be seen by a turn whose caller has not asked
before. As long as the collaborators answer every question in one way and nothing is cut off because
its time is up, a turn tells what it would have told at the very beginning, but for the time that it
has taken.

Embeddings are remembered by digests. So what a turn sees may depend on the past if two texts that
have been embedded have one digest, and only then.

## Main results

* `Assistant.twins_drive`: two turns on one request come out alike, part by part.
* `Assistant.leads_turn`: what a turn leaves behind, however it ends.
* `Config.turn_isolated`: what other callers have done before does not change what a turn tells.
-/

namespace Archivist

variable {env : Environment} {caller : String} {L : Lore} {P : Limiter Float → Prop}

namespace Assistant

open Step

variable (a : Assistant)

/-- Small talk is replied to the same on both sides. -/
theorem twins_replySmalltalk (question : String) (history : List Remark)
    (decision : Smalltalk.Decision) :
    Twins L caller P (a.replySmalltalk question history decision : Step env Unit)
      (a.replySmalltalk question history decision) P := by
  refine (twins_advance .chitchatDetected).bind fun _ => ?_
  refine (twins_tell _).bind fun _ => ?_
  split
  · exact (twins_tell _).bind fun _ => twins_advance .replyComplete
  · exact (twins_stream _).bind fun _ => twins_advance .replyComplete

/-- A pass comes out the same on both sides. -/
theorem twins_pass (question : String) (plan : Plan) (earlier : List ToolResult)
    (limit₁ limit₂ : ℕ) :
    Twins L caller P (a.pass (some limit₁) question plan earlier : Step env _)
      (a.pass (some limit₂) question plan earlier) P := by
  refine (twins_round a.workshop plan limit₁ limit₂).bind fun results => ?_
  refine (twins_advance .toolsFinished).bind fun _ => ?_
  refine twins_get_bind fun d₁ d₂ hmachine => ?_
  rw [hmachine]
  split
  · exact (twins_advance .sufficient).bind fun _ => twins_pure _
  · refine (twins_tell _).bind fun _ => ?_
    refine (twins_perform (a.judge.evaluate question (earlier ++ results)) limit₁ limit₂).bind
      fun shortfall? => ?_
    cases shortfall? with
    | none => exact (twins_advance .sufficient).bind fun _ => twins_pure _
    | some shortfall =>
        refine (twins_advance .insufficient).bind fun _ => ?_
        refine (twins_tell _).bind fun _ => ?_
        refine (twins_perform (a.corrector.correct question shortfall (earlier ++ results)) limit₁
          limit₂).bind fun replan? => ?_
        cases replan? with
        | none => exact (twins_advance .noCorrection).bind fun _ => twins_pure _
        | some replan => exact (twins_advance .replanReady).bind fun _ => twins_pure _

/-- So do all passes. -/
theorem twins_passes (question : String) (most : ℕ) (plan : Plan) (earlier : List ToolResult)
    (limit₁ limit₂ : ℕ) :
    Twins L caller P (a.passes (some limit₁) question most plan earlier : Step env _)
      (a.passes (some limit₂) question most plan earlier) P := by
  induction most generalizing plan earlier with
  | zero => exact twins_pure earlier
  | succ most ih =>
      refine (a.twins_pass question plan earlier limit₁ limit₂).bind fun found => ?_
      match found with
      | (results, none) => exact twins_pure results
      | (results, some plan) => exact ih plan results

/-- A question is looked into the same on both sides. -/
theorem twins_lookInto (question : String) (history : List Remark) (hints : Hints)
    (limit₁ limit₂ : ℕ) :
    Twins L caller P (a.lookInto (some limit₁) question history hints : Step env _)
      (a.lookInto (some limit₂) question history hints) P := by
  refine (twins_tell _).bind fun _ => ?_
  refine (twins_perform (a.planner.plan question history hints) limit₁ limit₂).bind fun plan => ?_
  refine (twins_advance .planReady).bind fun _ => ?_
  exact a.twins_passes question _ _ [] limit₁ limit₂

/-- A question is answered the same on both sides, if both limiters are new to the caller. -/
theorem twins_answer (r : TurnRequest) (question : String) (burst rate : Float) :
    Twins L r.caller (·.IsNewTo r.caller burst rate)
      (a.answer r question : Step env (List ToolResult)) (a.answer r question) fun _ => True := by
  refine (twins_advance .retrievalNeeded).bind fun _ => ?_
  refine (twins_takePermit r.caller burst rate).bind fun _ => ?_
  refine (twins_advance .permitGranted).bind fun _ => ?_
  refine twins_get_bind fun d₁ d₂ _ => ?_
  refine (a.twins_lookInto question r.history _ _ _).bind fun results => ?_
  refine (twins_tell _).bind fun _ => ?_
  refine (twins_stream _).bind fun _ => ?_
  exact (twins_advance .replyComplete).bind fun _ => twins_pure results

/-- **Two turns on one request come out alike** before they are concluded. -/
theorem twins_drive (r : TurnRequest) (burst rate : Float) :
    Twins L r.caller (·.IsNewTo r.caller burst rate) (a.drive r : Step env (List ToolResult))
      (a.drive r) fun _ => True := by
  refine (twins_advance .begin).bind fun _ => ?_
  refine (twins_tell _).bind fun _ => ?_
  by_cases hr : (Smalltalk.classify (Text.trimmed r.question)).isSmalltalk = true
  · simp only [hr, if_true]
    refine Twins.mono (Q := (·.IsNewTo r.caller burst rate)) ?_ fun _ _ => trivial
    exact (a.twins_replySmalltalk _ r.history _).bind fun _ => twins_pure []
  · simp only [hr]
    exact a.twins_answer r _ burst rate

/-! ### What a turn leaves behind -/

/-- **A turn leaves a calm world calm and the buckets of other callers alone**, however it ends. -/
theorem leads_turn (r : TurnRequest) (s : Session env) :
    s.Leads r.caller (a.turn r s).session := by
  obtain ⟨o, d, hr, -, hend, -⟩ := a.turn_endsWith r s
  have hdrive : (a.drive r : Step env (List ToolResult)).Behaves r.caller :=
    (a.twins_drive (L := ⟨fun _ => none, fun _ => none⟩) r 0 0).behaves₁
  rw [hend.session]
  exact hdrive.of_run hr

end Assistant

/-- An event without the time that the turn has taken. -/
def Event.untimed : Event → Event
  | .done citations _ calls => .done citations 0 calls
  | e => e

namespace Assistant

/-- **Two turns on one request tell the same** in calm sessions whose limiters are new to the
caller. -/
theorem untimed_turn (a : Assistant) {r : TurnRequest} {s₁ s₂ : Session env} {burst rate : Float}
    (hcalm₁ : s₁.world.Calm L) (hcalm₂ : s₂.world.Calm L)
    (hnew₁ : s₁.limiter.IsNewTo r.caller burst rate)
    (hnew₂ : s₂.limiter.IsNewTo r.caller burst rate)
    (hq₁ : Desk.Quiet L { session := s₁ } (a.turn r s₁))
    (hq₂ : Desk.Quiet L { session := s₂ } (a.turn r s₂)) :
    (a.turn r s₁).events.map Event.untimed = (a.turn r s₂).events.map Event.untimed := by
  obtain ⟨o₁, d₁, hr₁, -, hend₁, -⟩ := a.turn_endsWith r s₁
  obtain ⟨o₂, d₂, hr₂, -, hend₂, -⟩ := a.turn_endsWith r s₂
  have hd₁ : Desk.Quiet L { session := s₁ } d₁ := hq₁.congr hend₁.session.symm
  have hd₂ : Desk.Quiet L { session := s₂ } d₂ := hq₂.congr hend₂.session.symm
  have htwin : Step.Twin L (·.IsNewTo r.caller burst rate) (Desk.mk s₁ {} {} [])
      (Desk.mk s₂ {} {} []) :=
    ⟨⟨rfl, rfl, rfl⟩, hcalm₁, hcalm₂, hnew₁, hnew₂⟩
  obtain ⟨rfl, halike, -⟩ := (a.twins_drive r burst rate).alike htwin hr₁ hr₂ hd₁ hd₂
  have hevents : d₁.events = d₂.events := congrArg Sink.events halike.sink
  have hending : (a.endingOf s₁ d₁ o₁).untimed = (a.endingOf s₂ d₂ o₁).untimed := by
    cases o₁ <;> rfl
  rw [hend₁.events, hend₂.events, List.map_append, List.map_append, hevents, List.map_singleton,
    List.map_singleton, hending]

end Assistant

/-! ### Pasts -/

/-- The sessions that come after `s`: turns of callers as `who` says follow each other, on whatever
day each of them is, and time passes in between. -/
inductive Config.History (c : Config) (x : Expander) (who : String → Prop) (s : Session env) :
    Session env → Prop where
  | none : History c x who s s
  /-- The clock never goes back. -/
  | waited {s' : Session env} {now clock : ℕ} (h : History c x who s s') (hnow : s'.world.now ≤ now)
      (hclock : s'.world.clock ≤ clock) :
      History c x who s { s' with world := { s'.world with now, clock } }
  | turn {s' : Session env} (today : Date) (r : TurnRequest) (h : History c x who s s')
      (hr : who r.caller) : History c x who s ((c.assistant x today).turn r s').session

namespace Config.History

variable {c : Config} {x : Expander} {who : String → Prop} {s s' : Session env}

/-- A history is what follows in time. -/
theorem leads (h : c.History x who s s') : s.world.Leads s'.world := by
  induction h with
  | none => exact .refl _
  | waited _ _ _ ih => exact ih.trans (.of_eq rfl rfl)
  | turn today r _ _ ih => exact ih.trans ((c.assistant x today).leads_turn r _).world

/-- A world is calm after a history if it was before. -/
theorem calm (h : c.History x who s s') (hcovered : s'.world.Covered L) (hs : s.world.Calm L) :
    s'.world.Calm L := by
  induction h with
  | none => exact hs
  | waited _ _ _ ih => exact (ih hcovered).congr rfl
  | @turn s' today r _ _ ih =>
      have hleads := (c.assistant x today).leads_turn r s'
      exact hleads.calm L hcovered (ih (hleads.world.covered hcovered))

/-- A caller who does not come up in a history remains new. -/
theorem isNewTo {burst rate : Float} (h : c.History x (· ≠ caller) s s')
    (hs : s.limiter.IsNewTo caller burst rate) : s'.limiter.IsNewTo caller burst rate := by
  induction h with
  | none => exact hs
  | waited _ _ _ ih => exact ih
  | turn today r _ hr ih =>
      exact ih.of_spares ((c.assistant x today).leads_turn r _).limiter hr

end Config.History

/-! ### Fresh sessions -/

/-- A session in which nobody has asked anything, some time after the clock was started. -/
def Config.session (c : Config) (x : Expander) (state : env.State) (now clock : ℕ) :
    Session env where
  world :=
    { now, clock, cache := .fresh c.cache.limits, permits := { free := (c.workshop x).parallel },
      state }
  limiter := c.rateLimit.limiter

namespace Config

variable {c : Config} {x : Expander} {today : Date} {r : TurnRequest} {state state' : env.State}
  {now clock now' clock' : ℕ}

/-- A session in which nobody has asked is calm. -/
theorem calm_session (c : Config) (x : Expander) (state : env.State) (now clock : ℕ) (L : Lore) :
    (c.session x state now clock).world.Calm L :=
  ⟨Cache.attends_fresh _, .fresh _ _⟩

/-- Everybody is new to a session in which nobody has asked. -/
theorem isNewTo_session (c : Config) (x : Expander) (state : env.State) (now clock : ℕ)
    (caller : String) : (c.session x state now clock).limiter.IsNewTo caller
      c.rateLimit.limiter.burst c.rateLimit.limiter.rate :=
  ⟨rfl, rfl, nofun⟩

/-- **What other callers have done cannot be seen.** If the collaborators answer each question in
one way, a turn tells what it would have told in a fresh session, but for the time that it has
taken; unless something is cut off in one of the two turns, or two texts that have been embedded
have one digest. -/
theorem turn_isolated {answer : (q : Ask) → Option (Reply q)} (henv : env.Answers answer)
    {s : Session env}
    (hs : c.History x (· ≠ r.caller) (c.session x state now clock) s)
    (hquiet : ((c.assistant x today).turn r s).session.world.timeouts = s.world.timeouts)
    (hquiet' :
      ((c.assistant x today).turn r (c.session x state' now' clock')).session.world.timeouts =
        (c.session x state' now' clock').world.timeouts)
    (hdigest : Set.InjOn Digest.ofText
      (((c.assistant x today).turn r s).session.world.embedded ∪
        ((c.assistant x today).turn r (c.session x state' now' clock')).session.world.embedded)) :
    ((c.assistant x today).turn r s).events.map Event.untimed =
      ((c.assistant x today).turn r (c.session x state' now' clock')).events.map Event.untimed := by
  obtain ⟨b, hb⟩ := Book.exists_of_injOn hdigest fun text =>
    (answer (.embedding text)).map Flight.outcome
  have hturn := (c.assistant x today).leads_turn r s
  have hturn' := (c.assistant x today).leads_turn r (c.session x state' now' clock')
  have hcovered : ((c.assistant x today).turn r s).session.world.Covered ⟨answer, b⟩ :=
    World.covered_of_answers henv rfl (hs.leads.trans hturn.world) rfl
      fun text htext => hb text (.inl htext)
  have hcovered' : ((c.assistant x today).turn r
      (c.session x state' now' clock')).session.world.Covered ⟨answer, b⟩ :=
    World.covered_of_answers henv rfl hturn'.world rfl fun text htext => hb text (.inr htext)
  exact (c.assistant x today).untimed_turn
    (hs.calm (hturn.world.covered hcovered) (c.calm_session x state now clock _))
    (c.calm_session x state' now' clock' _)
    (hs.isNewTo (c.isNewTo_session x state now clock r.caller))
    (c.isNewTo_session x state' now' clock' r.caller)
    ⟨hcovered, hquiet⟩ ⟨hcovered', hquiet'⟩

end Config

/-! ### A turn that finds what another one has left -/

/-- A plan that looks for what is like a text about bridges. -/
def bridgePlan : String :=
  "\x7b\"tool_calls\":[\x7b\"name\":\"find_similar\",\"arguments\":\x7b\"text\":\"橋梁\"\x7d\x7d]\x7d"

/-- There is one document, and one plan for every question. -/
def bridges : Environment where
  State := Unit
  respond
    | .complete _, s => (⟨0, some (.ok bridgePlan)⟩, s)
    | .embedding _, s => (⟨0, some (.ok (some [1]))⟩, s)
    | .vectorSearch .., s => (⟨0, some (.ok [(⟨"B-1", [("subject", "橋梁")]⟩, 1)])⟩, s)
    | .stream _, s => (⟨0, some (.ok [.text "橋梁"])⟩, s)
    | _, s => (⟨0, none⟩, s)

/-- Each question about bridges is answered in one way. -/
theorem answers_bridges : ∃ answer : (q : Ask) → Option (Reply q), bridges.Answers answer :=
  ⟨fun q => (bridges.respond q ()).1.outcome, fun q _ => by cases q <;> rfl⟩

/-- Whether a question is for no embedding but that of the text about bridges. -/
def asksBridge (x : Exchange) : Bool :=
  match x.question with
  | .embedding text => text = "橋梁"
  | _ => true

/-- Where only bridges are asked about, nothing else is embedded. -/
theorem World.embedded_subset {w : World env} (h : w.log.all asksBridge = true) :
    w.embedded ⊆ {"橋梁"} := by
  rintro text ⟨x, hx, hquestion⟩
  have hbridge := List.all_eq_true.1 h x hx
  rw [asksBridge, hquestion] at hbridge
  exact of_decide_eq_true hbridge

/-- A turn about bridges, by an assistant for whom nothing is another word for anything. -/
def bridgeTurn (caller : String) (s : Session bridges) : Desk bridges :=
  (({} : Config).assistant { index := .ofGroups [] } ⟨2025, 1, 1, by decide⟩).turn
    ⟨"查詢橋梁", caller, [], none⟩ s

/-- Nobody has asked anything. -/
def early : Session bridges := ({} : Config).session { index := .ofGroups [] } () 0 0

/-- Somebody has asked about bridges, some time ago. -/
def visited : Session bridges :=
  let s := (bridgeTurn "a" early).session
  { s with world := { s.world with now := s.world.now + 5, clock := s.world.clock + 7 } }

/-- In neither session does a turn cut anything off, and no other text is embedded; the second turn
finds the embedding in the cache. -/
theorem bridgeTurn_world :
    ((bridgeTurn "b" early).session.world.timeouts,
      (bridgeTurn "b" early).session.world.log.all asksBridge) = (early.world.timeouts, true) ∧
    ((bridgeTurn "b" visited).session.world.timeouts, visited.world.cache.hits,
      (bridgeTurn "b" visited).session.world.cache.hits,
      (bridgeTurn "b" visited).session.world.log.all asksBridge) =
        (visited.world.timeouts, 0, 1, true) := by
  unfold visited bridgeTurn Assistant.turn Assistant.drive Assistant.answer Assistant.lookInto
    Assistant.passes Assistant.pass Assistant.passes Assistant.pass Step.round Step.stream
    Step.perform Workshop.round World.perform
  rw [World.join_eq_turns 40]
  decide +kernel

/-- Somebody else has asked the same before and has left the embedding in the cache. -/
theorem Config.turn_isolated_of_cached :
    ({} : Config).History { index := .ofGroups [] } (· ≠ "b") early visited ∧
      (bridgeTurn "b" visited).session.world.cache.hits = visited.world.cache.hits + 1 ∧
      (bridgeTurn "b" visited).events.map Event.untimed =
        (bridgeTurn "b" early).events.map Event.untimed := by
  obtain ⟨hearly, hvisited⟩ := bridgeTurn_world
  simp only [Prod.mk.injEq] at hearly hvisited
  obtain ⟨hquiet', hlog'⟩ := hearly
  obtain ⟨hquiet, hbefore, hhits, hlog⟩ := hvisited
  obtain ⟨answer, hanswer⟩ := answers_bridges
  have hhistory : ({} : Config).History { index := .ofGroups [] } (· ≠ "b") early visited :=
    .waited (.turn ⟨2025, 1, 1, by decide⟩ _ .none (by decide)) (Nat.le_add_right ..)
      (Nat.le_add_right ..)
  refine ⟨hhistory, by rw [hhits, hbefore], ?_⟩
  -- Compared by their names, so that Lean does not run the turns to compare them.
  unfold bridgeTurn early at *
  exact turn_isolated hanswer hhistory hquiet hquiet'
    ((Set.injOn_singleton _ _).mono
      (Set.union_subset (World.embedded_subset hlog) (World.embedded_subset hlog')))

end Archivist
