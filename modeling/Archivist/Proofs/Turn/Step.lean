import Archivist.Proofs.Tool.Round
import Archivist.Proofs.Turn.Promise
import Archivist.Turn.Run

/-!
# Parts of a Turn

`Step.Ensures m d P E` says how a part `m` of a turn comes out that begins at the desk `d`: with a
value and at a desk as `P` says, or with a halt and at a desk as `E` says. It goes through a turn in
the order of its parts (`Step.Ensures.bind`); for each of the parts that turns are made of there is
a rule that says what the part does to the desk.
-/

namespace Archivist

variable {env : Environment}

/-- The desk when these things have been told and the world has gone on to `w`. -/
def Desk.after (d : Desk env) (told : List Event) (w : World env) : Desk env :=
  { d with
    session := { d.session with world := w }
    sink := { d.sink with events := d.sink.events ++ told } }

/-- Where nothing has been told, only the world goes on. -/
theorem Desk.after_nil (d : Desk env) (w : World env) :
    d.after [] w = { d with session := { d.session with world := w } } := by
  rw [Desk.after, List.append_nil]

/-- What is told after what is told. -/
theorem Desk.after_after (d : Desk env) (told more : List Event) (w w' : World env) :
    (d.after told w).after more w' = d.after (told ++ more) w' := by
  simp only [Desk.after, List.append_assoc]

namespace Step

variable {α β : Type} {d : Desk env} {E : Halt → Desk env → Prop}

/-- A part of a turn that begins at `d` comes out as `P` says, or halts as `E` says. -/
structure Ensures (m : Step env α) (d : Desk env) (P : α → Desk env → Prop)
    (E : Halt → Desk env → Prop) : Prop where
  -- A structure, because Lean would run a turn to see what a plain definition unfolds to.
  run : match m.run.run d with
    | (.ok a, d') => P a d'
    | (.error h, d') => E h d'

/-- What a part does when it is run is what it ensures. -/
theorem ensures_of_run {m : Step env α} {P : α → Desk env → Prop} {o : Except Halt α}
    {d' : Desk env} (hr : m.run.run d = (o, d'))
    (h : match o with | .ok a => P a d' | .error e => E e d') :
    m.Ensures d P E := by
  refine ⟨?_⟩
  rw [hr]
  cases o <;> exact h

/-- A part of a turn comes out one way or the other. -/
theorem Ensures.cases {m : Step env α} {P : α → Desk env → Prop} (h : m.Ensures d P E) :
    (∃ a d', m.run.run d = (.ok a, d') ∧ P a d') ∨
      ∃ e d', m.run.run d = (.error e, d') ∧ E e d' := by
  have hrun := h.run
  rcases hr : m.run.run d with ⟨e | a, d'⟩ <;> rw [hr] at hrun
  · exact Or.inr ⟨e, d', rfl, hrun⟩
  · exact Or.inl ⟨a, d', rfl, hrun⟩

theorem Ensures.mono {m : Step env α} {P P' : α → Desk env → Prop} {E' : Halt → Desk env → Prop}
    (h : m.Ensures d P E) (hP : ∀ a d', P a d' → P' a d') (hE : ∀ e d', E e d' → E' e d') :
    m.Ensures d P' E' := by
  rcases h.cases with ⟨a, d', hr, ha⟩ | ⟨e, d', hr, he⟩
  · exact ensures_of_run hr (hP a d' ha)
  · exact ensures_of_run hr (hE e d' he)

/-- What follows a part begins at the desk that the part leaves. -/
theorem run_bind_of_ok {m : Step env α} {f : α → Step env β} {a : α} {d' : Desk env}
    (h : m.run.run d = (.ok a, d')) : (m >>= f).run.run d = (f a).run.run d' := by
  rw [ExceptT.run_bind, StateT.run_bind, h]
  rfl

/-- Nothing follows a halt. -/
theorem run_bind_of_error {m : Step env α} {f : α → Step env β} {e : Halt} {d' : Desk env}
    (h : m.run.run d = (.error e, d')) : (m >>= f).run.run d = (.error e, d') := by
  rw [ExceptT.run_bind, StateT.run_bind, h]
  rfl

/-- What follows a part has to come out as the whole. -/
theorem Ensures.bind {m : Step env α} {f : α → Step env β} {P : β → Desk env → Prop}
    {M : α → Desk env → Prop} (hm : m.Ensures d M E)
    (hf : ∀ a d', M a d' → (f a).Ensures d' P E) : (m >>= f).Ensures d P E := by
  rcases hm.cases with ⟨a, d', hr, ha⟩ | ⟨e, d', hr, he⟩
  · refine ⟨?_⟩
    rw [run_bind_of_ok hr]
    exact (hf a d' ha).run
  · exact ensures_of_run (run_bind_of_error hr) he

/-- What follows a part matters only as far as the part can get there. -/
theorem Ensures.run_bind_congr {m : Step env α} {f g : α → Step env β} {P : α → Desk env → Prop}
    (hm : m.Ensures d P E) (h : ∀ a d', P a d' → (f a).run.run d' = (g a).run.run d') :
    (m >>= f).run.run d = (m >>= g).run.run d := by
  rcases hm.cases with ⟨a, d', hr, ha⟩ | ⟨e, d', hr, -⟩
  · rw [run_bind_of_ok hr, run_bind_of_ok hr, h a d' ha]
  · rw [run_bind_of_error hr, run_bind_of_error hr]

/-- A part that does nothing ensures what holds already. -/
theorem ensures_pure {a : α} {P : α → Desk env → Prop} (h : P a d) :
    (pure a : Step env α).Ensures d P E := ⟨h⟩

/-- A halt ensures what holds where it comes. -/
theorem ensures_throw {e : Halt} {P : α → Desk env → Prop} (h : E e d) :
    (throw e : Step env α).Ensures d P E := ⟨h⟩

/-- What looks at the desk first sees the desk it begins at. -/
theorem ensures_get_bind {f : Desk env → Step env β} {P : β → Desk env → Prop}
    (h : (f d).Ensures d P E) : ((get : Step env (Desk env)) >>= f).Ensures d P E := ⟨h.run⟩

/-- To change the desk ensures what holds of the changed desk. -/
theorem ensures_modifyGet {f : Desk env → α × Desk env} {P : α → Desk env → Prop}
    (h : P (f d).1 (f d).2) : (modifyGet f : Step env α).Ensures d P E := ⟨h⟩

/-- To ask the collaborators ensures what holds once they have been asked. -/
theorem ensures_withWorld {f : World env → α × World env} {P : α → Desk env → Prop}
    (h : P (f d.session.world).1 (d.after [] (f d.session.world).2)) :
    (withWorld f).Ensures d P E := by
  rw [Desk.after_nil] at h
  exact ⟨h⟩

variable {P : Unit → Desk env → Prop}

/-- To tell an event ensures what holds once it has been told. -/
theorem ensures_tell {e : Event} (h : P () (d.after [e] d.session.world)) :
    (tell e).Ensures d P E := ⟨h⟩

/-- So does telling pieces one by one. -/
theorem ensures_tellPieces {pieces : List String}
    (h : P () (d.after (pieces.map .token) d.session.world)) :
    (pieces.forM fun piece => (tell (.token piece) : Step env Unit)).Ensures d P E := by
  induction pieces generalizing d with
  | nil =>
      rw [List.map_nil, Desk.after_nil] at h
      exact ⟨h⟩
  | cons piece pieces ih =>
      refine Ensures.bind (M := fun _ d' => d' = d.after [.token piece] d.session.world)
        (ensures_tell rfl) ?_
      rintro ⟨⟩ d' rfl
      exact ih (by rwa [Desk.after_after])

/-- A step that the state allows is taken. -/
theorem ensures_advance {e : TurnEvent} {machine : TurnMachine}
    (ha : d.machine.apply e = .ok machine) (h : P () { d with machine }) :
    (advance e).Ensures d P E := by
  refine ensures_get_bind ?_
  rw [ha]
  exact ⟨h⟩

/-- **An action by itself comes out as its program promises**, and the turn with it. -/
theorem ensures_perform {limit : Option ℕ} {p : Action α} {P : α → Desk env → Prop}
    {V : List Exchange → Ending α → Prop} (hp : Program.Always V p.run [])
    (hok : ∀ xs w a, d.session.world.Spoke xs w → V xs (.value (.ok a)) → P a (d.after [] w))
    (hfailed : ∀ xs w e, d.session.world.Spoke xs w → V xs (.value (.error e)) →
      E (.failed e) (d.after [] w))
    (hcrashed : ∀ xs w, d.session.world.Spoke xs w → V xs .crashed → E .crashed (d.after [] w))
    (hlate : ∀ xs w t, d.session.world.Spoke xs w → limit = some t → t ≤ w.now → V xs .late →
      E .late (d.after [] w)) :
    (perform limit p).Ensures d P E := by
  obtain ⟨xs, hw, hv⟩ := d.session.world.perform_always limit hp
  refine Ensures.bind (ensures_withWorld (P := fun o d' =>
    o = (d.session.world.perform limit p).1 ∧
      d' = d.after [] (d.session.world.perform limit p).2) ⟨rfl, rfl⟩) ?_
  rintro o d' ⟨rfl, rfl⟩
  generalize (d.session.world.perform limit p).1 = o at hv
  cases hv with
  | ended e hne h =>
      rcases e with (e | a) | _ | _
      · exact ensures_throw (hfailed xs _ e hw h)
      · exact ensures_pure (hok xs _ a hw h)
      · exact ensures_throw (hcrashed xs _ hw h)
      · exact absurd rfl hne
  | dropped t hlimit ht h => exact ensures_throw (hlate xs _ t hw hlimit ht h)

/-- What becomes of a streamed answer is what becomes of the exchange: the pieces that can be passed
on are told first. -/
theorem ensures_stream {request : ChatRequest}
    (h : ∀ (response : Response (.stream request)) (w : World env) (pieces : List String),
      d.session.world.Spoke [⟨.stream request, response⟩] w →
        match Exchange.ended ⟨.stream request, response⟩ with
        | .complete => P () (d.after (pieces.map .token) w)
        | .failed e => E (.failed e) (d.after (pieces.map .token) w)
        | .brokenDown => E .crashed (d.after (pieces.map .token) w)) :
    (stream request).Ensures d P E := by
  have hp : Program.Always (fun xs ending => ∃ response : Response (.stream request),
      xs = [⟨.stream request, response⟩] ∧ match ending with
        | .value r => response.outcome = some r
        | .crashed => response.outcome = none
        | .late => True) (Action.ask (.stream request)).run [] := by
    refine ⟨nofun, fun response => ⟨⟨response, rfl, trivial⟩, ?_⟩⟩
    cases ho : response.outcome with
    | none => exact ⟨response, rfl, ho⟩
    | some r => exact ⟨response, rfl, ho⟩
  -- Asking for the stream and handing on its pieces are two steps with the answer between.
  refine Ensures.bind (M := fun chunks d' => ∃ (delay : ℕ) (w : World env),
    d.session.world.Spoke [⟨.stream request, ⟨delay, some (.ok chunks)⟩⟩] w ∧ d' = d.after [] w)
    (ensures_perform hp ?_ ?_ ?_ ?_) ?_
  · rintro xs w chunks hw ⟨⟨delay, outcome⟩, rfl, ho⟩
    cases ho
    exact ⟨delay, w, hw, rfl⟩
  · rintro xs w e hw ⟨response, rfl, ho⟩
    have hstream := h response w [] hw
    rwa [Exchange.ended_of_error ho] at hstream
  · rintro xs w hw ⟨response, rfl, ho⟩
    have hstream := h response w [] hw
    rwa [Exchange.ended_of_none ho] at hstream
  · -- A stream has no limit to its time, so that it is never late.
    intro xs w t _ hlimit
    cases hlimit
  · rintro chunks d' ⟨delay, w, hw, rfl⟩
    have hstream := h ⟨delay, some (.ok chunks)⟩ w (Synthesis.stream chunks).pieces hw
    rw [Exchange.ended] at hstream
    refine Ensures.bind (ensures_tellPieces (P := fun _ d' =>
      d' = d.after ((Synthesis.stream chunks).pieces.map .token) w) (d.after_after ..)) ?_
    rintro ⟨⟩ d' rfl
    cases he : (Synthesis.stream chunks).ended <;> rw [he] at hstream
    · exact ensures_pure hstream
    · exact ensures_throw hstream
    · exact ensures_throw hstream

/-- A permit is given or not; asking for it changes the limiter alone. -/
theorem ensures_takePermit {caller : String}
    (h : ∀ granted limiter,
      d.session.limiter.acquire caller d.session.world.clock = (granted, limiter) →
        match granted with
        | .ok () => P () { d with session := { d.session with limiter } }
        | .error e => E (.failed e) { d with session := { d.session with limiter } }) :
    (takePermit caller).Ensures d P E := by
  rcases ha : d.session.limiter.acquire caller d.session.world.clock with ⟨granted, limiter⟩
  have hp := h granted limiter ha
  refine Ensures.bind (ensures_modifyGet (P := fun o d' => o = granted ∧
    d' = { d with session := { d.session with limiter } }) (by rw [ha]; exact ⟨rfl, rfl⟩)) ?_
  rintro o d' ⟨rfl, rfl⟩
  rcases o with e | ⟨⟩
  · exact ensures_throw hp
  · exact ensures_pure hp

/-- A round gives a result for each call of a plan, and its calls ask what tools ask. -/
theorem ensures_round {workshop : Workshop} {limit : ℕ} {plan : Plan}
    {P : List ToolResult → Desk env → Prop}
    (hok : ∀ w results, d.session.world.Asked Ask.IsForTool w →
      results.map (·.call) = plan.calls →
      P results { d.after [.status .toolExecution (some (Text.joined ", " plan.names))] w with
        rounds := d.rounds ++ [plan.calls] })
    (hlate : ∀ w, d.session.world.Asked Ask.IsForTool w → limit ≤ w.now →
      E .late { d.after [.status .toolExecution (some (Text.joined ", " plan.names))] w with
        rounds := d.rounds ++ [plan.calls] }) :
    (round workshop (some limit) plan).Ensures d P E := by
  have hasked := workshop.round_asked (some limit) plan.calls d.session.world
  refine Ensures.bind (ensures_tell (P := fun _ d' => d' = d.after _ d.session.world) rfl) ?_
  rintro ⟨⟩ d₁ rfl
  refine Ensures.bind (ensures_modifyGet (P := fun _ d' => d' =
    { d.after [.status .toolExecution (some (Text.joined ", " plan.names))] d.session.world with
      rounds := d.rounds ++ [plan.calls] }) rfl) ?_
  rintro ⟨⟩ d₂ rfl
  refine Ensures.bind (ensures_withWorld (P := fun o d' =>
    o = (workshop.round (some limit) plan.calls d.session.world).1 ∧ d' =
      { d.after [.status .toolExecution (some (Text.joined ", " plan.names))]
          (workshop.round (some limit) plan.calls d.session.world).2 with
        rounds := d.rounds ++ [plan.calls] }) ⟨rfl, ?_⟩) ?_
  · rw [Desk.after_nil]
    rfl
  · rintro o d₃ ⟨ho, rfl⟩
    cases o with
    | none => exact ensures_throw (hlate _ hasked (Workshop.le_now_of_round ho.symm))
    | some results =>
        exact ensures_pure (hok _ results hasked (Workshop.map_call_of_round ho.symm))

end Step

end Archivist
