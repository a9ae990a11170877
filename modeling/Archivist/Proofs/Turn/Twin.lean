import Archivist.Proofs.Turn.Limiter
import Archivist.Proofs.Turn.Step

/-!
# Parts of Two Turns

Two turns that have told the same so far, in sessions with different pasts, go on to tell the same.
`Step.Twins L caller P m₁ m₂ Q` says this of a part `m₁` of one turn and a part `m₂` of the other:
if answers are those of `L` and nothing is cut off, they come out alike, and the limiters are as `Q`
says if they were as `P` says. The two parts are one part with different limits, since the turns
began at different times.

It also says what each part does to its session in any case (`Session.Leads`): it leaves a calm
world calm, and makes no bucket but that of its caller. It goes through a turn in the order of its
parts (`Step.Twins.bind`).
-/

namespace Archivist

variable {env : Environment} {caller : String} {L : Lore}

/-- What a part of a turn makes of its session, whatever comes of it. -/
structure Session.Leads (caller : String) (s s' : Session env) : Prop where
  world : s.world.Leads s'.world
  calm : ∀ L, s'.world.Covered L → s.world.Calm L → s'.world.Calm L
  limiter : s.limiter.Spares caller s'.limiter

namespace Session.Leads

variable {s s' s'' : Session env}

theorem refl (s : Session env) : Leads caller s s :=
  ⟨.refl _, fun _ _ => id, .refl _ _⟩

theorem trans (h : Leads caller s s') (h' : Leads caller s' s'') : Leads caller s s'' where
  world := h.world.trans h'.world
  calm := fun L hcovered hw => h'.calm L hcovered (h.calm L (h'.world.covered hcovered) hw)
  limiter := h.limiter.trans h'.limiter

end Session.Leads

namespace Desk

/-- The same has been told and done, as far as can be seen. -/
structure Alike (d₁ d₂ : Desk env) : Prop where
  machine : d₁.machine = d₂.machine
  sink : d₁.sink = d₂.sink
  rounds : d₁.rounds = d₂.rounds

/-- From one desk to the other answers were as always, and nothing has been cut off. -/
structure Quiet (L : Lore) (d d' : Desk env) : Prop where
  covered : d'.session.world.Covered L
  timeouts : d'.session.world.timeouts = d.session.world.timeouts

variable {d d' d'' : Desk env}

theorem Quiet.congr (h : d.Quiet L d') (hs : d''.session = d'.session) : d.Quiet L d'' := by
  refine ⟨?_, ?_⟩ <;> rw [hs]
  · exact h.covered
  · exact h.timeouts

/-- What is quiet as a whole is quiet in its parts. -/
theorem Quiet.split (h : d.Quiet L d'') (h₁ : d.session.Leads caller d'.session)
    (h₂ : d'.session.Leads caller d''.session) : d.Quiet L d' ∧ d'.Quiet L d'' := by
  have hle := h₁.world.timeouts_le
  have hle' := h₂.world.timeouts_le
  have hsame := h.timeouts
  exact ⟨⟨h₂.world.covered h.covered, by omega⟩, ⟨h.covered, by omega⟩⟩

end Desk

namespace Step

variable {α β : Type} {P Q : Limiter Float → Prop}

/-- Whatever comes of a part of a turn, it does to its session what a turn may do. -/
def Behaves (caller : String) (m : Step env α) : Prop :=
  ∀ d : Desk env, d.session.Leads caller (m.run.run d).2.session

/-- A part that behaves does so however it comes out. -/
theorem Behaves.of_run {m : Step env α} (h : m.Behaves caller) {d d' : Desk env}
    {o : Except Halt α} (hr : m.run.run d = (o, d')) : d.session.Leads caller d'.session := by
  have hd := h d
  rwa [hr] at hd

/-- Two parts that behave do so together. -/
theorem Behaves.bind {m : Step env α} {f : α → Step env β} (hm : m.Behaves caller)
    (hf : ∀ a, (f a).Behaves caller) : (m >>= f).Behaves caller := by
  intro d
  rcases hr : m.run.run d with ⟨e | a, d'⟩
  · rw [run_bind_of_error hr]
    exact hm.of_run hr
  · rw [run_bind_of_ok hr]
    exact (hm.of_run hr).trans (hf a d')

/-- If a part of a turn is quiet, so is what it begins with. -/
theorem Behaves.quiet_of_bind {m : Step env α} {f : α → Step env β} (hm : m.Behaves caller)
    (hf : ∀ a, (f a).Behaves caller) {d x d' : Desk env} {o : Except Halt α}
    {o' : Except Halt β} (hr : m.run.run d = (o, x)) (hr' : (m >>= f).run.run d = (o', d'))
    (hq : d.Quiet L d') : d.Quiet L x := by
  cases o with
  | error e =>
      rw [run_bind_of_error hr] at hr'
      cases hr'
      exact hq
  | ok a =>
      rw [run_bind_of_ok hr] at hr'
      exact (hq.split (hm.of_run hr) ((hf a).of_run hr')).1

/-- Two desks from which two turns may go on alike. -/
structure Twin (L : Lore) (P : Limiter Float → Prop) (d₁ d₂ : Desk env) : Prop where
  alike : d₁.Alike d₂
  calm₁ : d₁.session.world.Calm L
  calm₂ : d₂.session.world.Calm L
  limiter₁ : P d₁.session.limiter
  limiter₂ : P d₂.session.limiter

/-- Two parts of turns that come out alike. -/
structure Twins (L : Lore) (caller : String) (P : Limiter Float → Prop) (m₁ m₂ : Step env α)
    (Q : Limiter Float → Prop) : Prop where
  behaves₁ : m₁.Behaves caller
  behaves₂ : m₂.Behaves caller
  alike : ∀ {d₁ d₂ d₁' d₂' : Desk env} {o₁ o₂ : Except Halt α}, Twin L P d₁ d₂ →
    m₁.run.run d₁ = (o₁, d₁') → m₂.run.run d₂ = (o₂, d₂') → d₁.Quiet L d₁' → d₂.Quiet L d₂' →
    o₁ = o₂ ∧ d₁'.Alike d₂' ∧
      ∀ a, o₁ = .ok a → Q d₁'.session.limiter ∧ Q d₂'.session.limiter

namespace Twins

variable {m₁ m₂ : Step env α} {f₁ f₂ : α → Step env β} {M : Limiter Float → Prop}

theorem mono {Q' : Limiter Float → Prop} (h : Twins L caller P m₁ m₂ Q) (hQ : ∀ l, Q l → Q' l) :
    Twins L caller P m₁ m₂ Q' where
  behaves₁ := h.behaves₁
  behaves₂ := h.behaves₂
  alike := fun ht hr₁ hr₂ hq₁ hq₂ => by
    obtain ⟨ho, ha, hl⟩ := h.alike ht hr₁ hr₂ hq₁ hq₂
    exact ⟨ho, ha, fun a hok => (hl a hok).imp (hQ _) (hQ _)⟩

/-- **What follows two parts that come out alike has to come out alike.** -/
theorem bind (hm : Twins L caller P m₁ m₂ M) (hf : ∀ a, Twins L caller M (f₁ a) (f₂ a) Q) :
    Twins L caller P (m₁ >>= f₁) (m₂ >>= f₂) Q where
  behaves₁ := hm.behaves₁.bind fun a => (hf a).behaves₁
  behaves₂ := hm.behaves₂.bind fun a => (hf a).behaves₂
  alike := by
    intro d₁ d₂ d₁' d₂' o₁ o₂ ht hr₁ hr₂ hq₁ hq₂
    rcases h₁ : m₁.run.run d₁ with ⟨o, x₁⟩
    rcases h₂ : m₂.run.run d₂ with ⟨o', x₂⟩
    have hm₁ := hm.behaves₁.of_run h₁
    have hm₂ := hm.behaves₂.of_run h₂
    have hx₁ := hm.behaves₁.quiet_of_bind (fun a => (hf a).behaves₁) h₁ hr₁ hq₁
    have hx₂ := hm.behaves₂.quiet_of_bind (fun a => (hf a).behaves₂) h₂ hr₂ hq₂
    obtain ⟨rfl, halike, hlimiter⟩ := hm.alike ht h₁ h₂ hx₁ hx₂
    cases o with
    | error e =>
        rw [run_bind_of_error h₁] at hr₁
        rw [run_bind_of_error h₂] at hr₂
        cases hr₁
        cases hr₂
        exact ⟨rfl, halike, nofun⟩
    | ok a =>
        rw [run_bind_of_ok h₁] at hr₁
        rw [run_bind_of_ok h₂] at hr₂
        obtain ⟨hl₁, hl₂⟩ := hlimiter a rfl
        have htwin : Twin L M x₁ x₂ :=
          ⟨halike, hm₁.calm L hx₁.covered ht.calm₁, hm₂.calm L hx₂.covered ht.calm₂, hl₁, hl₂⟩
        exact (hf a).alike htwin hr₁ hr₂
          (hq₁.split hm₁ ((hf a).behaves₁.of_run hr₁)).2
          (hq₂.split hm₂ ((hf a).behaves₂.of_run hr₂)).2

end Twins

/-! ### The parts that turns are made of -/

/-- A part that neither looks at the session nor changes it. -/
theorem twins_of_face {m : Step env α} (hsession : ∀ d, (m.run.run d).2.session = d.session)
    (hface : ∀ d₁ d₂ : Desk env, d₁.Alike d₂ →
      (m.run.run d₁).1 = (m.run.run d₂).1 ∧ (m.run.run d₁).2.Alike (m.run.run d₂).2) :
    Twins L caller P m m P := by
  have hbehaves : m.Behaves caller := fun d => by
    rw [hsession]
    exact .refl _
  refine ⟨hbehaves, hbehaves, fun {d₁ d₂ d₁' d₂' o₁ o₂} ht hr₁ hr₂ _ _ => ?_⟩
  have hs₁ := hsession d₁
  have hs₂ := hsession d₂
  obtain ⟨ho, halike⟩ := hface d₁ d₂ ht.alike
  rw [hr₁] at hs₁ ho halike
  rw [hr₂] at hs₂ ho halike
  exact ⟨ho, halike, fun _ _ => ⟨hs₁ ▸ ht.limiter₁, hs₂ ▸ ht.limiter₂⟩⟩

/-- Nothing is done on either side. -/
theorem twins_pure (a : α) : Twins L caller P (pure a : Step env α) (pure a) P :=
  twins_of_face (fun _ => rfl) fun _ _ h => ⟨rfl, h⟩

/-- Both sides halt. -/
theorem twins_throw (e : Halt) : Twins L caller P (throw e : Step env α) (throw e) P :=
  twins_of_face (fun _ => rfl) fun _ _ h => ⟨rfl, h⟩

/-- Both sides tell the same. -/
theorem twins_tell (e : Event) : Twins L caller P (tell e : Step env Unit) (tell e) P :=
  twins_of_face (fun _ => rfl) fun _ _ h =>
    ⟨rfl, h.machine, congrArg (Sink.send · e) h.sink, h.rounds⟩

/-- Both sides tell the same pieces. -/
theorem twins_tellPieces (pieces : List String) :
    Twins L caller P (pieces.forM fun piece => (tell (.token piece) : Step env Unit))
      (pieces.forM fun piece => tell (.token piece)) P := by
  induction pieces with
  | nil => exact twins_pure ()
  | cons piece pieces ih => exact (twins_tell (.token piece)).bind fun _ => ih

/-- A step is taken if the state allows it. -/
theorem run_advance (e : TurnEvent) (d : Desk env) :
    (advance e).run.run d = match d.machine.apply e with
      | .ok machine => (.ok (), { d with machine })
      | .error failure => (.error (.misstep failure), d) := by
  change ((match d.machine.apply e with
    | .ok machine => modify fun d => { d with machine }
    | .error failure => throw (.misstep failure) : Step env Unit)).run.run d = _
  cases d.machine.apply e <;> rfl

/-- Both sides take the same step or none. -/
theorem twins_advance (e : TurnEvent) :
    Twins L caller P (advance e : Step env Unit) (advance e) P := by
  refine twins_of_face (fun d => ?_) fun d₁ d₂ h => ?_
  · rw [run_advance]
    split <;> rfl
  · rw [run_advance, run_advance, h.machine]
    split
    · exact ⟨rfl, rfl, h.sink, h.rounds⟩
    · exact ⟨rfl, h⟩

/-- What looks at the desk sees the same machine. -/
theorem twins_get_bind {f₁ f₂ : Desk env → Step env β}
    (h : ∀ d₁ d₂ : Desk env, d₁.machine = d₂.machine → Twins L caller P (f₁ d₁) (f₂ d₂) Q) :
    Twins L caller P ((get : Step env (Desk env)) >>= f₁) ((get : Step env (Desk env)) >>= f₂)
      Q where
  behaves₁ := fun d => (h d d rfl).behaves₁ d
  behaves₂ := fun d => (h d d rfl).behaves₂ d
  alike := fun ht hr₁ hr₂ hq₁ hq₂ => (h _ _ ht.alike.machine).alike ht hr₁ hr₂ hq₁ hq₂

variable {f₁ f₂ : World env → α × World env} {a : α}

/-- What asks the collaborators behaves. -/
theorem behaves_withWorld (h : World.ComesTo f₁ L a) : (withWorld f₁).Behaves caller := fun d =>
  ⟨h.leads d.session.world, fun L => h.calm d.session.world L, .refl _ _⟩

/-- **What is done with the collaborators comes to the same.** -/
theorem twins_withWorld (h₁ : World.ComesTo f₁ L a) (h₂ : World.ComesTo f₂ L a) :
    Twins L caller P (withWorld f₁) (withWorld f₂) P where
  behaves₁ := behaves_withWorld h₁
  behaves₂ := behaves_withWorld h₂
  alike := by
    intro d₁ d₂ d₁' d₂' o₁ o₂ ht hr₁ hr₂ hq₁ hq₂
    cases hr₁
    cases hr₂
    refine ⟨?_, ⟨ht.alike.machine, ht.alike.sink, ht.alike.rounds⟩,
      fun _ _ => ⟨ht.limiter₁, ht.limiter₂⟩⟩
    rw [h₁.eq d₁.session.world hq₁.covered ht.calm₁ hq₁.timeouts,
      h₂.eq d₂.session.world hq₂.covered ht.calm₂ hq₂.timeouts]

/-- Both sides go on with the same ending. -/
theorem twins_ofEnding (o : Option (Ending α)) :
    Twins L caller P (ofEnding o : Step env α) (ofEnding o) P := by
  match o with
  | some (.value (.ok a)) => exact twins_pure a
  | some (.value (.error e)) => exact twins_throw (.failed e)
  | some .crashed => exact twins_throw .crashed
  | some .late | none => exact twins_throw .late

/-- An action comes out the same on both sides. -/
theorem twins_perform (p : Action α) (limit₁ limit₂ : ℕ) :
    Twins L caller P (perform (some limit₁) p : Step env α) (perform (some limit₂) p) P := by
  have hcomes : ∀ limit : ℕ, World.ComesTo (fun w : World env => w.perform (some limit) p) L
      (some (p.run.ending L)) := fun limit =>
    World.comesTo_perform (fun h => absurd h (Option.some_ne_none limit)) L
  exact (twins_withWorld (hcomes limit₁) (hcomes limit₂)).bind twins_ofEnding

/-- A round comes out the same on both sides. -/
theorem twins_round (workshop : Workshop) (plan : Plan) (limit₁ limit₂ : ℕ) :
    Twins L caller P (round workshop (some limit₁) plan : Step env (List ToolResult))
      (round workshop (some limit₂) plan) P := by
  refine (twins_tell _).bind fun _ => ?_
  refine Twins.bind (M := P) (twins_of_face (fun _ => rfl) fun d₁ d₂ h =>
    ⟨rfl, h.machine, h.sink, congrArg (· ++ [plan.calls]) h.rounds⟩) fun _ => ?_
  refine (twins_withWorld (workshop.comesTo_round limit₁ plan.calls L)
    (workshop.comesTo_round limit₂ plan.calls L)).bind fun results? => ?_
  cases results? with
  | none => exact twins_throw .late
  | some results => exact twins_pure results

/-- A streamed answer is not cut off. -/
theorem perform_stream_ne_none (request : ChatRequest) (w : World env) :
    (w.perform none (Action.ask (.stream request))).1 ≠ none := by
  have hp : Program.Always (fun _ _ => True) (Action.ask (.stream request)).run [] :=
    ⟨nofun, fun response => ⟨trivial, by cases response.outcome <;> trivial⟩⟩
  obtain ⟨xs, -, hperformed⟩ := w.perform_always none hp
  intro hnone
  rw [hnone] at hperformed
  cases hperformed with
  | dropped t hlimit => cases hlimit

/-- A stream is passed on the same on both sides. -/
theorem twins_stream (request : ChatRequest) :
    Twins L caller P (stream request : Step env Unit) (stream request) P := by
  have hcomes : World.ComesTo
      (fun w : World env => w.perform none (Action.ask (.stream request))) L
      (some ((Action.ask (.stream request)).run.ending L)) :=
    World.comesTo_perform (fun _ => perform_stream_ne_none request) L
  have hperform : Twins L caller P (perform none (Action.ask (.stream request)) : Step env _)
      (perform none (Action.ask (.stream request))) P :=
    (twins_withWorld hcomes hcomes).bind twins_ofEnding
  refine hperform.bind fun chunks => ?_
  refine (twins_tellPieces (Synthesis.stream chunks).pieces).bind fun _ => ?_
  split
  · exact twins_pure ()
  · exact twins_throw _
  · exact twins_throw .crashed

/-- **A caller without a bucket is told the same by both limiters.** -/
theorem twins_takePermit (caller : String) (burst rate : Float) :
    Twins L caller (·.IsNewTo caller burst rate) (takePermit caller : Step env Unit)
      (takePermit caller) fun _ => True := by
  refine Twins.bind (M := fun _ => True) ⟨?_, ?_, ?_⟩ fun granted => ?_
  · exact fun d => ⟨.refl _, fun _ _ => id, Limiter.spares_acquire ..⟩
  · exact fun d => ⟨.refl _, fun _ _ => id, Limiter.spares_acquire ..⟩
  · intro d₁ d₂ d₁' d₂' o₁ o₂ ht hr₁ hr₂ _ _
    cases hr₁
    cases hr₂
    refine ⟨congrArg Except.ok ?_, ⟨ht.alike.machine, ht.alike.sink, ht.alike.rounds⟩,
      fun _ _ => ⟨trivial, trivial⟩⟩
    exact ht.limiter₁.acquire_eq ht.limiter₂ _ _
  · cases granted with
    | ok => exact twins_pure ()
    | error e => exact twins_throw (.failed e)

end Step

end Archivist
