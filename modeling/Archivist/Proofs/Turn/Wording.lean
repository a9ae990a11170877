import Archivist.Proofs.Tool.Wording
import Archivist.Proofs.Turn.Isolation

/-!
# No Words of Failures Get Out

What a collaborator says when it fails may quote anything. A turn counts such failures, tells of
them in its answer and may end with one, but nobody is told a word of it: two turns on one request
whose collaborators answer alike but for the words of failures tell their listener the same and ask
the same, as long as the language model is not asked for a second opinion, which is shown what calls
have failed with.

`Step.Rewords` relates a part of one turn to the same part of the other. It goes through a turn in
the order of its parts (`Step.Rewords.bind`).

## Main results

* `Assistant.rewords_drive`: two turns that differ in words of failures alone go on alike, part by
  part.
* `Config.turn_reworded`: they tell the same, and ask the same.
-/

namespace Archivist

/-- Two reasons not to go on that differ in words of failures alone. -/
inductive Halt.Rewords : Halt → Halt → Prop where
  | failed {e e' : Failure} (h : e.Rewords e') : Rewords (.failed e) (.failed e')
  | misstep (e : Failure) : Rewords (.misstep e) (.misstep e)
  | late : Rewords .late .late
  | crashed : Rewords .crashed .crashed

variable {env env' : Environment} {rel : env.State → env'.State → Prop}

/-- Two sessions in which all is the same but for the environments. -/
structure Session.Rewords (rel : env.State → env'.State → Prop) (s : Session env)
    (s' : Session env') : Prop where
  world : s.world.Rewords rel s'.world
  limiter_eq : s.limiter = s'.limiter

/-- Two desks at which all is the same but for the environments. -/
structure Desk.Rewords (rel : env.State → env'.State → Prop) (d : Desk env) (d' : Desk env') :
    Prop where
  session : d.session.Rewords rel d'.session
  machine_eq : d.machine = d'.machine
  sink_eq : d.sink = d'.sink
  rounds_eq : d.rounds = d'.rounds

namespace Step

variable {α β γ δ : Type} {R : α → β → Prop} {S : γ → δ → Prop}

/-- Two parts of turns that come out alike but for the words of failures, with values as `R`
says. -/
def Rewords (rel : env.State → env'.State → Prop) (R : α → β → Prop) (m : Step env α)
    (m' : Step env' β) : Prop :=
  ∀ d d', d.Rewords rel d' →
    ExceptRel Halt.Rewords R (m.run.run d).1 (m'.run.run d').1 ∧
      (m.run.run d).2.Rewords rel (m'.run.run d').2

/-- **What follows two parts that come out alike has to come out alike.** -/
theorem Rewords.bind {m : Step env α} {m' : Step env' β} {f : α → Step env γ}
    {f' : β → Step env' δ} (hm : Rewords rel R m m')
    (hf : ∀ a b, R a b → Rewords rel S (f a) (f' b)) : Rewords rel S (m >>= f) (m' >>= f') := by
  intro d d' hd
  obtain ⟨ho, hx⟩ := hm d d' hd
  rcases h₁ : m.run.run d with ⟨o, x⟩
  rcases h₂ : m'.run.run d' with ⟨o', x'⟩
  rw [h₁, h₂] at ho hx
  cases ho with
  | error he =>
      rw [run_bind_of_error h₁, run_bind_of_error h₂]
      exact ⟨.error he, hx⟩
  | ok hab =>
      rw [run_bind_of_ok h₁, run_bind_of_ok h₂]
      exact hf _ _ hab _ _ hx

/-- What follows parts that have one value. -/
theorem Rewords.bind_eq {m : Step env α} {m' : Step env' α} {f : α → Step env γ}
    {f' : α → Step env' δ} (hm : Rewords rel Eq m m') (hf : ∀ a, Rewords rel S (f a) (f' a)) :
    Rewords rel S (m >>= f) (m' >>= f') :=
  hm.bind fun a _ h => h ▸ hf a

/-- Values that are related. -/
theorem rewords_pure {a : α} {b : β} (h : R a b) :
    Rewords rel R (pure a : Step env α) (pure b : Step env' β) := fun _ _ hd => ⟨.ok h, hd⟩

/-- Halts that differ in words alone. -/
theorem rewords_throw {e e' : Halt} (h : e.Rewords e') :
    Rewords rel R (throw e : Step env α) (throw e' : Step env' β) := fun _ _ hd => ⟨.error h, hd⟩

/-- The same event is told. -/
theorem rewords_tell (e : Event) :
    Rewords rel Eq (tell e : Step env Unit) (tell e : Step env' Unit) := fun _ _ hd =>
  ⟨.ok rfl, { hd with sink_eq := congrArg (Sink.send · e) hd.sink_eq }⟩

/-- The same pieces are told. -/
theorem rewords_tellPieces (pieces : List String) :
    Rewords rel Eq (pieces.forM fun piece => (tell (.token piece) : Step env Unit))
      (pieces.forM fun piece => (tell (.token piece) : Step env' Unit)) := by
  induction pieces with
  | nil => exact rewords_pure rfl
  | cons piece pieces ih => exact (rewords_tell (.token piece)).bind_eq fun _ => ih

/-- The same step is taken or refused. -/
theorem rewords_advance (e : TurnEvent) :
    Rewords rel Eq (advance e : Step env Unit) (advance e : Step env' Unit) := by
  intro d d' hd
  rw [run_advance, run_advance, hd.machine_eq]
  split
  · exact ⟨.ok rfl, { hd with machine_eq := rfl }⟩
  · exact ⟨.error (.misstep _), hd⟩

/-- What looks at the desks sees the same but for the environments. -/
theorem rewords_get_bind {f : Desk env → Step env γ} {f' : Desk env' → Step env' δ}
    (h : ∀ d d', d.Rewords rel d' → Rewords rel S (f d) (f' d')) :
    Rewords rel S ((get : Step env (Desk env)) >>= f) ((get : Step env' (Desk env')) >>= f') :=
  fun d d' hd => h d d' hd d d' hd

/-- The collaborators are asked the same. -/
theorem rewords_withWorld {f : World env → α × World env} {f' : World env' → β × World env'}
    (h : ∀ w w', w.Rewords rel w' → R (f w).1 (f' w').1 ∧ (f w).2.Rewords rel (f' w').2) :
    Rewords rel R (withWorld f) (withWorld f') := by
  intro d d' hd
  obtain ⟨hvalue, hworld⟩ := h _ _ hd.session.world
  exact ⟨.ok hvalue, { hd with session := { hd.session with world := hworld } }⟩

/-- Endings that differ in words alone are gone on with alike. -/
theorem rewords_ofEnding {o : Option (Ending α)} {o' : Option (Ending β)}
    (h : Option.Rel (Ending.Rewords R) o o') :
    Rewords rel R (ofEnding o : Step env α) (ofEnding o' : Step env' β) := by
  cases h with
  | none => exact rewords_throw .late
  | some h =>
      cases h with
      | crashed => exact rewords_throw .crashed
      | late => exact rewords_throw .late
      | value h =>
          cases h with
          | error he => exact rewords_throw (.failed he)
          | ok h => exact rewords_pure h

/-- An action comes out alike. -/
theorem rewords_perform {P : Ask → Prop} (henv : env.Rewords env' rel) (limit : Option ℕ)
    {p : Action α} {p' : Action β} (hp : Action.Rewords P R p p') :
    Rewords rel R (perform limit p : Step env α) (perform limit p' : Step env' β) :=
  (rewords_withWorld fun _ _ hw => hw.perform henv limit hp).bind fun _ _ => rewords_ofEnding

/-- **A caller is told of its permit, and no words of a collaborator.** -/
theorem rewords_takePermit (caller : String) :
    Rewords rel Eq (takePermit caller : Step env Unit) (takePermit caller : Step env' Unit) := by
  refine Rewords.bind_eq (fun d d' hd => ?_) fun granted => ?_
  · have hacquire : d.session.limiter.acquire caller d.session.world.clock =
        d'.session.limiter.acquire caller d'.session.world.clock := by
      rw [hd.session.limiter_eq, hd.session.world.clock_eq]
    have hgranted := congrArg Prod.fst hacquire
    have hlimiter := congrArg Prod.snd hacquire
    exact ⟨.ok hgranted, { hd with session := { hd.session with limiter_eq := hlimiter } }⟩
  · cases granted with
    | ok => exact rewords_pure rfl
    | error e => exact rewords_throw (.failed (.refl e))

/-- A round comes out alike. -/
theorem rewords_round (henv : env.Rewords env' rel) (workshop : Workshop) (limit : Option ℕ)
    (plan : Plan) :
    Rewords rel ToolResult.Rewords (round workshop limit plan : Step env (List ToolResult))
      (round workshop limit plan : Step env' (List ToolResult)) := by
  refine (rewords_tell _).bind_eq fun _ => ?_
  refine Rewords.bind_eq (fun d d' hd => ⟨.ok rfl, { hd with
    rounds_eq := congrArg (· ++ [plan.calls]) hd.rounds_eq }⟩) fun _ => ?_
  refine (rewords_withWorld fun _ _ hw => workshop.round_rewords hw henv limit plan.calls).bind
    fun rs? rs'? h => ?_
  cases h with
  | none => exact rewords_throw .late
  | some h => exact rewords_pure h

/-- A stream is passed on alike. -/
theorem rewords_stream (henv : env.Rewords env' rel) (request : ChatRequest) :
    Rewords rel Eq (stream request : Step env Unit) (stream request : Step env' Unit) := by
  refine (rewords_perform henv none (Action.rewords_ask (P := fun _ => True) trivial)).bind
    fun chunks chunks' h => ?_
  obtain ⟨hpieces, hended⟩ := Synthesis.streamFrom_rewords h {} []
  simp only [Synthesis.stream]
  rw [hpieces]
  refine (rewords_tellPieces _).bind_eq fun _ => ?_
  generalize (Synthesis.streamFrom {} [] chunks).ended = ended,
    (Synthesis.streamFrom {} [] chunks').ended = ended' at hended ⊢
  cases hended with
  | complete => exact rewords_pure rfl
  | failed he => exact rewords_throw (.failed he)
  | brokenDown => exact rewords_throw .crashed

end Step

namespace Assistant

open Step

variable (a : Assistant)

/-- Small talk is replied to alike. -/
theorem rewords_replySmalltalk (henv : env.Rewords env' rel) (question : String)
    (history : List Remark) (decision : Smalltalk.Decision) :
    Step.Rewords rel Eq (a.replySmalltalk question history decision : Step env Unit)
      (a.replySmalltalk question history decision : Step env' Unit) := by
  refine (rewords_advance .chitchatDetected).bind_eq fun _ => ?_
  refine (rewords_tell _).bind_eq fun _ => ?_
  split
  · exact (rewords_tell _).bind_eq fun _ => rewords_advance .replyComplete
  · exact (rewords_stream henv _).bind_eq fun _ => rewords_advance .replyComplete

/-- The results of two passes that differ in words of failures alone, with one plan for the next
pass. -/
def PassRewords (x x' : List ToolResult × Option Plan) : Prop :=
  ToolResult.Rewords x.1 x'.1 ∧ x.2 = x'.2

/-- A pass comes out alike, after results that differ in words alone. -/
theorem rewords_pass (ha : a.judge.asksModel = false) (henv : env.Rewords env' rel)
    (limit : Option ℕ) (question : String) (plan : Plan) {earlier earlier' : List ToolResult}
    (hearlier : ToolResult.Rewords earlier earlier') :
    Step.Rewords rel PassRewords (a.pass limit question plan earlier : Step env _)
      (a.pass limit question plan earlier' : Step env' _) := by
  refine (rewords_round henv a.workshop limit plan).bind fun results results' hresults => ?_
  have hall := hearlier.append hresults
  have hevaluate := hall.congr (a.judge.evaluate_wordless ha question)
  refine (rewords_advance .toolsFinished).bind_eq fun _ => ?_
  refine rewords_get_bind fun d d' hd => ?_
  rw [hd.machine_eq]
  split
  · exact (rewords_advance .sufficient).bind_eq fun _ => rewords_pure ⟨hall, rfl⟩
  · refine (rewords_tell _).bind_eq fun _ => ?_
    rw [← hevaluate]
    refine (rewords_perform henv limit (a.judge.wordless_evaluate ha question _)).bind_eq
      fun shortfall? => ?_
    cases shortfall? with
    | none => exact (rewords_advance .sufficient).bind_eq fun _ => rewords_pure ⟨hall, rfl⟩
    | some shortfall =>
        have hcorrect := hall.congr (a.corrector.correct_wordless question shortfall)
        refine (rewords_advance .insufficient).bind_eq fun _ => ?_
        refine (rewords_tell _).bind_eq fun _ => ?_
        rw [← hcorrect]
        have hwordless := a.corrector.wordless_correct question shortfall (earlier ++ results)
        refine (rewords_perform henv limit hwordless).bind_eq fun replan? => ?_
        cases replan? with
        | none => exact (rewords_advance .noCorrection).bind_eq fun _ => rewords_pure ⟨hall, rfl⟩
        | some replan =>
            exact (rewords_advance .replanReady).bind_eq fun _ => rewords_pure ⟨hall, rfl⟩

/-- So do all passes. -/
theorem rewords_passes (ha : a.judge.asksModel = false) (henv : env.Rewords env' rel)
    (limit : Option ℕ) (question : String) (most : ℕ) (plan : Plan)
    {earlier earlier' : List ToolResult} (hearlier : ToolResult.Rewords earlier earlier') :
    Step.Rewords rel ToolResult.Rewords (a.passes limit question most plan earlier : Step env _)
      (a.passes limit question most plan earlier' : Step env' _) := by
  induction most generalizing plan earlier earlier' with
  | zero => exact rewords_pure hearlier
  | succ most ih =>
      refine (a.rewords_pass ha henv limit question plan hearlier).bind ?_
      rintro ⟨results, plan?⟩ ⟨results', plan'?⟩ ⟨hresults, hplan⟩
      obtain rfl : plan? = plan'? := hplan
      cases plan? with
      | none => exact rewords_pure hresults
      | some plan => exact ih plan hresults

/-- A question is looked into alike. -/
theorem rewords_lookInto (ha : a.judge.asksModel = false) (henv : env.Rewords env' rel)
    (limit : Option ℕ) (question : String) (history : List Remark) (hints : Hints) :
    Step.Rewords rel ToolResult.Rewords (a.lookInto limit question history hints : Step env _)
      (a.lookInto limit question history hints : Step env' _) := by
  refine (rewords_tell _).bind_eq fun _ => ?_
  refine (rewords_perform henv limit (a.planner.wordless_plan question history hints)).bind_eq
    fun plan => ?_
  refine (rewords_advance .planReady).bind_eq fun _ => ?_
  exact a.rewords_passes ha henv limit question _ _ rfl

/-- A question is answered alike. -/
theorem rewords_answer (ha : a.judge.asksModel = false) (henv : env.Rewords env' rel)
    (r : TurnRequest) (question : String) :
    Step.Rewords rel ToolResult.Rewords (a.answer r question : Step env _)
      (a.answer r question : Step env' _) := by
  refine (rewords_advance .retrievalNeeded).bind_eq fun _ => ?_
  refine (rewords_takePermit r.caller).bind_eq fun _ => ?_
  refine (rewords_advance .permitGranted).bind_eq fun _ => ?_
  refine rewords_get_bind fun d d' hd => ?_
  rw [hd.session.world.now_eq]
  refine (a.rewords_lookInto ha henv _ question r.history _).bind fun results results' h => ?_
  have hrequest := h.congr
    (Synthesis.request_wordless a.context a.planner.historyTurns question r.history)
  refine (rewords_tell _).bind_eq fun _ => ?_
  rw [← hrequest]
  refine (rewords_stream henv _).bind_eq fun _ => ?_
  exact (rewords_advance .replyComplete).bind_eq fun _ => rewords_pure h

/-- **Two turns that differ in words of failures alone go on alike** before they are concluded. -/
theorem rewords_drive (ha : a.judge.asksModel = false) (henv : env.Rewords env' rel)
    (r : TurnRequest) :
    Step.Rewords rel ToolResult.Rewords (a.drive r : Step env _) (a.drive r : Step env' _) := by
  refine (rewords_advance .begin).bind_eq fun _ => ?_
  refine (rewords_tell _).bind_eq fun _ => ?_
  by_cases hr : (Smalltalk.classify (Text.trimmed r.question)).isSmalltalk = true
  · simp only [hr, if_true]
    exact (a.rewords_replySmalltalk henv _ r.history _).bind_eq fun _ => rewords_pure rfl
  · simp only [hr]
    exact a.rewords_answer ha henv r _

/-- **A turn ends alike if all that came before it differs in words of failures alone.** -/
theorem endingOf_rewords {s : Session env} {s' : Session env'} (hs : s.Rewords rel s')
    {d : Desk env} {d' : Desk env'} (hd : d.Rewords rel d')
    {o o' : Except Halt (List ToolResult)} (ho : ExceptRel Halt.Rewords ToolResult.Rewords o o') :
    a.endingOf s d o = a.endingOf s' d' o' := by
  cases ho with
  | ok h =>
      have hcitations := h.congr Synthesis.citations_wordless
      have hlength := h.congr (f := List.length) fun _ => List.length_map _
      rw [endingOf, endingOf, hcitations, hlength, hd.session.world.now_eq, hs.world.now_eq]
  | @error e e' h =>
      have hfailure : (a.failureOf e).Rewords (a.failureOf e') := by
        cases h with
        | failed he => exact he
        | misstep | late | crashed => exact .refl _
      rw [endingOf, endingOf, Event.ofFailure, Event.ofFailure, hfailure.code_eq,
        hfailure.userMessage_eq]

/-- **Two turns tell the same** and leave sessions alike but for the words of failures. -/
theorem rewords_turn (ha : a.judge.asksModel = false) (henv : env.Rewords env' rel)
    (r : TurnRequest) {s : Session env} {s' : Session env'} (hs : s.Rewords rel s') :
    (a.turn r s).events = (a.turn r s').events ∧
      (a.turn r s).session.Rewords rel (a.turn r s').session := by
  obtain ⟨o, d, hr, -, hend, -⟩ := a.turn_endsWith r s
  obtain ⟨o', d', hr', -, hend', -⟩ := a.turn_endsWith r s'
  have hdrive := a.rewords_drive ha henv r { session := s } { session := s' } ⟨hs, rfl, rfl, rfl⟩
  rw [hr, hr'] at hdrive
  obtain ⟨ho, hd⟩ := hdrive
  have hevents : d.events = d'.events := congrArg Sink.events hd.sink_eq
  refine ⟨?_, ?_⟩
  · rw [hend.events, hend'.events, hevents, a.endingOf_rewords hs hd ho]
  · rw [hend.session, hend'.session]
    exact hd.session

end Assistant

/-- **No word that a collaborator says of its failure gets out.** Two turns on one request whose
collaborators answer alike but for the words of failures tell the same events, and have asked the
same questions in the same order, those to the language model among them. -/
theorem Config.turn_reworded {c : Config} (hc : c.agent.sufficiencyCheck = false) (x : Expander)
    (today : Date) (henv : env.Rewords env' rel) (r : TurnRequest) {s : Session env}
    {s' : Session env'} (hs : s.Rewords rel s') :
    ((c.assistant x today).turn r s).events = ((c.assistant x today).turn r s').events ∧
      ((c.assistant x today).turn r s).session.world.log.map (·.question) =
        ((c.assistant x today).turn r s').session.world.log.map (·.question) := by
  obtain ⟨hevents, hsession⟩ := (c.assistant x today).rewords_turn hc henv r hs
  exact ⟨hevents, hsession.world.asked_eq⟩

/-- A language model whose plans nobody can read and whose answer breaks off, and stores that fail,
all with the same words. -/
def grumble (words : String) : (q : Ask) → Reply q
  | .complete _ => .ok ""
  | .stream _ => .ok [.text "查無資料", .failure (.stream words)]
  | _ => .error (.store words)

/-- Collaborators that answer so, and at once. -/
def grumbling (words : String) : Environment where
  State := Unit
  respond := fun q _ => (⟨0, some (grumble words q)⟩, ())

/-- A session with such collaborators in which nobody has asked anything. -/
def Config.grumblingSession (c : Config) (x : Expander) (words : String) :
    Session (grumbling words) := c.session x () 0 0

/-- Whether or not the failures give away a password makes no difference. -/
theorem Config.turn_reworded_of_grumbling : ∃ (c : Config) (x : Expander) (today : Date)
    (r : TurnRequest), c.agent.sufficiencyCheck = false ∧
      ((c.assistant x today).turn r (c.grumblingSession x "password: 1234")).events =
        ((c.assistant x today).turn r (c.grumblingSession x "")).events := by
  have henv : (grumbling "password: 1234").Rewords (grumbling "") fun _ _ => True := by
    rintro q ⟨⟩ ⟨⟩ -
    refine ⟨⟨rfl, .some ?_⟩, trivial⟩
    cases q with
    | complete => exact .ok rfl
    | stream => exact .ok (.cons (.text _) (.cons (.failure rfl) .nil))
    | _ => exact .error rfl
  have hsession : ∀ (c : Config) (x : Expander),
      (c.grumblingSession x "password: 1234").Rewords (fun _ _ => True)
        (c.grumblingSession x "") := fun c x => ⟨⟨rfl, rfl, rfl, rfl, trivial, rfl, rfl⟩, rfl⟩
  have hturn : ∀ (c : Config) (x : Expander) (today : Date) (r : TurnRequest),
      c.agent.sufficiencyCheck = false →
        ((c.assistant x today).turn r (c.grumblingSession x "password: 1234")).events =
          ((c.assistant x today).turn r (c.grumblingSession x "")).events :=
    fun c x today r hc => (turn_reworded hc x today henv r (hsession c x)).1
  exact ⟨{}, { index := .ofGroups [] }, ⟨2025, 1, 1, by decide⟩, ⟨"查詢橋梁", "a", [], none⟩, rfl,
    hturn _ _ _ _ rfl⟩

end Archivist
