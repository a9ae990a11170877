import Archivist.Proofs.Turn.Search

/-!
# How Turns End

Every turn ends with a single ending, whatever its collaborators do: with its sources in the last
state, or with an error. An error has a cause outside the turn: an exchange that failed, the rate
limit, the time; or the turn has broken down, and then the sink speaks for it.

## Main results

* `Assistant.turn_concluded`: the one ending of a turn, and what it is due to.
-/

/-! ### Turns before they are concluded

A turn is small talk, or it is a search that is admitted or not. Each of the three has a rule of its
own here. Small talk asks the language model once at most, and nobody else (`Desk.Chatted`); a
search that is not admitted asks nobody (`Assistant.ensures_answer_rejected`); one that is goes
through one of the `searchPaths` and has its results when it gets to the end (`Desk.Answered`).

`Assistant.Driven` lists how a turn comes out, and `Assistant.ensures_drive` is that it does.
Whichever way that is, the turn has kept to a path (`Assistant.Driven.exists_account`).
-/

namespace Archivist

variable {env : Environment}

/-- Whether a turn is small talk. -/
def TurnRequest.isSmalltalk (r : TurnRequest) : Bool :=
  (Smalltalk.classify (Text.trimmed r.question)).isSmalltalk

/-- The stages of small talk. -/
def smalltalkPath : List Stage := [.classifying, .chitchat]

/-- The paths that a turn may take. -/
def TurnRequest.paths (r : TurnRequest) : List (List Stage) :=
  if r.isSmalltalk then [smalltalkPath] else searchPaths

/-- The desk where a turn has been classified. -/
def Desk.classified (s : Session env) : Desk env where
  session := s
  machine := { state := .chitchatCheck, trace := [.start, .chitchatCheck] }
  sink := { events := [.status .classifying none] }

/-- The desk where a reply to small talk is begun. -/
def Desk.chatting (s : Session env) : Desk env where
  session := s
  machine := { state := .chitchatReply, trace := [.start, .chitchatCheck, .chitchatReply] }
  sink := { events := [.status .classifying none, .status .chitchat none] }

/-- The desk where a search asks for its permit. -/
def Desk.applying (s : Session env) : Desk env where
  session := s
  machine := { state := .rateLimitCheck, trace := [.start, .chitchatCheck, .rateLimitCheck] }
  sink := { events := [.status .classifying none] }

/-- The desk after small talk, whether or not it has got to its end: the caller has not been
charged, and the language model has been asked once at most, and nobody else. -/
structure Desk.Chatted (s : Session env) (d : Desk env) : Prop where
  account : ∃ pieces, d.Account s smalltalkPath pieces [.chitchat]
  limiter : d.session.limiter = s.limiter
  asked : ∃ xs, s.world.Spoke xs d.session.world ∧ xs.length ≤ 1 ∧
    ∀ x ∈ xs, x.question.task? = some .chitchat

/-- The desk of a search that has got to its end with these results. -/
structure Desk.Answered (s : Session env) (results : List ToolResult) (d : Desk env) : Prop where
  account : ∃ path ∈ searchPaths, ∃ pieces, d.Account s path pieces searchRequests
  state : d.machine.state = .done
  calls : d.rounds.flatten.length = results.length

/-- A turn that asks for its permit has told that it classifies. -/
theorem Desk.account_applying (s : Session env) :
    (Desk.applying s).Account s [.classifying] [] [] :=
  ((Desk.Account.start s).enter none (by decide)).congr rfl rfl rfl

/-- A turn that replies to small talk has told that it does. -/
theorem Desk.account_chatting (s : Session env) :
    (Desk.chatting s).Account s smalltalkPath [] [] :=
  ((Desk.account_applying s).enter none (by decide)).congr rfl rfl rfl

/-- A reply to small talk that has been told, after an exchange or without one. -/
theorem Desk.chatted_after {s : Session env} {w : World env} {xs : List Exchange}
    (hw : s.world.Spoke xs w) (hlen : xs.length ≤ 1)
    (hxs : ∀ x ∈ xs, x.question.task? = some .chitchat) (pieces : List String) :
    Desk.Chatted s ((Desk.chatting s).after (pieces.map .token) w) where
  account := by
    have hrequests : (requestsOf xs).Sublist [.chitchat] := by
      rcases xs with _ | ⟨x, _ | ⟨y, rest⟩⟩
      · exact List.nil_sublist _
      · have hx := requestsOf_singleton x.question x.response
        rwa [hxs x List.mem_cons_self] at hx
      · simp at hlen
    exact ⟨pieces, (Desk.account_chatting s).after hw.log hrequests pieces⟩
  limiter := rfl
  asked := ⟨xs, hw, hlen, hxs⟩

/-- A machine in a state that gets to the end takes the step there. -/
theorem TurnMachine.exists_apply_replyComplete {m : TurnMachine}
    (h : m.state = .chitchatReply ∨ m.state = .synthesis) :
    ∃ m', m.apply .replyComplete = .ok m' ∧ m'.state = .done := by
  simp only [apply]
  rcases h with h | h <;> rw [h] <;> exact ⟨_, rfl, rfl⟩

namespace Assistant

variable {a : Assistant} {s : Session env} {d : Desk env} {question : String} {r : TurnRequest}
  {E : Halt → Desk env → Prop}

open Step

/-- A turn that gets to its end takes the step there. -/
theorem ensures_replyComplete {P : Unit → Desk env → Prop}
    (h : d.machine.state = .chitchatReply ∨ d.machine.state = .synthesis)
    (hP : ∀ machine : TurnMachine, machine.state = .done → P () { d with machine }) :
    (advance .replyComplete).Ensures d P E := by
  obtain ⟨machine, hm, hstate⟩ := TurnMachine.exists_apply_replyComplete h
  exact ensures_advance hm (hP machine hstate)

/-- **Small talk gets a reply**, for which the language model is asked at most. -/
theorem ensures_replySmalltalk (history : List Remark) (decision : Smalltalk.Decision) :
    (a.replySmalltalk question history decision).Ensures (Desk.classified s)
      (fun _ d' => d'.Chatted s ∧ d'.machine.state = .done)
      (fun e d' => d'.Chatted s ∧ a.Halts s d' e) := by
  refine Ensures.bind (ensures_advance (P := fun _ d' =>
    d' = { Desk.classified s with machine := (Desk.chatting s).machine }) rfl rfl) ?_
  rintro ⟨⟩ _ rfl
  refine Ensures.bind (ensures_tell (P := fun _ d' => d' = Desk.chatting s) rfl) ?_
  rintro ⟨⟩ _ rfl
  have hend : ∀ d₁ : Desk env, d₁.Chatted s ∧ d₁.machine.state = .chitchatReply →
      (advance .replyComplete).Ensures d₁ (fun _ d' => d'.Chatted s ∧ d'.machine.state = .done)
        (fun e d' => d'.Chatted s ∧ a.Halts s d' e) := fun d₁ ⟨h, hstate⟩ =>
    ensures_replyComplete (.inl hstate) fun machine hm =>
      ⟨⟨h.account.imp fun _ h => h.congr rfl rfl rfl, h.limiter, h.asked⟩, hm⟩
  split
  · rename_i text _
    exact Ensures.bind (ensures_tell
      ⟨Desk.chatted_after (.refl _) (Nat.zero_le 1) (List.forall_mem_nil _) [text], rfl⟩)
      fun _ => hend
  · refine Ensures.bind (ensures_stream fun response w pieces hw => ?_) fun _ => hend
    have hchatted := Desk.chatted_after hw (Nat.le_refl 1)
      (List.forall_mem_singleton.2 rfl) pieces
    have hlast : ((Desk.chatting s).after (pieces.map .token) w).LastEnded s
        (Exchange.ended ⟨_, response⟩) :=
      ⟨[], _, by rw [List.append_nil]; exact hw.log, rfl⟩
    cases he : Exchange.ended ⟨_, response⟩ with
    | complete => exact ⟨hchatted, rfl⟩
    | failed e => exact ⟨hchatted, .failed (he ▸ hlast)⟩
    | brokenDown => exact ⟨hchatted, .brokenDown (he ▸ hlast)⟩

/-! ### Searches -/

/-- **A search that is not admitted asks nobody.** -/
theorem ensures_answer_rejected {e : Failure} {limiter : Limiter Float}
    (hl : s.limiter.acquire r.caller s.world.clock = (.error e, limiter)) :
    (a.answer r question).Ensures (Desk.classified s) (fun _ _ => False)
      (fun h d' => h = .failed e ∧ d'.Account s [.classifying] [] [] ∧
        d'.session = { s with limiter }) := by
  refine Ensures.bind (ensures_advance (P := fun _ d' => d' = Desk.applying s) rfl rfl) ?_
  rintro ⟨⟩ _ rfl
  refine Ensures.bind (M := fun _ _ => False) (ensures_takePermit fun granted limiter' h => ?_)
    fun _ _ h => h.elim
  obtain ⟨rfl, rfl⟩ := Prod.mk.inj (hl.symm.trans h)
  exact ⟨rfl, (Desk.account_applying s).congr rfl rfl rfl, rfl⟩

/-- **A search that is admitted is answered**, or halts on its way. -/
theorem ensures_answer_admitted {limiter : Limiter Float}
    (hl : s.limiter.acquire r.caller s.world.clock = (.ok (), limiter)) :
    (a.answer r question).Ensures (Desk.classified s) (fun results d' => d'.Answered s results)
      (a.Stopped s) := by
  refine Ensures.bind (ensures_advance (P := fun _ d' => d' = Desk.applying s) rfl rfl) ?_
  rintro ⟨⟩ _ rfl
  refine Ensures.bind (M := fun _ d' => d' = { Desk.applying s with session := { s with limiter } })
    (ensures_takePermit fun granted limiter' h => ?_) ?_
  · obtain ⟨rfl, rfl⟩ := Prod.mk.inj (hl.symm.trans h)
    rfl
  rintro ⟨⟩ _ rfl
  refine Ensures.bind (ensures_advance (P := fun _ d' => d'.At s .admitted 0 ∧
    d'.session.world = s.world) rfl
    ⟨⟨(Desk.account_applying s).congr rfl rfl rfl, rfl, rfl, rfl⟩, rfl⟩) ?_
  rintro ⟨⟩ d₁ ⟨h₁, hw⟩
  refine ensures_get_bind ?_
  rw [hw]
  refine (ensures_lookInto h₁).bind fun results d₂ ⟨detour, hdetour, replans, h₂⟩ => ?_
  -- The search is done, and what is left of the path is the synthesis.
  have hpath : (Progress.searched detour replans).stages ++ [.synthesis] ∈ searchPaths :=
    List.mem_map.2 ⟨detour, hdetour, rfl⟩
  refine (h₂.enter (by decide) none).bind fun _ d₃ h₃ => ?_
  refine Ensures.bind (M := fun _ d' => d'.machine.state = .synthesis ∧
    d'.rounds.flatten.length = results.length ∧
      ∃ path ∈ searchPaths, ∃ pieces, d'.Account s path pieces searchRequests)
    (ensures_stream fun response w pieces hw => ?_) ?_
  · have haccount := h₃.account.after hw.log (requestsOf_singleton _ response) pieces
    -- However the stream breaks off, the pieces told so far belong to the synthesis.
    have hstopped : ∀ e, a.Halts s (d₃.after (pieces.map .token) w) e →
        a.Stopped s e (d₃.after (pieces.map .token) w) := fun e he =>
      ⟨⟨_, pieces, haccount, ⟨_, hpath, List.prefix_rfl⟩, fun _ => List.getLast?_concat⟩, he⟩
    obtain ⟨xs, hx, -⟩ := h₃.account.asked
    have hlast : (d₃.after (pieces.map .token) w).LastEnded s (Exchange.ended ⟨_, response⟩) :=
      ⟨xs, _, by rw [← hx]; exact hw.log, rfl⟩
    cases he : Exchange.ended ⟨_, response⟩ with
    | complete => exact ⟨h₃.state, h₃.calls, _, hpath, pieces, haccount⟩
    | failed e => exact hstopped _ (.failed (he ▸ hlast))
    | brokenDown => exact hstopped _ (.brokenDown (he ▸ hlast))
  · rintro ⟨⟩ d₄ ⟨hstate, hcalls, path, hpath, pieces, haccount⟩
    refine Ensures.bind (ensures_replyComplete (P := fun _ d' => d'.Answered s results)
      (.inr hstate) fun machine hm => ?_) fun _ _ h => ensures_pure h
    exact ⟨⟨path, hpath, pieces, haccount.congr rfl rfl rfl⟩, hm, hcalls⟩

/-! ### Turns -/

/-- How a turn comes out before it is concluded. -/
inductive Driven (a : Assistant) (r : TurnRequest) (s : Session env) :
    Except Halt (List ToolResult) → Desk env → Prop where
  | chatted {d : Desk env} (hr : r.isSmalltalk = true) (h : d.Chatted s)
      (hs : d.machine.state = .done) : Driven a r s (.ok []) d
  | chatHalted {e : Halt} {d : Desk env} (hr : r.isSmalltalk = true) (h : d.Chatted s)
      (he : a.Halts s d e) : Driven a r s (.error e) d
  | rejected {e : Failure} {d : Desk env} {limiter : Limiter Float} (hr : r.isSmalltalk = false)
      (hl : s.limiter.acquire r.caller s.world.clock = (.error e, limiter))
      (h : d.Account s [.classifying] [] []) (hs : d.session = { s with limiter }) :
      Driven a r s (.error (.failed e)) d
  | answered {results : List ToolResult} {d : Desk env} {limiter : Limiter Float}
      (hr : r.isSmalltalk = false)
      (hl : s.limiter.acquire r.caller s.world.clock = (.ok (), limiter))
      (h : d.Answered s results) : Driven a r s (.ok results) d
  | stopped {e : Halt} {d : Desk env} {limiter : Limiter Float} (hr : r.isSmalltalk = false)
      (hl : s.limiter.acquire r.caller s.world.clock = (.ok (), limiter))
      (h : a.Stopped s e d) : Driven a r s (.error e) d

/-- A search comes out in one of three ways. -/
theorem ensures_answer (hr : r.isSmalltalk = false) :
    (a.answer r question).Ensures (Desk.classified s)
      (fun results d' => a.Driven r s (.ok results) d')
      (fun e d' => a.Driven r s (.error e) d') := by
  rcases hl : s.limiter.acquire r.caller s.world.clock with ⟨e | ⟨⟩, limiter⟩
  · refine (ensures_answer_rejected hl).mono (fun _ _ h => h.elim) ?_
    rintro e' d' ⟨rfl, h, hs⟩
    exact .rejected hr hl h hs
  · exact (ensures_answer_admitted hl).mono (fun _ _ h => .answered hr hl h) fun _ _ h =>
      .stopped hr hl h

/-- **A turn comes out in one of five ways**, whatever the collaborators do. -/
theorem ensures_drive (a : Assistant) (r : TurnRequest) (s : Session env) :
    (a.drive r).Ensures { session := s } (fun results d' => a.Driven r s (.ok results) d')
      (fun e d' => a.Driven r s (.error e) d') := by
  simp only [drive]
  refine Ensures.bind (ensures_advance (P := fun _ d' => d' = { Desk.classified s with
    sink := {} }) rfl rfl) ?_
  rintro ⟨⟩ _ rfl
  refine Ensures.bind (ensures_tell (P := fun _ d' => d' = Desk.classified s) rfl) ?_
  rintro ⟨⟩ _ rfl
  by_cases hr : (Smalltalk.classify (Text.trimmed r.question)).isSmalltalk = true
  · rw [if_pos hr]
    refine Ensures.bind ((ensures_replySmalltalk _ _).mono (fun _ _ h => h) ?_) fun _ d' h =>
      ensures_pure (.chatted hr h.1 h.2)
    exact fun e d' h => .chatHalted hr h.1 h.2
  · rw [if_neg hr]
    exact ensures_answer (Bool.not_eq_true _ ▸ hr)

/-- **However a turn comes out, it has kept to a path**, to its end if it has got there. -/
theorem Driven.exists_account {o : Except Halt (List ToolResult)} (h : a.Driven r s o d) :
    ∃ path ∈ r.paths, ∃ stages pieces requests, d.Account s stages pieces requests ∧
      requests.Nodup ∧ stages <+: path ∧ (o.isOk = true → stages = path) ∧
      (pieces ≠ [] → .chitchat ∈ stages ∨ .synthesis ∈ stages) := by
  have hsearch : r.isSmalltalk = false → r.paths = searchPaths := fun hr => by
    rw [TurnRequest.paths, hr, if_neg (by decide)]
  cases h with
  | chatted hr h | chatHalted hr h =>
      obtain ⟨pieces, ha⟩ := h.account
      have hpath : smalltalkPath ∈ r.paths := by simp [TurnRequest.paths, hr]
      exact ⟨_, hpath, _, pieces, _, ha, by decide, List.prefix_rfl, fun _ => rfl,
        fun _ => .inl (by decide)⟩
  | rejected hr _ h =>
      have hpath : searchPaths.head (by decide) ∈ r.paths := by
        rw [hsearch hr]
        exact List.head_mem _
      exact ⟨_, hpath, _, [], _, h, List.nodup_nil, by decide, nofun, nofun⟩
  | answered hr _ h =>
      obtain ⟨path, hpath, pieces, ha⟩ := h.account
      have hsynthesis : ∀ path ∈ searchPaths, .synthesis ∈ path := by decide
      exact ⟨path, hsearch hr ▸ hpath, _, pieces, _, ha, by decide, List.prefix_rfl, fun _ => rfl,
        fun _ => .inr (hsynthesis path hpath)⟩
  | stopped hr _ h =>
      obtain ⟨stages, pieces, ha, ⟨path, hpath, hbegins⟩, hpieces⟩ := h.account
      exact ⟨path, hsearch hr ▸ hpath, stages, pieces, _, ha, by decide, hbegins, nofun,
        fun hne => .inr (List.mem_of_getLast? (hpieces hne))⟩

/-- A turn that has not been concluded has not told its ending. -/
theorem Driven.unfinished {o : Except Halt (List ToolResult)} (h : a.Driven r s o d) :
    d.sink.finished = false := by
  obtain ⟨_, -, stages, pieces, requests, ha, -⟩ := h.exists_account
  exact ha.unfinished

end Assistant

/-- The desk is left as it was, but for an ending that is told. -/
structure Desk.EndsWith (d : Desk env) (last : Event) (d' : Desk env) : Prop where
  events : d'.events = d.events ++ [last]
  session : d'.session = d.session
  rounds : d'.rounds = d.rounds

/-- A status is no ending, and neither is a piece of an answer. -/
theorem Desk.Account.isTerminal_eq_false {s : Session env} {d : Desk env} {stages : List Stage}
    {pieces : List String} {requests : List Task} (h : d.Account s stages pieces requests)
    {e : Event} (he : e ∈ d.events) : e.isTerminal = false := by
  obtain ⟨statuses, hevents, hstatuses⟩ := h.told
  rw [hevents, List.mem_append] at he
  rcases he with he | he
  · have hmem : e.stage? ∈ stages.map some := hstatuses ▸ List.mem_map_of_mem he
    obtain ⟨stage, -, hstage⟩ := List.mem_map.1 hmem
    cases e <;> first | rfl | cases hstage
  · obtain ⟨piece, -, rfl⟩ := List.mem_map.1 he
    rfl

namespace Assistant

variable {a : Assistant} {r : TurnRequest} {s : Session env}

/-- The failure that is told when a turn halts. -/
def failureOf (a : Assistant) : Halt → Failure
  | .failed e | .misstep e => e
  | .late => .turnTimeout a.allowance
  | .crashed => .other ""

/-- The ending that is told when a turn comes out like this. -/
def endingOf (a : Assistant) (s : Session env) (d : Desk env) :
    Except Halt (List ToolResult) → Event
  | .ok results => .done (Synthesis.citations results) (d.session.world.now - s.world.now)
      results.length
  | .error e => .ofFailure (a.failureOf e)

/-- **A turn adds one thing to what it has done: its ending.** -/
theorem turn_endsWith (a : Assistant) (r : TurnRequest) (s : Session env) :
    ∃ o d, (a.drive r).run.run { session := s } = (o, d) ∧ a.Driven r s o d ∧
      d.EndsWith (a.endingOf s d o) (a.turn r s) ∧
      (o.isOk = true → (a.turn r s).machine = d.machine) := by
  rcases (ensures_drive a r s).cases with ⟨results, d, hr, hd⟩ | ⟨e, d, hr, hd⟩
  · refine ⟨_, d, hr, hd, ?_⟩
    rw [turn, hr]
    exact ⟨⟨rfl, rfl, rfl⟩, fun _ => rfl⟩
  · refine ⟨_, d, hr, hd, ?_, nofun⟩
    rw [turn, hr]
    cases e with
    | failed e => exact ⟨rfl, rfl, rfl⟩
    | misstep e => exact ⟨rfl, rfl, rfl⟩
    | late => exact ⟨rfl, rfl, rfl⟩
    | crashed =>
        -- Nothing has ended the stream, so the sink does.
        refine ⟨?_, rfl, rfl⟩
        change d.sink.drop.events = _
        rw [Sink.drop, hd.unfinished]
        rfl

/-! ### Causes -/

/-- What a turn that fails can be blamed on: the last exchange, the rate limit before anything has
been asked, or the time. -/
inductive Blames (a : Assistant) (r : TurnRequest) (s : Session env) (asked : List Exchange)
    (now : ℕ) : Failure → Prop where
  | exchange {e : Failure} (front : List Exchange) (x : Exchange) (h : asked = front ++ [x])
      (hx : x.ended = .failed e) : Blames a r s asked now e
  | rejected {e : Failure} (hasked : asked = [])
      (h : (s.limiter.acquire r.caller s.world.clock).1 = .error e) : Blames a r s asked now e
  | late (h : s.world.now + a.allowance ≤ now) : Blames a r s asked now (.turnTimeout a.allowance)

/-- What makes a turn break down: the last exchange broke down, or dates were to be moved by more
days than there are. -/
def Unwound (a : Assistant) (asked : List Exchange) : Prop :=
  (∃ front x, asked = front ++ [x] ∧ x.ended = .brokenDown) ∨ maxShift < a.corrector.broadenDays

/-- What the ending of a turn is due to: it has got to the last state, or it has failed and can
blame that on something, or it has broken down. -/
inductive EndsBy (a : Assistant) (r : TurnRequest) (s : Session env) (asked : List Exchange)
    (d : Desk env) : Event → Prop where
  | done (citations : List Citation) (latency calls : ℕ) (h : d.machine.state = .done) :
      EndsBy a r s asked d (.done citations latency calls)
  | failed (e : Failure) (h : a.Blames r s asked d.session.world.now e) :
      EndsBy a r s asked d (.error e.userMessage e.code)
  | unwound (h : a.Unwound asked) :
      EndsBy a r s asked d (.error (Failure.other "").userMessage "internal_error")

/-- The event by which a turn ends is one that ends turns. -/
theorem EndsBy.isTerminal {asked : List Exchange} {d : Desk env} {e : Event}
    (h : a.EndsBy r s asked d e) : e.isTerminal = true := by
  cases h <;> rfl

/-- A turn that halts tells what made it halt. -/
theorem endsBy_of_halts {d d' : Desk env} {e : Halt} {asked : List Exchange}
    (hlog : d.session.world.log = s.world.log ++ asked) (h : a.Halts s d e)
    (hs : d'.session = d.session) : a.EndsBy r s asked d' (.ofFailure (a.failureOf e)) := by
  have hlast : ∀ {ended}, d.LastEnded s ended →
      ∃ front x, asked = front ++ [x] ∧ x.ended = ended := by
    rintro ended ⟨front, x, hx, hended⟩
    rw [hlog, List.append_assoc, List.append_right_inj] at hx
    exact ⟨front, x, hx, hended⟩
  cases h with
  | failed h =>
      obtain ⟨front, x, hx, hended⟩ := hlast h
      exact .failed _ (.exchange front x hx hended)
  | brokenDown h => exact .unwound (.inl (hlast h))
  | tooManyDays h => exact .unwound (.inr h)
  | late h => exact .failed _ (.late (by rwa [hs]))

/-- However a turn comes out, the ending that is told for it has its cause. -/
theorem Driven.endsBy {o : Except Halt (List ToolResult)} {d d' : Desk env} {asked : List Exchange}
    (h : a.Driven r s o d) (hs : d'.session = d.session)
    (hm : o.isOk = true → d'.machine = d.machine)
    (hlog : d.session.world.log = s.world.log ++ asked) :
    a.EndsBy r s asked d' (a.endingOf s d o) := by
  cases h with
  | chatted _ h hdone => exact .done _ _ _ (by rw [hm rfl, hdone])
  | chatHalted _ h he => exact endsBy_of_halts hlog he hs
  | rejected _ hl h hsession =>
      have hnone : asked = [] := by
        rw [hsession] at hlog
        exact List.self_eq_append_right.1 hlog
      exact .failed _ (.rejected hnone (congrArg Prod.fst hl))
  | answered _ _ h => exact .done _ _ _ (by rw [hm rfl, h.state])
  | stopped _ _ h => exact endsBy_of_halts hlog h.halts hs

/-- No turn is told to take a step that its state does not allow. -/
theorem Driven.ne_misstep {o : Except Halt (List ToolResult)} {d : Desk env} (h : a.Driven r s o d)
    (e : Failure) : o ≠ .error (.misstep e) := by
  rintro rfl
  cases h with
  | chatHalted _ _ he => cases he
  | stopped _ _ h => cases h.halts

/-- **Every turn has a single ending, and that comes last**, whatever the collaborators do: its
sources in the last state, or an error with its cause. Every step through the states is one that
there is. -/
theorem turn_concluded (a : Assistant) (r : TurnRequest) (s : Session env) :
    (∀ e, ((a.drive r).run.run { session := s }).1 ≠ .error (.misstep e)) ∧
      ∃ told last asked, (a.turn r s).events = told ++ [last] ∧
        (∀ e ∈ told, e.isTerminal = false) ∧ last.isTerminal = true ∧
        (a.turn r s).session.world.log = s.world.log ++ asked ∧
        a.EndsBy r s asked (a.turn r s) last := by
  obtain ⟨o, d, hr, hd, hend, hm⟩ := turn_endsWith a r s
  obtain ⟨_, -, stages, pieces, requests, ha, -⟩ := hd.exists_account
  obtain ⟨asked, hlog, -⟩ := ha.asked
  have hby := hd.endsBy hend.session hm hlog
  refine ⟨?_, d.events, _, asked, hend.events, fun _ => ha.isTerminal_eq_false, hby.isTerminal, ?_,
    hby⟩
  · rw [hr]
    exact hd.ne_misstep
  · rw [hend.session, hlog]

end Assistant

end Archivist
