import Archivist.Proofs.Concurrency.Lane

/-!
# Actions by Themselves

An action that runs by itself makes one exchange after the other, and each goes on from the answer
to the one before. `Program.Always V` says of a program that `V` relates the exchanges and the
ending on every branch: an ending is a value, a breakdown (of the program, or of a collaborator in
the last exchange), or the end of the time, which can only be while an answer is awaited.

`World.perform_always` is that running an action keeps this promise. It also says that an action
without a limit is never late, and that running it touches nothing but the time and the
collaborators.
-/

namespace Archivist

variable {env : Environment} {α : Type} {V : List Exchange → Ending α → Prop}

/-- Whatever the answers are, `V` relates all exchanges to the ending; `xs` are those so far. No
embedding is looked up, because the answer to that depends on what others do. -/
def Program.Always (V : List Exchange → Ending α → Prop) :
    Program Reply (Except Failure α) → List Exchange → Prop
  | .done r, xs => V xs (.value r)
  | .crash, xs => V xs .crashed
  | .ask q next, xs => (∀ text, q ≠ .embedding text) ∧ ∀ response : Response q,
      V (xs ++ [⟨q, response⟩]) .late ∧
        response.outcome.elim (V (xs ++ [⟨q, response⟩]) .crashed) fun r =>
          (next r).Always V (xs ++ [⟨q, response⟩])

/-- The promise of a program, for a lane without gate and deadline that runs it. -/
def Lane.Always (V : List Exchange → Ending α → Prop) (xs : List Exchange) : Lane α → Prop
  | .running gated deadline p => gated = false ∧ deadline = none ∧ p.Always V xs
  | .calling gated deadline _ next _ answer => gated = false ∧ deadline = none ∧ V xs .late ∧
      answer.elim (V xs .crashed) fun r => (next r).Always V xs
  | .ended e => e ≠ .late ∧ V xs e
  | .ready .. | .queued .. | .looking .. => False

theorem Program.Always.mono {V' : List Exchange → Ending α → Prop}
    {p : Program Reply (Except Failure α)} {xs : List Exchange} (h : p.Always V xs)
    (hV : ∀ xs e, V xs e → V' xs e) : p.Always V' xs := by
  induction p generalizing xs with
  | done r => exact hV _ _ h
  | crash => exact hV _ _ h
  | ask q next ih =>
      refine ⟨h.1, fun response => ⟨hV _ _ (h.2 response).1, ?_⟩⟩
      have hnext := (h.2 response).2
      cases ho : response.outcome with
      | none =>
          rw [ho] at hnext
          exact hV _ _ hnext
      | some r =>
          rw [ho] at hnext
          exact ih r hnext

/-- The promise of a program that meets something: its questions are as said, its values too, and if
it breaks down by itself, that was to be expected. -/
theorem Program.Meets.always {P : Ask → Prop} {U : Option (Except Failure α) → Prop}
    {p : Program Reply (Except Failure α)} (h : p.Meets P U)
    (hP : ∀ q, P q → ∀ text, q ≠ .embedding text) {xs : List Exchange}
    (hxs : ∀ x ∈ xs, P x.question) :
    p.Always (fun xs e => (∀ x ∈ xs, P x.question) ∧ match e with
      | .value r => U (some r)
      | .crashed => U none ∨ ∃ x, xs.getLast? = some x ∧ x.response.outcome = none
      | .late => True) xs := by
  induction p generalizing xs with
  | done r => exact ⟨hxs, h⟩
  | crash => exact ⟨hxs, Or.inl h⟩
  | ask q next ih =>
      refine ⟨hP q h.1, fun response => ?_⟩
      have hxs' : ∀ x ∈ xs ++ [⟨q, response⟩], P x.question := by
        intro x hx
        rcases List.mem_append.1 hx with hx | hx
        · exact hxs x hx
        · rw [List.mem_singleton.1 hx]
          exact h.1
      refine ⟨⟨hxs', trivial⟩, ?_⟩
      cases ho : response.outcome with
      | none => exact ⟨hxs', Or.inr ⟨_, List.getLast?_concat, ho⟩⟩
      | some r => exact ih r (h.2 r) hxs'

namespace World

/-- These exchanges have been made in between, and nothing else but that time has passed. -/
structure Spoke (w : World env) (xs : List Exchange) (w' : World env) : Prop where
  log : w'.log = w.log ++ xs
  cache : w'.cache = w.cache
  permits : w'.permits = w.permits
  clock : w'.clock = w.clock

variable {w w' w'' : World env} {xs ys : List Exchange}

theorem Spoke.refl (w : World env) : w.Spoke [] w := ⟨(List.append_nil _).symm, rfl, rfl, rfl⟩

theorem Spoke.trans (h : w.Spoke xs w') (h' : w'.Spoke ys w'') : w.Spoke (xs ++ ys) w'' where
  log := by rw [h'.log, h.log, List.append_assoc]
  cache := h'.cache.trans h.cache
  permits := h'.permits.trans h.permits
  clock := h'.clock.trans h.clock

/-- A question is an exchange, and takes no time. -/
theorem spoke_respond (w : World env) (q : Ask) :
    w.Spoke [⟨q, (w.respond q).1⟩] (w.respond q).2 :=
  ⟨rfl, rfl, rfl, rfl⟩

/-- The promise holds on with an answer, or with the breakdown of who was asked. -/
theorem always_resume {q : Ask} {next : Reply q → Program Reply (Except Failure α)}
    {answer : Option (Reply q)} (w : World env)
    (h : answer.elim (V xs .crashed) fun r => (next r).Always V xs) :
    (w.resume false none next answer).1.Always V xs ∧
      (w.resume false none next answer).2 = w := by
  cases answer with
  | none => exact ⟨⟨nofun, h⟩, rfl⟩
  | some r => exact ⟨⟨rfl, rfl, h⟩, rfl⟩

/-- A step keeps the promise, with the exchange that it makes, if any. -/
theorem Acts.always {me : ℕ} {l l' : Lane α} (h : w.Acts me l l' w') (hl : l.Always V xs) :
    ∃ ys, l'.Always V (xs ++ ys) ∧ w.Spoke ys w' := by
  cases h with
  | start => cases hl
  | enter => cases hl
  | queue => cases hl
  | pickUp => cases hl
  | finish gated deadline r =>
      obtain ⟨rfl, -, hp⟩ := hl
      exact ⟨[], by rw [List.append_nil]; exact ⟨nofun, hp⟩, .refl w⟩
  | giveUp gated deadline =>
      obtain ⟨rfl, -, hp⟩ := hl
      exact ⟨[], by rw [List.append_nil]; exact ⟨nofun, hp⟩, .refl w⟩
  | look gated deadline text next => exact absurd rfl (hl.2.2.1 text)
  | ask gated deadline q next =>
      obtain ⟨rfl, rfl, -, hp⟩ := hl
      obtain ⟨hlate, hnext⟩ := hp (w.respond q).1
      exact ⟨[⟨q, (w.respond q).1⟩], ⟨rfl, rfl, hlate, hnext⟩, spoke_respond w q⟩
  | exchange gated deadline q next =>
      obtain ⟨rfl, rfl, -, hp⟩ := hl
      obtain ⟨hl', hw⟩ := always_resume (w.respond q).2 (hp (w.respond q).1).2
      exact ⟨[⟨q, (w.respond q).1⟩], hl', by rw [hw]; exact spoke_respond w q⟩
  | answered gated deadline q next due answer =>
      obtain ⟨rfl, rfl, -, hnext⟩ := hl
      obtain ⟨hl', hw⟩ := always_resume w hnext
      exact ⟨[], by rwa [List.append_nil], by rw [hw]; exact .refl w⟩
  | late gated deadline q next due answer h =>
      obtain ⟨rfl, rfl, -⟩ := hl
      cases h
  | lookup => cases hl

/-- How an action comes out whose program keeps a promise. -/
inductive Performed (V : List Exchange → Ending α → Prop) (limit : Option ℕ) (xs : List Exchange)
    (now : ℕ) : Option (Ending α) → Prop where
  | ended (e : Ending α) (hne : e ≠ .late) (h : V xs e) : Performed V limit xs now (some e)
  /-- Dropped when its time was up. -/
  | dropped (t : ℕ) (hlimit : limit = some t) (ht : t ≤ now) (h : V xs .late) :
      Performed V limit xs now none

/-- A lane that runs can go on. -/
theorem act_running_ne_none (w : World env) (me : ℕ) (gated : Bool) (deadline : Option ℕ)
    (p : Program Reply (Except Failure α)) : w.act me (.running gated deadline p) ≠ none := by
  cases p with
  | done r => nofun
  | crash => nofun
  | ask q next =>
      cases q with
      | embedding text => nofun
      | _ =>
          simp only [act]
          split <;> nofun

/-- A lane that waits for an answer can go on when the answer is due or its time is up. -/
theorem act_calling_ne_none (w : World env) (i : ℕ) (gated : Bool) {deadline : Option ℕ} {q : Ask}
    (next : Reply q → Program Reply (Except Failure α)) {due : ℕ} (answer : Option (Reply q))
    (h : deadline.elim due (min due) ≤ w.now) :
    w.act i (.calling gated deadline q next due answer) ≠ none := by
  by_cases hdue : due ≤ w.now
  · rw [act, if_pos hdue]
    exact Option.some_ne_none _
  · have hlate : w.isLate deadline = true := by
      cases deadline with
      | none => exact absurd h hdue
      | some d => exact decide_eq_true (by rw [Option.elim_some] at h; omega)
    rw [act, if_neg hdue, if_pos hlate]
    exact Option.some_ne_none _

/-- A lane at rest that has not ended waits for an answer until after the limit. -/
theorem late_of_rests {limit : Option ℕ} {l : Lane α} (hr : Rests limit [l] w)
    (hl : l.Always V xs) (hne : l.ending? = none) :
    (∃ t, limit = some t) ∧ V xs .late ∧ ∀ w' : World env, w'.abandon 0 l = w' := by
  have hact := hr.act_eq_none 0 l rfl
  cases l with
  | running gated deadline p =>
      exact absurd hact (act_running_ne_none w 0 gated deadline p)
  | calling gated deadline q next due answer =>
      obtain ⟨rfl, rfl, hlate, -⟩ := hl
      refine ⟨?_, hlate, fun _ => rfl⟩
      rcases hr.wakes_late due rfl with hlimit | hdue
      · cases limit with
        | none => cases hlimit
        | some t => exact ⟨t, rfl⟩
      · rw [act, if_pos hdue] at hact
        cases hact
  | ended e => cases hne
  | ready => cases hl
  | queued => cases hl
  | looking => cases hl

/-- **An action by itself comes out as its program promises.** -/
theorem perform_always (w : World env) (limit : Option ℕ) {p : Action α}
    (h : Program.Always V p.run []) :
    ∃ xs, w.Spoke xs (w.perform limit p).2 ∧
      Performed V limit xs (w.perform limit p).2.now (w.perform limit p).1 := by
  obtain ⟨l, xs, hls, hl, hw⟩ := run_induct
    (I := fun ls w' => ∃ l xs, ls = [l] ∧ l.Always V xs ∧ w.Spoke xs w')
    (by
      rintro w₁ w₂ ls i l l' ⟨l₀, xs, rfl, hl₀, hw⟩ hl ha
      -- There is one lane, so that a step is a step of it.
      obtain ⟨rfl, rfl⟩ : i = 0 ∧ l = l₀ := by
        cases i with
        | zero => exact ⟨rfl, by simpa using hl.symm⟩
        | succ i => simp at hl
      obtain ⟨ys, hl', hw'⟩ := (acts_of_act ha).always hl₀
      exact ⟨l', xs ++ ys, rfl, hl', hw.trans hw'⟩)
    (fun _ ⟨l, xs, hls, hl, hw⟩ => ⟨l, xs, hls, hl, hw.log, hw.cache, hw.permits, hw.clock⟩)
    limit w 0 [.running false none p.run] ⟨_, [], rfl, ⟨rfl, rfl, h⟩, .refl w⟩
  refine ⟨xs, ?_⟩
  have hrests := run_rests limit w 0 [Lane.running false none p.run]
  rw [perform]
  rcases join_cases w limit [Lane.running false none p.run] with ⟨endings, hrun, hj⟩ | ⟨hm, hj⟩
  · rw [hj]
    obtain ⟨e, rfl, rfl⟩ : ∃ e, endings = [e] ∧ l = .ended e := by
      rw [hls, eq_comm, List.map_eq_singleton_iff] at hrun
      obtain ⟨e, rfl, rfl⟩ := hrun
      exact ⟨e, rfl, rfl⟩
    exact ⟨hw, .ended e hl.1 hl.2⟩
  · rw [hj]
    rw [hls] at hrests hm
    -- A run without endings leaves a lane that has not ended, and that is late then.
    have hend : l.ending? = none := by
      cases he : l.ending? with
      | none => rfl
      | some e => simp [he] at hm
    obtain ⟨⟨t, rfl⟩, hlate, habandon⟩ := late_of_rests hrests hl hend
    rw [hls, abandonAll, habandon, abandonAll]
    exact ⟨⟨hw.log, hw.cache, hw.permits, hw.clock⟩, .dropped t rfl (Nat.le_max_right _ _) hlate⟩

end World

end Archivist
