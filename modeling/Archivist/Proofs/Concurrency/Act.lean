import Archivist.Concurrency.Lane
import Mathlib.Data.Nat.Notation

/-!
# Steps of Lanes

`World.act` computes a step of a lane. `World.Acts` says what a step can be, with a constructor for
everything that a lane can do: it is what a statement about steps is shown by cases on
(`World.acts_of_act`). `World.Looks` does the same for a lane that looks up an embedding.
-/

namespace Archivist.World

variable {env : Environment} {α : Type} {w w' : World env} {me : ℕ}

/-- The answer to a question is there: at once, or since it was due. -/
inductive Arrives (w : World env) (q : Ask) :
    Option (ℕ × Option (Reply q)) → Option (Reply q) → World env → Prop where
  | atOnce (h : (w.respond q).1.delay = 0) :
      Arrives w q none (w.respond q).1.outcome (w.respond q).2
  | due (due : ℕ) (answer : Option (Reply q)) (h : due ≤ w.now) :
      Arrives w q (some (due, answer)) answer w

/-- An answer comes at once if nothing has been asked yet. -/
theorem Arrives.of_none {q : Ask} {r : Option (Reply q)} (h : w.Arrives q none r w') :
    r = (w.respond q).1.outcome ∧ w' = (w.respond q).2 := by
  cases h with
  | atOnce => exact ⟨rfl, rfl⟩

/-- What is due is what comes. -/
theorem Arrives.of_some {q : Ask} {due : ℕ} {answer r : Option (Reply q)}
    (h : w.Arrives q (some (due, answer)) r w') : r = answer ∧ w' = w := by
  cases h with
  | due => exact ⟨rfl, rfl⟩

section Lookups

variable {gated : Bool} {deadline : Option ℕ} {text : String}
  {next : Reply (.embedding text) → Program Reply (Except Failure α)} {flight : Flight}
  {answer : Option (ℕ × Option (Reply (.embedding text)))} {l : Lane α}

/-- What a lane can do that looks up an embedding. -/
inductive Looks (w : World env) (me : ℕ) (gated : Bool) (deadline : Option ℕ) (text : String)
    (next : Reply (.embedding text) → Program Reply (Except Failure α)) (flight : Flight) :
    Option (ℕ × Option (Reply (.embedding text))) → Lane α → World env → Prop where
  /-- The provider is asked, and takes its time. -/
  | ask (cell : ℕ) (hphase : flight.phase = .asking cell)
      (hdelay : (w.respond (.embedding text)).1.delay ≠ 0) :
      Looks w me gated deadline text next flight none
        (.looking gated deadline text next flight
          (some (w.now + (w.respond (.embedding text)).1.delay,
            (w.respond (.embedding text)).1.outcome)))
        (w.respond (.embedding text)).2
  /-- The provider has answered. -/
  | land (cell : ℕ) (hphase : flight.phase = .asking cell)
      {answer : Option (ℕ × Option (Reply (.embedding text)))} (r : Reply (.embedding text))
      {w₁ : World env} (h : w.Arrives (.embedding text) answer (some r) w₁) :
      Looks w me gated deadline text next flight answer
        (.running gated deadline (next (flight.land w₁.clock cell r w₁.cache).1))
        { w₁ with cache := (flight.land w₁.clock cell r w₁.cache).2 }
  /-- The provider has broken down. -/
  | breakDown (cell : ℕ) (hphase : flight.phase = .asking cell)
      {answer : Option (ℕ × Option (Reply (.embedding text)))} {w₁ : World env}
      (h : w.Arrives (.embedding text) answer none w₁) :
      Looks w me gated deadline text next flight answer (.ended .crashed)
        (giveBack { w₁ with cache := flight.abandon me w₁.cache } gated)
  /-- The lookup goes on without the provider. -/
  | go (answer : Option (ℕ × Option (Reply (.embedding text)))) (phase : Phase) (cache : Cache)
      (h : flight.step w.clock me w.cache = .go phase cache) :
      Looks w me gated deadline text next flight answer
        (.looking gated deadline text next { flight with phase } answer) { w with cache }
  /-- The lookup has its outcome without the provider. -/
  | settle (answer : Option (ℕ × Option (Reply (.embedding text)))) (result : Landing)
      (cache : Cache) (h : flight.step w.clock me w.cache = .land result cache) :
      Looks w me gated deadline text next flight answer (.running gated deadline (next result))
        { w with cache }
  /-- The lane has used up its time. -/
  | late (answer : Option (ℕ × Option (Reply (.embedding text))))
      (h : w.isLate deadline = true) :
      Looks w me gated deadline text next flight answer (.ended .late)
        ({ w with cache := flight.abandon me w.cache }.countTimeout.giveBack gated)

/-- A step of a lookup is one of those that are listed. -/
theorem looks_of_actLookup
    (h : w.actLookup me gated deadline text next flight answer = some (l, w')) :
    w.Looks me gated deadline text next flight answer l w' := by
  simp only [actLookup] at h
  split at h
  · rename_i cell hphase
    split at h
    · rename_i hdelay
      have harrives := Arrives.atOnce hdelay
      cases ho : (w.respond (.embedding text)).1.outcome with
      | none =>
          rw [ho] at h harrives
          cases h
          exact .breakDown cell hphase harrives
      | some r =>
          rw [ho] at h harrives
          cases h
          exact .land cell hphase r harrives
    · rename_i hdelay
      cases h
      exact .ask cell hphase hdelay
  · rename_i cell due reply hphase
    split at h
    · rename_i hdue
      cases reply with
      | none =>
          cases h
          exact .breakDown cell hphase (.due due none hdue)
      | some r =>
          cases h
          exact .land cell hphase r (.due due (some r) hdue)
    · split at h
      · rename_i hlate
        cases h
        exact .late _ hlate
      · cases h
  · split at h
    · rename_i phase cache hstep
      cases h
      exact .go _ phase cache hstep
    · rename_i result cache hstep
      cases h
      exact .settle _ result cache hstep
    · split at h
      · rename_i hlate
        cases h
        exact .late _ hlate
      · cases h

end Lookups

/-- What a lane can do. -/
inductive Acts (w : World env) (me : ℕ) : Lane α → Lane α → World env → Prop where
  /-- A lane without gate starts. -/
  | start (allowance : Allowance) (p : Program Reply (Except Failure α)) :
      Acts w me (.ready false allowance p) (.running false (allowance.map (w.now + ·)) p) w
  | enter (allowance : Allowance) (p : Program Reply (Except Failure α)) (permits : Gate)
      (h : w.permits.enter me = (true, permits)) :
      Acts w me (.ready true allowance p) (.running true (allowance.map (w.now + ·)) p)
        { w with permits }
  | queue (allowance : Allowance) (p : Program Reply (Except Failure α)) (permits : Gate)
      (h : w.permits.enter me = (false, permits)) :
      Acts w me (.ready true allowance p) (.queued allowance p) { w with permits }
  | pickUp (allowance : Allowance) (p : Program Reply (Except Failure α)) (permits : Gate)
      (h : w.permits.pickUp me = some permits) :
      Acts w me (.queued allowance p) (.running true (allowance.map (w.now + ·)) p)
        { w with permits }
  /-- The action in the lane has its outcome. -/
  | finish (gated : Bool) (deadline : Option ℕ) (r : Except Failure α) :
      Acts w me (.running gated deadline (.done r)) (.ended (.value r)) (w.giveBack gated)
  /-- The action in the lane gives up. -/
  | giveUp (gated : Bool) (deadline : Option ℕ) :
      Acts w me (.running gated deadline .crash) (.ended .crashed) (w.giveBack gated)
  /-- A lookup of an embedding begins. -/
  | look (gated : Bool) (deadline : Option ℕ) (text : String)
      (next : Reply (.embedding text) → Program Reply (Except Failure α)) :
      Acts w me (.running gated deadline (.ask (.embedding text) next))
        (.looking gated deadline text next (Flight.start text) none) w
  /-- A collaborator is asked, and takes its time. -/
  | ask (gated : Bool) (deadline : Option ℕ) (q : Ask)
      (next : Reply q → Program Reply (Except Failure α)) (hq : ∀ text, q ≠ .embedding text)
      (hdelay : (w.respond q).1.delay ≠ 0) :
      Acts w me (.running gated deadline (.ask q next))
        (.calling gated deadline q next (w.now + (w.respond q).1.delay) (w.respond q).1.outcome)
        (w.respond q).2
  /-- A collaborator is asked, and answers at once. -/
  | exchange (gated : Bool) (deadline : Option ℕ) (q : Ask)
      (next : Reply q → Program Reply (Except Failure α)) (hq : ∀ text, q ≠ .embedding text)
      (hdelay : (w.respond q).1.delay = 0) :
      Acts w me (.running gated deadline (.ask q next))
        ((w.respond q).2.resume gated deadline next (w.respond q).1.outcome).1
        ((w.respond q).2.resume gated deadline next (w.respond q).1.outcome).2
  /-- The answer of a collaborator is due. -/
  | answered (gated : Bool) (deadline : Option ℕ) (q : Ask)
      (next : Reply q → Program Reply (Except Failure α)) (due : ℕ) (answer : Option (Reply q))
      (h : due ≤ w.now) :
      Acts w me (.calling gated deadline q next due answer)
        (w.resume gated deadline next answer).1 (w.resume gated deadline next answer).2
  /-- The lane has used up its time. -/
  | late (gated : Bool) (deadline : Option ℕ) (q : Ask)
      (next : Reply q → Program Reply (Except Failure α)) (due : ℕ) (answer : Option (Reply q))
      (h : w.isLate deadline = true) :
      Acts w me (.calling gated deadline q next due answer) (.ended .late)
        (w.countTimeout.giveBack gated)
  | lookup (gated : Bool) (deadline : Option ℕ) (text : String)
      (next : Reply (.embedding text) → Program Reply (Except Failure α)) (flight : Flight)
      (answer : Option (ℕ × Option (Reply (.embedding text)))) {l : Lane α} {w' : World env}
      (h : w.Looks me gated deadline text next flight answer l w') :
      Acts w me (.looking gated deadline text next flight answer) l w'

/-- **A step is one of the things that a lane can do.** -/
theorem acts_of_act {l l' : Lane α} (h : w.act me l = some (l', w')) : w.Acts me l l' w' := by
  unfold act at h
  split at h
  · cases h
    exact .start _ _
  · rename_i allowance p
    rcases he : w.permits.enter me with ⟨entered, permits⟩
    rw [he] at h
    cases entered with
    | false =>
        cases h
        exact .queue allowance p permits he
    | true =>
        cases h
        exact .enter allowance p permits he
  · obtain ⟨permits, hp, heq⟩ := Option.map_eq_some_iff.1 h
    cases heq
    exact .pickUp _ _ permits hp
  · cases h
    exact .finish _ _ _
  · cases h
    exact .giveUp _ _
  · cases h
    exact .look _ _ _ _
  · rename_i gated deadline q next hq
    have hne : ∀ text, q ≠ .embedding text := by
      rintro text rfl
      exact hq text next rfl HEq.rfl
    simp only at h
    split at h
    · rename_i hdelay
      obtain ⟨rfl, rfl⟩ := Prod.ext_iff.1 (Option.some.inj h)
      exact .exchange gated deadline q next hne hdelay
    · rename_i hdelay
      cases h
      exact .ask gated deadline q next hne hdelay
  · split at h
    · rename_i hdue
      obtain ⟨rfl, rfl⟩ := Prod.ext_iff.1 (Option.some.inj h)
      exact .answered _ _ _ _ _ _ hdue
    · split at h
      · rename_i hlate
        cases h
        exact .late _ _ _ _ _ _ hlate
      · cases h
  · exact .lookup _ _ _ _ _ _ (looks_of_actLookup h)
  · cases h

end Archivist.World
