import Archivist.Proofs.Concurrency.Lore
import Archivist.Proofs.Concurrency.Perform

/-!
# Lanes on Their Own

A lane that runs a program comes to a value only if the program does, whatever other lanes do
(`World.fails_run`). And a lane that nobody hinders, because it finds a permit free and looks up no
embedding, comes to its end (`World.run_alone`).
-/

namespace Archivist

/-! ### Programs without a value -/

/-- The program of a lane, as far as it remains, comes to no value, and the lane has not come to one
either. -/
def Lane.Fails {α : Type} : Lane α → Prop
  | .ready _ _ p | .queued _ p | .running _ _ p =>
    p.Meets (fun _ => True) fun o => ∀ a, o ≠ some (.ok a)
  | .calling _ _ q next _ _ =>
    ∀ r : Reply q, (next r).Meets (fun _ => True) fun o => ∀ a, o ≠ some (.ok a)
  | .looking _ _ _ next _ _ => ∀ r, (next r).Meets (fun _ => True) fun o => ∀ a, o ≠ some (.ok a)
  | .ended e => ∀ a, e ≠ .value (.ok a)

namespace World

variable {env : Environment} {α : Type} {w w' : World env}

/-- A lane whose program fails fails, whatever it is answered. -/
theorem fails_resume (w : World env) {q : Ask} (gated : Bool) (deadline : Option ℕ)
    {next : Reply q → Program Reply (Except Failure α)} (answer : Option (Reply q))
    (h : ∀ r, (next r).Meets (fun _ => True) fun o => ∀ a, o ≠ some (.ok a)) :
    (w.resume gated deadline next answer).1.Fails := by
  cases answer with
  | none => exact nofun
  | some r => exact h r

/-- A step does not lead to a value where the program does not. -/
theorem Acts.fails {i : ℕ} {l l' : Lane α} (h : w.Acts i l l' w') (hl : l.Fails) : l'.Fails := by
  cases h with
  | start | enter | queue | pickUp => exact hl
  | finish gated deadline r =>
      rintro a ⟨⟩
      exact hl a rfl
  | giveUp | late => exact nofun
  | look => exact hl.2
  | ask => exact hl.2
  | exchange => exact fails_resume _ _ _ _ hl.2
  | answered => exact fails_resume _ _ _ _ hl
  | lookup gated deadline text next flight answer h =>
      cases h with
      | ask | go => exact hl
      | land | settle => exact hl _
      | breakDown | late => exact nofun

/-- **A lane whose program comes to no value comes to none among others either.** -/
theorem fails_run {ls : List (Lane α)} {i : ℕ} {l : Lane α} (hl : ls[i]? = some l)
    (hfails : l.Fails) (limit : Option ℕ) (w : World env) (cursor : ℕ) :
    ∃ l', (w.run limit cursor ls).1[i]? = some l' ∧ l'.Fails :=
  run_induct_lane Acts.fails hl hfails limit w cursor

end World

/-! ### Without hindrance -/

/-- A lane that has not come to a question of its program yet. -/
def Lane.StandsAt {α : Type} (p : Program Reply (Except Failure α)) : Lane α → Prop
  | .ready _ _ p' | .queued _ p' | .running _ _ p' => p' = p
  | .calling .. | .looking .. | .ended _ => False

namespace World

variable {env : Environment} {α : Type} {w w' w₀ : World env} {P : Ask → Prop}
  {p : Program Reply (Except Failure α)} {l l' : Lane α} {i : ℕ}

/-- A lane that finds a permit free, or has one, and looks up no embedding. -/
def Unhindered (w : World env) : Lane α → Prop
  | .ready .. => 0 < w.permits.free
  | .queued .. | .looking .. => False
  | .running .. | .calling .. | .ended _ => True

/-- A lane that goes on with an answer is not in line for anything. -/
theorem unhindered_resume (w : World env) {q : Ask} (gated : Bool) (deadline : Option ℕ)
    (next : Reply q → Program Reply (Except Failure α)) (answer : Option (Reply q))
    (w' : World env) : w'.Unhindered (w.resume gated deadline next answer).1 := by
  cases answer <;> trivial

/-- A lane that nobody hinders goes on unhindered. -/
theorem Acts.unhindered (h : w.Acts i l l' w') (hP : ∀ text, ¬ P (.embedding text))
    (hasks : l.Asks P) (hl : w.Unhindered l) : w'.Unhindered l' := by
  cases h with
  | queue allowance p permits h =>
      rw [Gate.enter] at h
      split at h
      · rename_i hfree
        rw [Unhindered, hfree] at hl
        exact absurd hl (Nat.lt_irrefl 0)
      · cases h
  | look gated deadline text next => exact absurd hasks.1 (hP text)
  | exchange => exact unhindered_resume _ _ _ _ _ _
  | answered => exact unhindered_resume _ _ _ _ _ _
  | pickUp | lookup => exact hl.elim
  | start | enter | finish | giveUp | ask | late => trivial

/-- If the program begins with a question, this has been asked or comes next. -/
def Opened (w₀ : World env) (p : Program Reply (Except Failure α)) (l : Lane α) (w : World env) :
    Prop :=
  (l.StandsAt p ∧ w.log = w₀.log) ∨ ∀ q next, (∀ text, q ≠ .embedding text) →
    p = .ask q next → w₀.log.length < w.log.length

/-- No step skips the first question. -/
theorem Acts.opened (h : w.Acts i l l' w') (ho : w₀.Opened p l w) : w₀.Opened p l' w' := by
  rcases ho with ⟨hstands, hlog⟩ | hmore
  · have hasked : ∀ x : Exchange, w₀.log.length < (w.log ++ [x]).length := fun x => by
      rw [hlog, List.length_append]
      exact Nat.lt_succ_self _
    cases h with
    | start | enter | queue | pickUp => exact .inl ⟨hstands, hlog⟩
    | finish | giveUp =>
        subst hstands
        exact .inr fun _ _ _ hp => nomatch hp
    | look gated deadline text next =>
        subst hstands
        refine .inr ?_
        rintro q next' hq ⟨⟩
        exact absurd rfl (hq text)
    | ask => exact .inr fun _ _ _ _ => hasked _
    | exchange =>
        refine .inr fun _ _ _ _ => ?_
        rw [log_resume]
        exact hasked _
    | answered | late | lookup => cases hstands
  · obtain ⟨⟨xs, hxs, -⟩, -⟩ := h.leads
    refine .inr fun q next hq hp => ?_
    rw [hxs, List.length_append]
    exact Nat.lt_add_right _ (hmore q next hq hp)

/-- **A lane by itself comes to its end** if nobody hinders it. If it is about to ask something,
that is asked. -/
theorem run_alone (w : World env) (hP : ∀ text, ¬ P (.embedding text)) (hasks : l.Asks P)
    (hl : w.Unhindered l) : ∃ e, (w.run none 0 [l]).1 = [.ended e] ∧
      ∀ q next, (∀ text, q ≠ .embedding text) → l.StandsAt (.ask q next) →
        w.log.length < (w.run none 0 [l]).2.log.length := by
  obtain ⟨l', hls, hl', ho⟩ := run_induct
    (I := fun ls w' => ∃ l', ls = [l'] ∧ (l'.Asks P ∧ w'.Unhindered l') ∧
      ∀ p, l.StandsAt p → w.Opened p l' w')
    (by
      rintro w₁ w₂ ls i l₁ l₂ ⟨l', rfl, ⟨hasks, hl'⟩, ho⟩ hl₁ ha
      obtain ⟨rfl, rfl⟩ : i = 0 ∧ l₁ = l' := by
        cases i with
        | zero => exact ⟨rfl, by simpa using hl₁.symm⟩
        | succ i => simp at hl₁
      have hacts := acts_of_act ha
      exact ⟨l₂, rfl, ⟨(hacts.asks hasks).1, hacts.unhindered hP hasks hl'⟩,
        fun p hp => hacts.opened (ho p hp)⟩)
    (by
      rintro w₁ ls t ⟨l', rfl, ⟨hasks, hl'⟩, ho⟩
      refine ⟨l', rfl, ⟨hasks, ?_⟩, ho⟩
      cases l' <;> exact hl')
    none w 0 [l] ⟨l, rfl, ⟨hasks, hl⟩, fun p hp => .inl ⟨hp, rfl⟩⟩
  have hrests := run_rests none w 0 [l]
  rw [hls] at hrests ⊢
  have hact := hrests.act_eq_none 0 l' rfl
  cases l' with
  | ended e =>
      exact ⟨e, rfl, fun q next hq hp => (ho _ hp).resolve_left (fun h => h.1.elim) q next hq rfl⟩
  | running gated deadline p => exact absurd hact (act_running_ne_none _ 0 gated deadline p)
  | ready gated allowance p => cases gated <;> cases hact
  | calling gated deadline q next due answer =>
      have hwakes := (hrests.wakes_late _ rfl).resolve_left nofun
      exact absurd hact (act_calling_ne_none _ 0 gated next answer hwakes)
  | queued => exact hl'.2.elim
  | looking => exact hl'.2.elim

end World

end Archivist
