import Archivist.Retry
import Mathlib.Algebra.Order.Group.Nat

/-!
# Repeated Requests

An operation has an outcome and a state in which it is called again. Attempts go on as long as
outcomes are failures that may pass and there are attempts left, so that what a run comes to is read
off the first outcome that is none (`RetryPolicy.runFrom_eq`).

Waits are computed with 64 bits. Cutting the power and the product to these changes nothing, since
the limit of waits is far below (`RetryPolicy.delay_eq`).

## Main results

* `RetryPolicy.run_spec`: which calls are made, what comes of them, and how long the waits are.
-/

namespace Archivist.RetryPolicy

variable {σ α : Type}

/-! ### Calls -/

/-- The state in which an operation is called, the first call having number 0. -/
def stateAt (operation : σ → Except Failure α × σ) (s : σ) : ℕ → σ
  | 0 => s
  | n + 1 => (operation (stateAt operation s n)).2

/-- The outcome of a call. -/
def outcomeAt (operation : σ → Except Failure α × σ) (s : σ) (n : ℕ) : Except Failure α :=
  (operation (stateAt operation s n)).1

/-- The calls that follow the first are those from the state that it leaves. -/
theorem stateAt_succ (operation : σ → Except Failure α × σ) (s : σ) (n : ℕ) :
    stateAt operation s (n + 1) = stateAt operation (operation s).2 n := by
  induction n with
  | zero => rfl
  | succ n ih =>
      rw [stateAt, ih]
      rfl

/-- So are their outcomes. -/
theorem outcomeAt_succ (operation : σ → Except Failure α × σ) (s : σ) (n : ℕ) :
    outcomeAt operation s (n + 1) = outcomeAt operation (operation s).2 n := by
  rw [outcomeAt, stateAt_succ]
  rfl

/-- No call is made after this outcome: it is a success, or a failure that will not pass. -/
def Ends (r : Except Failure α) : Prop := ∀ e, r = .error e → e.isTransient = false

/-- Of `most` calls, number `last` is the first whose outcome ends them, or the last there is. -/
structure EndsAt (outcome : ℕ → Except Failure α) (most last : ℕ) : Prop where
  lt_most : last < most
  not_ends : ∀ n < last, ¬ Ends (outcome n)
  ends : Ends (outcome last) ∨ last + 1 = most

namespace EndsAt

variable {outcome : ℕ → Except Failure α} {most last : ℕ}

/-- If the first outcome ends them, there is one call. -/
theorem zero_of_ends (h : Ends (outcome 0)) (hmost : 0 < most) : EndsAt outcome most 0 :=
  ⟨hmost, nofun, .inl h⟩

/-- After a failure that may pass it is the calls from the next one that count. -/
theorem succ (h : EndsAt (fun n => outcome (n + 1)) most last) (hzero : ¬ Ends (outcome 0)) :
    EndsAt outcome (most + 1) (last + 1) where
  lt_most := Nat.succ_lt_succ h.lt_most
  not_ends := by
    intro n hn
    cases n with
    | zero => exact hzero
    | succ n => exact h.not_ends n (Nat.lt_of_succ_lt_succ hn)
  ends := h.ends.imp_right (congrArg (· + 1))

end EndsAt

/-! ### Waits -/

/-- **Waits are not cut by the width of numbers.** -/
theorem delay_eq (p : RetryPolicy) (n : ℕ) : p.delay n = min (p.baseDelay * 2 ^ n) maxDelay := by
  have hlimit : maxDelay ≤ Count.largest := by decide
  rw [delay, Count.cap_mul_cap, Count.cap, Nat.min_assoc, Nat.min_eq_right hlimit]
  rfl

/-- No wait is longer than the longest. -/
theorem delay_le (p : RetryPolicy) (n : ℕ) : p.delay n ≤ maxDelay := Nat.min_le_right _ _

/-- Later waits are no shorter. -/
theorem delay_mono (p : RetryPolicy) {m n : ℕ} (h : m ≤ n) : p.delay m ≤ p.delay n := by
  rw [delay_eq, delay_eq]
  have hpow : 2 ^ m ≤ 2 ^ n := Nat.pow_le_pow_right (by decide) h
  exact min_le_min_right _ (Nat.mul_le_mul_left _ hpow)

/-! ### Runs -/

section Runs

variable (p : RetryPolicy) {operation : σ → Except Failure α × σ} {s : σ}

/-- What there is after a single call. -/
def single (call : Except Failure α × σ) : Retried α × σ :=
  ({ outcome := call.1, waits := [] }, call.2)

/-- Without any call left there is the one that is made. -/
theorem runFrom_zero (done : ℕ) : p.runFrom operation 0 done s = single (operation s) := by
  rw [runFrom]
  rcases operation s with ⟨_ | _, _⟩ <;> rfl

/-- No call follows an outcome that ends them. -/
theorem runFrom_of_ends (left done : ℕ) (h : Ends (operation s).1) :
    p.runFrom operation left done s = single (operation s) := by
  cases left with
  | zero => exact p.runFrom_zero done
  | succ left =>
      rw [runFrom]
      rcases hcall : operation s with ⟨e | a, s'⟩
      · rw [hcall] at h
        simp only [h e rfl, Bool.false_eq_true, if_false]
        rfl
      · rfl

/-- After a failure that may pass there is a wait, and then the other calls. -/
theorem runFrom_of_not_ends (left done : ℕ) (h : ¬ Ends (operation s).1) :
    p.runFrom operation (left + 1) done s =
      ({ (p.runFrom operation left (done + 1) (operation s).2).1 with
          waits := p.delay done :: (p.runFrom operation left (done + 1) (operation s).2).1.waits },
        (p.runFrom operation left (done + 1) (operation s).2).2) := by
  rw [runFrom]
  rcases hcall : operation s with ⟨e | a, s'⟩
  · have htransient : e.isTransient = true := by
      by_contra hpermanent
      refine h fun e' he' => ?_
      rw [hcall] at he'
      cases he'
      exact Bool.eq_false_iff.2 hpermanent
    simp only [htransient, if_true]
  · refine absurd (fun e he => ?_) h
    rw [hcall] at he
    cases he

/-- **A run goes up to the call that ends it**, with the wait before each repetition. -/
theorem runFrom_eq (operation : σ → Except Failure α × σ) (left done : ℕ) (s : σ) :
    ∃ last, EndsAt (outcomeAt operation s) (left + 1) last ∧
      p.runFrom operation left done s =
        ({ outcome := outcomeAt operation s last,
           waits := (List.range last).map fun n => p.delay (done + n) },
          stateAt operation s (last + 1)) := by
  induction left generalizing done s with
  | zero => exact ⟨0, ⟨Nat.one_pos, nofun, .inr rfl⟩, p.runFrom_zero done⟩
  | succ left ih =>
      by_cases hends : Ends (operation s).1
      · exact ⟨0, .zero_of_ends hends (Nat.succ_pos _), p.runFrom_of_ends (left + 1) done hends⟩
      · obtain ⟨last, hlast, hrun⟩ := ih (done + 1) (operation s).2
        refine ⟨last + 1, EndsAt.succ ?_ hends, ?_⟩
        · rwa [funext (outcomeAt_succ operation s)]
        · have hwaits : (List.range (last + 1)).map (fun n => p.delay (done + n)) =
              p.delay done :: (List.range last).map fun n => p.delay (done + 1 + n) := by
            rw [List.range_succ_eq_map, List.map_cons, List.map_map]
            refine congrArg _ (List.map_congr_left fun n _ => congrArg p.delay ?_)
            omega
          rw [p.runFrom_of_not_ends left done hends, hrun, hwaits, outcomeAt_succ operation s last,
            stateAt_succ operation s (last + 1)]

end Runs

/-- **Requests that are repeated.** An operation is called up to the first outcome that is a success
or a failure that will not pass, but no more often than the policy says and at least once. What
comes of it is the outcome of the last call, and the state after as many calls as were made.

The wait before a repetition is the first wait doubled for each repetition before, up to 4 s. So
waits never get shorter. All numbers on the way are within their words: the number of calls if the
number of attempts is, and the power and the product of the wait. -/
theorem run_spec (p : RetryPolicy) (operation : σ → Except Failure α × σ) (s : σ) :
    (∃ last, EndsAt (outcomeAt operation s) (max p.maxAttempts 1) last ∧
      p.run operation s =
        ({ outcome := outcomeAt operation s last,
           waits := (List.range last).map fun n => min (p.baseDelay * 2 ^ n) 4000 },
          stateAt operation s (last + 1)) ∧
      (p.run operation s).1.attempts = last + 1 ∧
      (p.maxAttempts ≤ Count.largest 32 → last + 1 ≤ Count.largest 32)) ∧
    (∀ n, p.delay n = min (p.baseDelay * 2 ^ n) 4000) ∧
    (∀ m n, m ≤ n → p.delay m ≤ p.delay n) ∧
    ∀ n, p.delay n ≤ 4000 ∧ Count.cap (2 ^ n) ≤ Count.largest ∧
      Count.cap (p.baseDelay * Count.cap (2 ^ n)) ≤ Count.largest := by
  refine ⟨?_, p.delay_eq, fun m n => p.delay_mono, fun n =>
    ⟨p.delay_le n, Count.cap_le _ _, Count.cap_le _ _⟩⟩
  obtain ⟨last, hlast, hrun⟩ := p.runFrom_eq operation (p.attempts - 1) 0 s
  have hmost : p.attempts - 1 + 1 = max p.maxAttempts 1 :=
    Nat.sub_add_cancel (Nat.le_max_right _ _)
  rw [hmost] at hlast
  have hwaits : (fun n => p.delay (0 + n)) = fun n => min (p.baseDelay * 2 ^ n) 4000 :=
    funext fun n => by rw [Nat.zero_add, delay_eq]; rfl
  rw [hwaits] at hrun
  refine ⟨last, hlast, hrun, ?_, fun hword => ?_⟩
  · rw [run, hrun, Retried.attempts, List.length_map, List.length_range]
  · have hone : 1 ≤ Count.largest 32 := by decide
    exact Nat.le_trans hlast.lt_most (max_le hword hone)

/-- Two failures that may pass, and a success. -/
example : ({ maxAttempts := 3, baseDelay := 3000 } : RetryPolicy).run
    (fun n => (if n < 2 then .error (.status 503 "") else .ok n, n + 1)) 0 =
      ({ outcome := .ok 2, waits := [3000, 4000] }, 3) := rfl

end Archivist.RetryPolicy
