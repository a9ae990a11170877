import Archivist.Proofs.Turn.Bucket
import Mathlib.Logic.Relation

/-!
# Announced Waits

A caller without a whole token is told how many milliseconds to wait. While it waits, others may
check as they like, and full buckets or all of them may be forgotten; that never takes a token from
the caller (`Limiter.Run.available_le`). So what counts is what its bucket gains in the meantime.

The wait is exact to half a nanosecond, but of its milliseconds only the whole ones are announced.
What is cut off can be missing in the end.

## Main results

* `Limiter.granted_after_wait_iff`: when the announced wait is long enough; a millisecond more is.
* `Limiter.waits_too_short`: an announced wait that is not.
-/

namespace Archivist

/-- Rounding to the nearest whole number takes no more than a half away. -/
theorem Decimal.le_roundDiv {den : ℕ} (num : ℕ) (h : 0 < den) :
    2 * num ≤ (2 * roundDiv num den + 1) * den := by
  have hdiv := Nat.div_add_mod num den
  have hmod := Nat.mod_lt num h
  have hdown : 2 * (num % den) ≤ den → 2 * num ≤ (2 * (num / den) + 1) * den := by
    intro hle
    nlinarith
  have hup : 2 * num ≤ (2 * (num / den + 1) + 1) * den := by
    nlinarith
  simp only [roundDiv]
  split
  · rename_i hlt
    exact hdown hlt.le
  · split
    · exact hup
    · rename_i hge
      split
      · exact hdown (not_lt.1 hge)
      · exact hup

namespace Limiter

variable {l l' : Limiter ℚ} {caller other : String} {now t ms burst : ℕ} {rate q : ℚ}

/-! ### Waits -/

/-- A wait in nanoseconds falls short of the exact one by half a nanosecond at most. -/
theorem le_toNanoseconds (hq : 0 ≤ q) (h : toNanoseconds q < longestWait) :
    q * nanosPerSecond ≤ toNanoseconds q + 1 / 2 := by
  have hns : (0 : ℚ) ≤ q * nanosPerSecond := mul_nonneg hq (Nat.cast_nonneg _)
  have hround : toNanoseconds q =
      Decimal.roundDiv (q * nanosPerSecond).num.toNat (q * nanosPerSecond).den := by
    have hmin : toNanoseconds q = min (Decimal.roundDiv (q * nanosPerSecond).num.toNat
      (q * nanosPerSecond).den) longestWait := rfl
    rw [hmin] at h ⊢
    exact min_eq_left (min_lt_iff.1 h |>.resolve_right (lt_irrefl _)).le
  have hden : (0 : ℚ) < (q * nanosPerSecond).den := Nat.cast_pos.2 (q * nanosPerSecond).den_pos
  have hvalue : q * nanosPerSecond = (q * nanosPerSecond).num.toNat / (q * nanosPerSecond).den := by
    have hnum : ((q * nanosPerSecond).num.toNat : ℚ) = (q * nanosPerSecond).num := by
      exact_mod_cast Int.toNat_of_nonneg (Rat.num_nonneg.2 hns)
    rw [hnum, Rat.num_div_den]
  have hle : (2 * (q * nanosPerSecond).num.toNat : ℚ) ≤
      (2 * toNanoseconds q + 1) * (q * nanosPerSecond).den := by
    rw [hround]
    exact_mod_cast Decimal.le_roundDiv _ (q * nanosPerSecond).den_pos
  rw [hvalue, div_le_iff₀ hden]
  linarith

/-- A millisecond more than announced is as long as the exact wait. -/
theorem le_of_announced (hq : 0 ≤ q) (h : min (toNanoseconds q / 1_000_000) longestMs = ms)
    (hms : ms < longestMs) : q * nanosPerSecond ≤ (ms + 1) * 1_000_000 := by
  have hdiv : toNanoseconds q / 1_000_000 = ms := by omega
  have hlt : toNanoseconds q + 1 ≤ (ms + 1) * 1_000_000 := by omega
  have hlongest : toNanoseconds q < longestWait := by
    have hsize : (longestMs + 1) * 1_000_000 ≤ longestWait := by decide
    nlinarith
  have hround := le_toNanoseconds hq hlongest
  have hcast : (toNanoseconds q : ℚ) + 1 ≤ (ms + 1) * 1_000_000 := by exact_mod_cast hlt
  linarith

/-- Tokens are gained in time exactly if the wait for them is over. -/
theorem le_tokensIn_iff (hrate : 0 < rate) (missing : ℚ) (ms : ℕ) :
    missing ≤ tokensIn rate (ms * 1_000_000) ↔ missing / rate ≤ ms / 1000 := by
  rw [div_le_iff₀ hrate, tokensIn, nanosPerSecond]
  have hgain : rate * (((ms * 1_000_000 : ℕ) : ℚ) / (1_000_000_000 : ℕ)) = ms / 1000 * rate := by
    push_cast
    ring
  rw [hgain]

/-! ### What others do -/

/-- What can be done to a limiter, with checks of some callers. -/
inductive Step (among : String → Prop) : Limiter ℚ → Limiter ℚ → Prop where
  | check (l : Limiter ℚ) {caller : String} (h : among caller) (now : ℕ) :
      Step among l (l.check caller now).2
  /-- Full buckets are forgotten. -/
  | prune (l : Limiter ℚ) (now : ℕ) : Step among l (l.prune now).2
  /-- All buckets are forgotten. -/
  | reset (l : Limiter ℚ) : Step among l l.reset

/-- What can be done, one thing after the other, at any times. -/
abbrev Run (among : String → Prop) : Limiter ℚ → Limiter ℚ → Prop :=
  Relation.ReflTransGen (Step among)

/-- A limiter that can be in use, with buckets that hold a whole token. -/
structure InUse (l : Limiter ℚ) (rate : ℚ) : Prop where
  sound : l.Sound
  one_le : 1 ≤ l.burst
  rate_eq : l.rate = rate

/-- A limiter in which nobody has asked can be in use. -/
theorem inUse_fresh (hrate : 0 < rate) (burst : ℕ) : (fresh burst rate).InUse rate := by
  refine ⟨sound_fresh burst rate, ?_, ?_⟩
  · rw [burst_fresh]
    exact_mod_cast le_max_right burst 1
  · rw [rate_fresh, max_eq_left hrate.le]

/-- A check does not change the rate. -/
theorem rate_check (h : l.Sound) (caller : String) (now : ℕ) :
    (l.check caller now).2.rate = l.rate := by
  rw [h.check_eq]
  split <;> exact (l.count_cases now).2.1

/-- A limiter that has been reset is sound. -/
theorem sound_reset (h : l.Sound) : l.reset.Sound :=
  ⟨h.burst_nonneg, h.rate_nonneg, List.nodup_nil, List.forall_mem_nil _⟩

/-- Whatever happens, a limiter remains one that can be in use. -/
theorem Step.inUse {among : String → Prop} (hs : Step among l l') (h : l.InUse rate) :
    l'.InUse rate := by
  cases hs with
  | @check caller _ now =>
      exact ⟨h.sound.check caller now, (burst_check h.sound caller now).symm ▸ h.one_le,
        (rate_check h.sound caller now).trans h.rate_eq⟩
  | prune now => exact ⟨h.sound.prune now, h.one_le, h.rate_eq⟩
  | reset => exact ⟨sound_reset h.sound, h.one_le, h.rate_eq⟩

/-- So does whatever happens in a run. -/
theorem Run.inUse {among : String → Prop} (hr : Run among l l') (h : l.InUse rate) :
    l'.InUse rate := by
  induction hr with
  | refl => exact h
  | tail _ hs ih => exact hs.inUse ih

/-- Forgetting full buckets takes no tokens, at no time: not even a check that reads the clock
earlier finds less. -/
theorem Sound.available_le_prune (h : l.Sound) (now t : ℕ) (caller : String) :
    l.available caller t ≤ (l.prune now).2.available caller t := by
  by_cases hb : ∃ b ∈ (l.prune now).2.buckets, b.caller = caller
  · obtain ⟨b, hb, rfl⟩ := hb
    rw [(h.prune now).available_of_mem hb, h.available_of_mem (List.mem_filter.1 hb).1]
    exact le_refl _
  · rw [available_of_forall_ne (l := (l.prune now).2) fun b hmem heq => hb ⟨b, hmem, heq⟩]
    exact (h.available_bounds caller t).2

/-- Counting a check takes no tokens, at any time. -/
theorem Sound.available_le_count (h : l.Sound) (now t : ℕ) (caller : String) :
    l.available caller t ≤ (l.count now).available caller t := by
  have hcounted : Sound { l with checks := l.checks + 1 } :=
    ⟨h.burst_nonneg, h.rate_nonneg, h.nodup, h.alone⟩
  rw [Limiter.count]
  split
  · exact hcounted.available_le_prune now t caller
  · exact le_refl _

/-- **Others take nothing from a caller.** -/
theorem Step.available_le (hs : Step (· ≠ caller) l l') (h : l.Sound) (t : ℕ) :
    l.available caller t ≤ l'.available caller t := by
  cases hs with
  | @check other hne now =>
      have hput : ∀ tokens, l.available caller t ≤
          ((l.count now).put ⟨other, tokens, now⟩).available caller t := by
        intro tokens
        rw [available_put_of_ne _ hne]
        exact h.available_le_count now t caller
      rw [h.check_eq]
      split
      · exact hput _
      · exact hput _
  | prune now => exact h.available_le_prune now t caller
  | reset => exact (h.available_bounds caller t).2

/-- While others check, a caller loses no tokens. -/
theorem Run.available_le (hr : Run (· ≠ caller) l l') (h : l.InUse rate) (t : ℕ) :
    l.available caller t ≤ l'.available caller t := by
  induction hr with
  | refl => exact le_refl _
  | tail hr hs ih => exact ih.trans (hs.available_le (Run.inUse hr h).sound t)

/-! ### Rejected callers -/

/-- A permit is granted to a caller with a whole token. -/
theorem Sound.granted_iff (h : l.Sound) (caller : String) (now : ℕ) :
    (l.acquire caller now).1 = .ok () ↔ 1 ≤ l.available caller now := by
  simp only [acquire]
  rw [h.check_eq]
  by_cases hless : l.available caller now < 1
  · rw [if_pos hless]
    exact iff_of_false (by rintro ⟨⟩) (not_le.2 hless)
  · rw [if_neg hless]
    exact iff_of_true rfl (not_lt.1 hless)

/-- A caller that is rejected has less than a token, and its bucket goes on to fill. -/
theorem Sound.available_of_rejected (h : l.Sound) {e : Failure}
    (hrej : (l.acquire caller now).1 = .error e) :
    l.available caller now < 1 ∧ e = rejection caller (l.waitFor (l.available caller now)) ∧
      ∀ t, (l.acquire caller now).2.available caller t =
        min (l.available caller now + tokensIn l.rate (t - now)) l.burst := by
  have hless : l.available caller now < 1 := by
    rw [← not_le, ← h.granted_iff, hrej]
    exact nofun
  obtain ⟨hburst, hrate, -⟩ := l.count_cases now
  simp only [acquire] at hrej ⊢
  rw [h.check_eq, if_pos hless] at hrej ⊢
  refine ⟨hless, (Except.error.inj hrej).symm, fun t => ?_⟩
  rw [(l.count now).available_put_self ⟨caller, l.available caller now, now⟩ t,
    TokenBucket.level, Limiter.alone, hburst, hrate]

/-- A rejected caller finds a whole token exactly when it has gained what is missing. -/
theorem InUse.one_le_iff (h : l.InUse rate) {e : Failure}
    (hrej : (l.acquire caller now).1 = .error e) (wait : ℕ) :
    1 ≤ (l.acquire caller now).2.available caller (now + wait) ↔
      1 - l.available caller now ≤ tokensIn rate wait := by
  rw [(h.sound.available_of_rejected hrej).2.2, Nat.add_sub_cancel_left, le_min_iff, h.rate_eq,
    sub_le_iff_le_add']
  exact and_iff_left h.one_le

/-- **When the announced wait is long enough.** A limiter that refills may have been used in any
way. A caller that it rejects and that waits as long as it is told is granted a permit, whatever
others do in the meantime, if and only if the milliseconds that it is told cover the exact wait for
the tokens that it misses. A millisecond more always does. -/
theorem granted_after_wait_iff (hrate : 0 < rate)
    (hreach : Run (fun _ => True) (fresh burst rate) l)
    (hrej : (l.acquire caller now).1 = .error (.rateLimited caller ms)) (hms : ms < longestMs) :
    ((∀ l', Run (· ≠ caller) (l.acquire caller now).2 l' →
        (l'.acquire caller (now + ms * 1_000_000)).1 = .ok ()) ↔
      (1 - l.available caller now) / rate ≤ ms / 1000) ∧
    ∀ l', Run (· ≠ caller) (l.acquire caller now).2 l' →
      (l'.acquire caller (now + (ms + 1) * 1_000_000)).1 = .ok () := by
  have h : l.InUse rate := Run.inUse hreach (inUse_fresh hrate burst)
  have hrejected : (l.acquire caller now).2.InUse rate := by
    have hstep : Step (fun _ => True) l (l.acquire caller now).2 := .check l trivial now
    exact hstep.inUse h
  -- Steps for other callers never take tokens of this one.
  have hgranted : ∀ l', Run (· ≠ caller) (l.acquire caller now).2 l' → ∀ wait,
      1 - l.available caller now ≤ tokensIn rate wait →
        (l'.acquire caller (now + wait)).1 = .ok () := by
    intro l' hr wait hwait
    rw [(Run.inUse hr hrejected).sound.granted_iff]
    exact ((h.one_le_iff hrej wait).2 hwait).trans (Run.available_le hr hrejected _)
  obtain ⟨hless, hwait, -⟩ := h.sound.available_of_rejected hrej
  refine ⟨⟨fun hall => ?_, fun hcover l' hr => hgranted l' hr _ ?_⟩,
    fun l' hr => hgranted l' hr _ ?_⟩
  · rw [← le_tokensIn_iff hrate, ← h.one_le_iff hrej, ← hrejected.sound.granted_iff]
    exact hall _ .refl
  · rwa [le_tokensIn_iff hrate]
  · -- The wait that was announced is the exact one with its fraction of a millisecond cut off.
    rw [waitFor_eq, h.rate_eq, if_pos hrate] at hwait
    injection hwait with _ hannounced
    have hnonneg : 0 ≤ (1 - l.available caller now) / rate :=
      div_nonneg (by linarith) hrate.le
    have hle := le_of_announced hnonneg hannounced.symm hms
    rw [le_tokensIn_iff hrate]
    rw [nanosPerSecond] at hle
    push_cast at hle ⊢
    linarith

/-- A caller that has taken the one token of a bucket that gains three a second. -/
def emptied : Limiter ℚ := ((fresh 1 3).check "a" 0).2

/-- One check empties the bucket. -/
theorem run_emptied : Run (fun _ => True) (fresh 1 3) emptied :=
  .single (.check _ trivial 0)

/-- The next token takes a third of a second. -/
theorem rejected_emptied : (emptied.acquire "a" 0).1 = .error (.rateLimited "a" 333) := by
  have hcheck : (emptied.check "a" 0).1 = .error 333_333_333 := by decide +kernel
  simp only [acquire, hcheck]
  rfl

/-- The caller is told to wait for 333 milliseconds, and that is not long enough. -/
theorem waits_too_short : Run (fun _ => True) (fresh 1 3) emptied ∧
    (emptied.acquire "a" 0).1 = .error (.rateLimited "a" 333) ∧ 333 < longestMs ∧
    ((emptied.acquire "a" 0).2.acquire "a" (0 + 333 * 1_000_000)).1 ≠ .ok () := by
  refine ⟨run_emptied, rejected_emptied, by decide, ?_⟩
  have hcheck : ((emptied.acquire "a" 0).2.check "a" (0 + 333 * 1_000_000)).1 ≠ .ok () := by
    decide +kernel
  intro hok
  simp only [acquire] at hok hcheck
  revert hok hcheck
  generalize (((emptied.check "a" 0).2).check "a" _).1 = answer
  cases answer <;> simp [Except.mapError]

/-- After 334 milliseconds it is granted a permit. -/
theorem granted_after_wait_emptied : (0 : ℚ) < 3 ∧ Run (fun _ => True) (fresh 1 3) emptied ∧
    (emptied.acquire "a" 0).1 = .error (.rateLimited "a" 333) ∧ 333 < longestMs ∧
    ((emptied.acquire "a" 0).2.acquire "a" (0 + (333 + 1) * 1_000_000)).1 = .ok () :=
  ⟨by decide, run_emptied, rejected_emptied, by decide,
    (granted_after_wait_iff (by decide) run_emptied rejected_emptied (by decide)).2 _ .refl⟩

end Limiter

end Archivist
