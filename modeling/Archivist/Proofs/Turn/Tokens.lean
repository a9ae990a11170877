import Archivist.Turn.Limiter
import Mathlib.Algebra.Order.Field.Rat
import Mathlib.Data.Nat.Notation
import Mathlib.Tactic.FieldSimp
import Mathlib.Tactic.GCongr
import Mathlib.Tactic.Linarith
import Mathlib.Tactic.Positivity
import Mathlib.Tactic.Ring

/-!
# Tokens without Rounding

A rate limiter over the rational numbers counts tokens exactly. What a caller can know of it is
`Limiter.available`, the tokens that it has at a time, and everything that is done to the limiter is
described by what it does to that: forgetting full buckets changes nothing from that time on
(`Limiter.Sound.available_prune`), and a check changes the tokens of its own caller
(`Limiter.Sound.check_eq`).

`TokenBucket` is a single bucket by itself, as it is meant to be. From one check to the next it
gains no more than the time in between is worth (`TokenBucket.level_le`), and each permit costs a
token (`TokenBucket.level_take`). So a bucket grants no more than it held and has gained
(`TokenBucket.granted_le`).
-/

namespace Archivist

/-- What a check was told at a time: granted, or the wait in nanoseconds. -/
structure Told where
  time : ℕ
  answer : Except ℕ Unit
  deriving DecidableEq

namespace Told

/-- The number of permits. -/
def granted (xs : List Told) : ℕ := xs.countP (·.answer.isOk)

/-- The number of permits from `t₀` to `t₁`. -/
def grantedWithin (t₀ t₁ : ℕ) (xs : List Told) : ℕ :=
  granted (xs.filter fun x => t₀ ≤ x.time ∧ x.time ≤ t₁)

/-- Permits are counted one by one. -/
theorem granted_cons (x : Told) (xs : List Told) :
    granted (x :: xs) = granted xs + if x.answer.isOk then 1 else 0 :=
  List.countP_cons

end Told

/-- The tokens that are gained in a number of nanoseconds. -/
def tokensIn (rate : ℚ) (ns : ℕ) : ℚ := rate * (ns / Limiter.nanosPerSecond)

section tokensIn

variable {rate : ℚ} {m n : ℕ}

/-- Nothing is gained in no time. -/
theorem tokensIn_zero (rate : ℚ) : tokensIn rate 0 = 0 := by
  rw [tokensIn, Nat.cast_zero, zero_div, mul_zero]

/-- What is gained in two times after each other adds up. -/
theorem tokensIn_add (rate : ℚ) (m n : ℕ) :
    tokensIn rate (m + n) = tokensIn rate m + tokensIn rate n := by
  rw [tokensIn, tokensIn, tokensIn, Nat.cast_add]
  ring

/-- What is gained is not negative. -/
theorem tokensIn_nonneg (h : 0 ≤ rate) (n : ℕ) : 0 ≤ tokensIn rate n := by
  rw [tokensIn]
  positivity

/-- In more time no less is gained. -/
theorem tokensIn_mono (h : 0 ≤ rate) (hle : m ≤ n) : tokensIn rate m ≤ tokensIn rate n := by
  obtain ⟨k, rfl⟩ := Nat.exists_eq_add_of_le hle
  rw [tokensIn_add]
  linarith [tokensIn_nonneg h k]

/-- What is gained on the way back is nothing, so a detour gains no less than the direct way. -/
theorem tokensIn_sub_le (h : 0 ≤ rate) (a b c : ℕ) :
    tokensIn rate (c - a) ≤ tokensIn rate (b - a) + tokensIn rate (c - b) := by
  rw [← tokensIn_add]
  exact tokensIn_mono h (by omega)

end tokensIn

/-! ### A bucket by itself -/

/-- A bucket that had a number of tokens at a time. -/
structure TokenBucket where
  /-- The tokens of a full bucket. -/
  burst : ℚ
  /-- The tokens that are gained in a second. -/
  rate : ℚ
  tokens : ℚ
  since : ℕ

namespace TokenBucket

/-- A full bucket. -/
def full (burst rate : ℚ) (now : ℕ) : TokenBucket := { burst, rate, tokens := burst, since := now }

/-- The tokens at a time. Time that goes back gains nothing. -/
def level (b : TokenBucket) (now : ℕ) : ℚ :=
  min (b.tokens + tokensIn b.rate (now - b.since)) b.burst

/-- The wait until there is a whole token, in nanoseconds. -/
def wait (b : TokenBucket) (now : ℕ) : ℕ :=
  if 0 < b.rate then Limiter.toNanoseconds ((1 - b.level now) / b.rate) else Limiter.longestWait

/-- Pays a token, if there is one. -/
def take (b : TokenBucket) (now : ℕ) : Except ℕ Unit × TokenBucket :=
  if 1 ≤ b.level now then (.ok (), { b with tokens := b.level now - 1, since := now })
  else (.error (b.wait now), { b with tokens := b.level now, since := now })

/-- What checks are told, one after the other. -/
def tell (b : TokenBucket) : List ℕ → List Told
  | [] => []
  | now :: rest => ⟨now, (b.take now).1⟩ :: (b.take now).2.tell rest

/-- What checks leave, one after the other. -/
def after (b : TokenBucket) (times : List ℕ) : TokenBucket :=
  times.foldl (fun b now => (b.take now).2) b

/-- What checks are told by a bucket that is full at the first of them. -/
def tellAnew (burst rate : ℚ) : List ℕ → List Told
  | [] => []
  | now :: rest => (full burst rate now).tell (now :: rest)

/-- A bucket holds at least nothing and at most its burst, and does not leak. -/
structure Sound (b : TokenBucket) : Prop where
  rate_nonneg : 0 ≤ b.rate
  tokens_nonneg : 0 ≤ b.tokens
  tokens_le : b.tokens ≤ b.burst

variable {b : TokenBucket}

/-- A full bucket is sound. -/
theorem sound_full {burst rate : ℚ} (hburst : 0 ≤ burst) (hrate : 0 ≤ rate) (now : ℕ) :
    (full burst rate now).Sound :=
  ⟨hrate, hburst, le_refl burst⟩

/-- A bucket never holds more than its burst. -/
theorem level_le_burst (b : TokenBucket) (now : ℕ) : b.level now ≤ b.burst := min_le_right _ _

/-- A sound bucket never holds less than nothing. -/
theorem Sound.level_nonneg (h : b.Sound) (now : ℕ) : 0 ≤ b.level now := by
  refine le_min ?_ (h.tokens_nonneg.trans h.tokens_le)
  linarith [h.tokens_nonneg, tokensIn_nonneg h.rate_nonneg (now - b.since)]

/-- **From one time to another no more is gained than the time in between is worth.** -/
theorem Sound.level_le (h : b.Sound) (t now : ℕ) :
    b.level now ≤ b.level t + tokensIn b.rate (now - t) := by
  have hgain := tokensIn_nonneg h.rate_nonneg (now - t)
  rw [level, level, ← min_add_add_right]
  refine le_min ((min_le_left _ _).trans ?_) ((min_le_right _ _).trans ?_)
  · linarith [tokensIn_sub_le h.rate_nonneg b.since t now]
  · linarith

/-- A bucket that nobody touches holds no less later. -/
theorem Sound.level_mono (h : b.Sound) {t now : ℕ} (hle : t ≤ now) : b.level t ≤ b.level now := by
  have hgain := tokensIn_mono h.rate_nonneg (Nat.sub_le_sub_right hle b.since)
  exact min_le_min (by linarith) (le_refl _)

/-- A full bucket is full. -/
theorem level_full (burst rate : ℚ) (now : ℕ) : (full burst rate now).level now = burst := by
  rw [level, full, Nat.sub_self, tokensIn_zero, add_zero, min_self]

/-- A full bucket stays full. -/
theorem level_full_of_nonneg {rate : ℚ} (hrate : 0 ≤ rate) (burst : ℚ) (t now : ℕ) :
    (full burst rate t).level now = burst := by
  have hgain := tokensIn_nonneg hrate (now - t)
  have hfull : burst ≤ burst + tokensIn rate (now - t) := by linarith
  exact min_eq_right hfull

/-- Taking a token does not change the burst. -/
theorem burst_take (b : TokenBucket) (now : ℕ) : (b.take now).2.burst = b.burst := by
  rw [take]
  split <;> rfl

/-- Taking a token does not change the rate. -/
theorem rate_take (b : TokenBucket) (now : ℕ) : (b.take now).2.rate = b.rate := by
  rw [take]
  split <;> rfl

/-- Taking a token keeps a bucket sound. -/
theorem Sound.take (h : b.Sound) (now : ℕ) : (b.take now).2.Sound := by
  have hlevel := b.level_le_burst now
  rw [TokenBucket.take]
  by_cases hfull : 1 ≤ b.level now
  · rw [if_pos hfull]
    refine ⟨h.rate_nonneg, ?_, ?_⟩
    · change 0 ≤ b.level now - 1
      linarith
    · change b.level now - 1 ≤ b.burst
      linarith
  · rw [if_neg hfull]
    exact ⟨h.rate_nonneg, h.level_nonneg now, hlevel⟩

/-- A bucket holds no more than it held a moment ago. -/
theorem level_since_le (b : TokenBucket) : b.level b.since ≤ b.tokens := by
  rw [level, Nat.sub_self, tokensIn_zero, add_zero]
  exact min_le_left b.tokens b.burst

/-- **A permit costs a token**, and a check that is refused costs nothing. -/
theorem level_take (b : TokenBucket) (now : ℕ) :
    (if (b.take now).1.isOk then 1 else 0) + (b.take now).2.level now ≤ b.level now := by
  rw [take]
  by_cases hfull : 1 ≤ b.level now
  · rw [if_pos hfull]
    have hpaid := level_since_le { b with tokens := b.level now - 1, since := now }
    change 1 + level { b with tokens := b.level now - 1, since := now } now ≤ b.level now
    linarith
  · rw [if_neg hfull]
    have hpaid := level_since_le { b with tokens := b.level now, since := now }
    change 0 + level { b with tokens := b.level now, since := now } now ≤ b.level now
    linarith

/-- A further check finds what those before it have left. -/
theorem after_concat (b : TokenBucket) (times : List ℕ) (now : ℕ) :
    b.after (times ++ [now]) = ((b.after times).take now).2 := by
  rw [after, List.foldl_append]
  rfl

/-- A further check is told last. -/
theorem tell_concat (b : TokenBucket) (times : List ℕ) (now : ℕ) :
    b.tell (times ++ [now]) = b.tell times ++ [⟨now, ((b.after times).take now).1⟩] := by
  induction times generalizing b with
  | nil => rfl
  | cons t rest ih =>
      rw [List.cons_append, tell, tell, ih]
      rfl

/-- The time by which clock readings have gone forward. -/
def advance (t : ℕ) : List ℕ → ℕ
  | [] => 0
  | now :: rest => (now - t) + advance now rest

/-- **A bucket grants no more than it held and has gained**, whether or not time goes back. -/
theorem Sound.granted_le (h : b.Sound) (t : ℕ) (times : List ℕ) :
    (Told.granted (b.tell times) : ℚ) ≤ b.level t + tokensIn b.rate (advance t times) := by
  induction times generalizing b t with
  | nil =>
      rw [tell, advance, tokensIn_zero, add_zero]
      exact h.level_nonneg t
  | cons now rest ih =>
      have hrest := ih (h.take now) now
      have hpaid := b.level_take now
      have hgained := h.level_le t now
      rw [rate_take] at hrest
      rw [tell, Told.granted_cons, advance, tokensIn_add]
      push_cast
      linarith

/-- The time by which clock readings have gone back. -/
def setback (t : ℕ) : List ℕ → ℕ
  | [] => 0
  | now :: rest => (t - now) + setback now rest

/-- Readings end where going forward and going back takes them. -/
theorem add_advance_eq (t : ℕ) (times : List ℕ) :
    t + advance t times = times.getLastD t + setback t times := by
  induction times generalizing t with
  | nil => rfl
  | cons now rest ih =>
      have hrest := ih now
      rw [List.getLastD_cons, advance, setback]
      omega

/-- Within a span of time, readings go forward no more than they go back and the span is long. -/
theorem advance_le {t₀ t₁ : ℕ} {times : List ℕ} (h : ∀ t ∈ times, t₀ ≤ t ∧ t ≤ t₁) :
    advance t₀ times ≤ (t₁ - t₀) + setback t₀ times := by
  have hsum := add_advance_eq t₀ times
  have hlast : times.getLastD t₀ = t₀ ∨ times.getLastD t₀ ≤ t₁ := by
    cases times with
    | nil => exact .inl rfl
    | cons now rest =>
        rw [List.getLastD_eq_getLast?, List.getLast?_eq_some_getLast (List.cons_ne_nil _ _)]
        exact .inr (h _ (List.getLast_mem _)).2
  omega

/-- Nothing is set back if no check is made before another one. -/
theorem setback_eq_zero {t : ℕ} {times : List ℕ} (h : (t :: times).Pairwise (· ≤ ·)) :
    setback t times = 0 := by
  induction times generalizing t with
  | nil => rfl
  | cons now rest ih =>
      obtain ⟨hfirst, hrest⟩ := List.pairwise_cons.1 h
      have hnow : t ≤ now := hfirst now List.mem_cons_self
      rw [setback, ih hrest]
      omega

/-- What is told at times is told at these times. -/
theorem map_time_tell (b : TokenBucket) (times : List ℕ) :
    (b.tell times).map Told.time = times := by
  induction times generalizing b with
  | nil => rfl
  | cons now rest ih => rw [tell, List.map_cons, ih]

/-- It does not matter when a bucket has been filled that is still full at the first check. -/
theorem tell_full {rate : ℚ} (hrate : 0 ≤ rate) (burst : ℚ) (t : ℕ) (times : List ℕ) :
    (full burst rate t).tell times = tellAnew burst rate times := by
  cases times with
  | nil => rfl
  | cons now rest =>
      have htake : (full burst rate t).take now = (full burst rate now).take now := by
        rw [take, take, wait, wait, level_full_of_nonneg hrate, level_full_of_nonneg hrate]
        rfl
      rw [tellAnew, tell, tell, htake]

/-- Permits up to a time are paid with what was there before and what is gained until then. -/
theorem Sound.grantedWithin_le_of_le (h : b.Sound) {t₀ t : ℕ} (t₁ : ℕ) {times : List ℕ}
    (hsorted : (t :: times).Pairwise (· ≤ ·)) (ht : t₀ ≤ t) :
    (Told.grantedWithin t₀ t₁ (b.tell times) : ℚ) ≤ b.level t + tokensIn b.rate (t₁ - t) := by
  induction times generalizing b t with
  | nil =>
      have hgain := tokensIn_nonneg h.rate_nonneg (t₁ - t)
      change (0 : ℚ) ≤ _
      linarith [h.level_nonneg t]
  | cons now rest ih =>
      obtain ⟨hfirst, hsorted⟩ := List.pairwise_cons.1 hsorted
      have htnow : t ≤ now := hfirst now List.mem_cons_self
      by_cases hnow : now ≤ t₁
      · -- What is granted now is paid from the level, and the span is cut at this time.
        have hrest := ih (h.take now) hsorted (ht.trans htnow)
        have hpaid := b.level_take now
        have hgained := h.level_le t now
        have hsum : tokensIn b.rate (t₁ - t) =
            tokensIn b.rate (now - t) + tokensIn b.rate (t₁ - now) := by
          rw [← tokensIn_add]
          congr 1
          omega
        have hin : t₀ ≤ now ∧ now ≤ t₁ := ⟨ht.trans htnow, hnow⟩
        rw [rate_take] at hrest
        rw [Told.grantedWithin] at hrest
        rw [tell, Told.grantedWithin, List.filter_cons_of_pos (by simpa using hin),
          Told.granted_cons, hsum]
        push_cast
        linarith
      · -- All that is told from here on is told too late.
        have hnone : (b.tell (now :: rest)).filter (fun x => t₀ ≤ x.time ∧ x.time ≤ t₁) = [] := by
          refine List.filter_eq_nil_iff.2 fun x hx hin => ?_
          have hmem : x.time ∈ now :: rest :=
            b.map_time_tell (now :: rest) ▸ List.mem_map_of_mem hx
          have hle : now ≤ x.time := by
            rcases List.mem_cons.1 hmem with heq | hmem
            · omega
            · exact (List.pairwise_cons.1 hsorted).1 _ hmem
          simp only [decide_eq_true_eq] at hin
          omega
        have hgain := tokensIn_nonneg h.rate_nonneg (t₁ - t)
        rw [Told.grantedWithin, hnone]
        change (0 : ℚ) ≤ _
        linarith [h.level_nonneg t]

/-- **In a span of time a bucket grants no more than its burst and what is gained in the span**, as
long as time does not go back. -/
theorem Sound.grantedWithin_le (h : b.Sound) (t₀ t₁ : ℕ) {times : List ℕ}
    (hsorted : times.Pairwise (· ≤ ·)) :
    (Told.grantedWithin t₀ t₁ (b.tell times) : ℚ) ≤ b.burst + tokensIn b.rate (t₁ - t₀) := by
  induction times generalizing b with
  | nil =>
      have hgain := tokensIn_nonneg h.rate_nonneg (t₁ - t₀)
      change (0 : ℚ) ≤ _
      linarith [h.tokens_nonneg, h.tokens_le]
  | cons now rest ih =>
      by_cases hnow : t₀ ≤ now
      · have hwithin := h.grantedWithin_le_of_le t₁
          (List.pairwise_cons.2 ⟨fun t ht => ?_, hsorted⟩) hnow
        · have hspan := tokensIn_mono h.rate_nonneg (Nat.sub_le_sub_left hnow t₁)
          linarith [b.level_le_burst now]
        · rcases List.mem_cons.1 ht with rfl | ht
          · exact le_refl _
          · exact (List.pairwise_cons.1 hsorted).1 t ht
      · have hrest := ih (h.take now) (List.pairwise_cons.1 hsorted).2
        have hout : ¬ (t₀ ≤ now ∧ now ≤ t₁) := fun hin => hnow hin.1
        rw [burst_take, rate_take] at hrest
        rw [tell, Told.grantedWithin, List.filter_cons_of_neg (by simpa using hout)]
        exact hrest

end TokenBucket

end Archivist
