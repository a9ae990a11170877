import Archivist.Proofs.Number.Scalar
import Archivist.Proofs.Turn.Limiter
import Archivist.Proofs.Turn.Tokens

/-!
# A Bucket for Each Caller

A rate limiter keeps the buckets of many callers, forgets those that are full, on request and every
so many checks, and makes a full one for a caller that it does not know. None of this shows: each
caller is told what a bucket of its own would tell it.

A limiter and a bucket have a caller's tokens in common (`Limiter.Mirrors`). Each request to the
limiter leaves it so, and a check of the caller is answered as the bucket answers it
(`Limiter.Mirrors.check`); a run of requests follows by induction.

## Main results

* `Limiter.told_apart`: each caller is told what a bucket of its own tells, no bucket ever holds
  less than nothing or more than its burst, and no span of time grants more than a burst and what is
  gained in the span.
-/

namespace Archivist

open Scalar (less_iff least_eq ofNat_zero ofNat_one)

namespace Limiter

/-! ### What limiters compute with -/

/-- Seconds are exact among rationals. -/
theorem seconds_eq (ns : ℕ) : (seconds ns : ℚ) = ns / nanosPerSecond := by
  have hdiv : ((nanosPerSecond * (ns / nanosPerSecond) + ns % nanosPerSecond : ℕ) : ℚ) = ns := by
    rw [Nat.div_add_mod]
  have hne : (nanosPerSecond : ℚ) ≠ 0 := by
    rw [nanosPerSecond]
    norm_num
  change ((ns / nanosPerSecond : ℕ) : ℚ) + ((ns % nanosPerSecond : ℕ) : ℚ) / nanosPerSecond = _
  push_cast at hdiv
  field_simp
  linarith

variable {l : Limiter ℚ} {caller other : String} {now t : ℕ}

/-- A bucket of the limiter by itself. -/
def alone (l : Limiter ℚ) (b : Bucket ℚ) : TokenBucket :=
  { burst := l.burst, rate := l.rate, tokens := b.tokens, since := b.refilledAt }

/-- A refilled bucket holds what it holds by itself. -/
theorem refilled_eq (l : Limiter ℚ) (now : ℕ) (b : Bucket ℚ) :
    l.refilled now b = (l.alone b).level now := by
  rw [refilled, least_eq, seconds_eq, mul_comm]
  rfl

/-- A limiter has one bucket at most for each caller, and all buckets are sound. -/
structure Sound (l : Limiter ℚ) : Prop where
  burst_nonneg : 0 ≤ l.burst
  rate_nonneg : 0 ≤ l.rate
  nodup : (l.buckets.map (·.caller)).Nodup
  alone : ∀ b ∈ l.buckets, (l.alone b).Sound

/-- A limiter in which nobody has asked is sound. -/
theorem sound_fresh (burst : ℕ) (rate : ℚ) : (fresh burst rate).Sound := by
  refine ⟨Nat.cast_nonneg _, ?_, List.nodup_nil, List.forall_mem_nil _⟩
  change 0 ≤ if Scalar.less 0 rate then rate else (0 : ℚ)
  by_cases h : 0 < rate
  · rw [if_pos (less_iff.2 h)]
    exact h.le
  · rw [if_neg fun hless => h (less_iff.1 hless)]

/-- What callers have is what the buckets that they have hold. -/
theorem Sound.available_of_mem (h : l.Sound) {b : Bucket ℚ} (hb : b ∈ l.buckets) (t : ℕ) :
    l.available b.caller t = (l.alone b).level t := by
  rw [available]
  cases hfind : l.buckets.find? (·.caller = b.caller) with
  | none =>
      have hne := List.find?_eq_none.1 hfind b hb
      exact absurd (decide_eq_true rfl) hne
  | some b' =>
      have hcaller : b'.caller = b.caller := by simpa using List.find?_some hfind
      obtain rfl : b' = b :=
        List.inj_on_of_nodup_map h.nodup (List.mem_of_find?_eq_some hfind) hb hcaller
      exact l.refilled_eq t b'

/-- A caller without a bucket has the tokens of a full one. -/
theorem available_of_forall_ne (h : ∀ b ∈ l.buckets, b.caller ≠ caller) (t : ℕ) :
    l.available caller t = l.burst := by
  have hnone : l.buckets.find? (·.caller = caller) = none :=
    List.find?_eq_none.2 fun b hb => by simpa using h b hb
  rw [available, hnone]

/-- A caller never has less than nothing or more than a full bucket. -/
theorem Sound.available_bounds (h : l.Sound) (caller : String) (t : ℕ) :
    0 ≤ l.available caller t ∧ l.available caller t ≤ l.burst := by
  by_cases hb : ∃ b ∈ l.buckets, b.caller = caller
  · obtain ⟨b, hb, rfl⟩ := hb
    rw [h.available_of_mem hb]
    exact ⟨(h.alone b hb).level_nonneg t, (l.alone b).level_le_burst t⟩
  · rw [available_of_forall_ne fun b hmem heq => hb ⟨b, hmem, heq⟩]
    exact ⟨h.burst_nonneg, le_refl _⟩

/-- The bucket that a check looks at holds what the caller has. -/
theorem refilled_bucketOf (l : Limiter ℚ) (caller : String) (now : ℕ) :
    l.refilled now (l.bucketOf caller now) = l.available caller now := by
  rw [bucketOf, available]
  cases l.buckets.find? (·.caller = caller) with
  | some b => rfl
  | none =>
      rw [Option.getD_none, refilled_eq]
      exact TokenBucket.level_full l.burst l.rate now

/-! ### Forgetting full buckets -/

/-- To forget full buckets keeps a limiter sound. -/
theorem Sound.prune (h : l.Sound) (now : ℕ) : (l.prune now).2.Sound where
  burst_nonneg := h.burst_nonneg
  rate_nonneg := h.rate_nonneg
  nodup := h.nodup.sublist (List.filter_sublist.map _)
  alone := fun b hb => h.alone b (List.mem_filter.1 hb).1

/-- **A bucket that is forgotten is not missed** from that time on. -/
theorem Sound.available_prune (h : l.Sound) (hle : now ≤ t) (caller : String) :
    (l.prune now).2.available caller t = l.available caller t := by
  by_cases hb : ∃ b ∈ l.buckets, b.caller = caller
  · obtain ⟨b, hb, rfl⟩ := hb
    rw [h.available_of_mem hb]
    by_cases hkept : l.refilled now b < l.burst
    · have hmem : b ∈ (l.prune now).2.buckets := List.mem_filter.2 ⟨hb, less_iff.2 hkept⟩
      exact (h.prune now).available_of_mem hmem t
    · -- The bucket is full now, and still will be.
      rw [refilled_eq] at hkept
      have hfull : (l.alone b).level t = l.burst :=
        le_antisymm ((l.alone b).level_le_burst t)
          ((not_lt.1 hkept).trans ((h.alone b hb).level_mono hle))
      rw [hfull]
      refine available_of_forall_ne (l := (l.prune now).2) (fun b' hb' hcaller => ?_) t
      obtain ⟨hmem, hless⟩ := List.mem_filter.1 hb'
      obtain rfl : b' = b := List.inj_on_of_nodup_map h.nodup hmem hb hcaller
      rw [less_iff, refilled_eq] at hless
      exact hkept hless
  · have hne : ∀ b ∈ l.buckets, b.caller ≠ caller := fun b hmem heq => hb ⟨b, hmem, heq⟩
    rw [available_of_forall_ne hne,
      available_of_forall_ne (l := (l.prune now).2) fun b hmem => hne b (List.mem_filter.1 hmem).1]
    rfl

/-- To count a check keeps a limiter sound. -/
theorem Sound.count (h : l.Sound) (now : ℕ) : (l.count now).Sound := by
  have hcounted : Sound { l with checks := l.checks + 1 } :=
    ⟨h.burst_nonneg, h.rate_nonneg, h.nodup, h.alone⟩
  rw [Limiter.count]
  split
  · exact hcounted.prune now
  · exact hcounted

/-- To count a check changes nothing for anybody. -/
theorem Sound.available_count (h : l.Sound) (hle : now ≤ t) (caller : String) :
    (l.count now).available caller t = l.available caller t := by
  have hcounted : Sound { l with checks := l.checks + 1 } :=
    ⟨h.burst_nonneg, h.rate_nonneg, h.nodup, h.alone⟩
  rw [Limiter.count]
  split
  · exact hcounted.available_prune hle caller
  · rfl

/-! ### Checks -/

/-- A sound bucket may be put in. -/
theorem Sound.put (h : l.Sound) {b : Bucket ℚ} (hb : (l.alone b).Sound) : (l.put b).Sound where
  burst_nonneg := h.burst_nonneg
  rate_nonneg := h.rate_nonneg
  nodup := by
    refine List.nodup_cons.2 ⟨fun hmem => ?_, h.nodup.sublist (List.filter_sublist.map _)⟩
    obtain ⟨b', hb', hcaller⟩ := List.mem_map.1 hmem
    have hne := (List.mem_filter.1 hb').2
    simp [hcaller] at hne
  alone := by
    intro b' hb'
    rcases List.mem_cons.1 hb' with rfl | hb'
    · exact hb
    · exact h.alone b' (List.mem_filter.1 hb').1

/-- Whose bucket is put in has what it holds. -/
theorem available_put_self (l : Limiter ℚ) (b : Bucket ℚ) (t : ℕ) :
    (l.put b).available b.caller t = (l.alone b).level t := by
  have hfind : (l.put b).buckets.find? (·.caller = b.caller) = some b :=
    List.find?_cons_of_pos (by simp)
  rw [available, hfind]
  exact (l.put b).refilled_eq t b

/-- Nobody else has more or less. -/
theorem available_put_of_ne (l : Limiter ℚ) {b : Bucket ℚ} (hne : b.caller ≠ caller) (t : ℕ) :
    (l.put b).available caller t = l.available caller t := by
  have hfind : (l.put b).buckets.find? (·.caller = caller) =
      l.buckets.find? (·.caller = caller) := by
    rw [put, List.find?_cons_of_neg (by simpa using hne), List.find?_filter]
    congr 1
    funext b'
    by_cases h : b'.caller = caller
    · simp [h, hne.symm]
    · simp [h]
  rw [available, available, hfind]
  rfl

/-- A limiter and a bucket by itself have the tokens of a caller in common, from a time on. -/
structure Mirrors (l : Limiter ℚ) (caller : String) (b : TokenBucket) (now : ℕ) : Prop where
  burst_eq : b.burst = l.burst
  rate_eq : b.rate = l.rate
  available_eq : ∀ t, now ≤ t → l.available caller t = b.level t

/-- A caller that the limiter does not know has a full bucket, at any time. -/
theorem mirrors_full (h : ∀ b ∈ l.buckets, b.caller ≠ caller) (hrate : 0 ≤ l.rate) (now : ℕ) :
    l.Mirrors caller (.full l.burst l.rate now) now := by
  refine ⟨rfl, rfl, fun t _ => ?_⟩
  rw [available_of_forall_ne h, TokenBucket.level_full_of_nonneg hrate]

/-- What a check does: it looks at what the caller has, and leaves a token less or not. -/
theorem Sound.check_eq (h : l.Sound) (caller : String) (now : ℕ) :
    l.check caller now =
      if l.available caller now < 1 then
        (.error (l.waitFor (l.available caller now)),
          (l.count now).put { caller, tokens := l.available caller now, refilledAt := now })
      else (.ok (),
        (l.count now).put { caller, tokens := l.available caller now - 1, refilledAt := now }) := by
  have hwait : ∀ tokens, (l.count now).waitFor tokens = l.waitFor tokens := fun tokens => by
    rw [waitFor, waitFor, (l.count_cases now).2.1]
  simp only [check]
  rw [refilled_bucketOf, h.available_count le_rfl, hwait, ofNat_one]
  by_cases hless : l.available caller now < 1
  · rw [if_pos hless, if_pos (less_iff.2 hless)]
  · rw [if_neg hless, if_neg fun hless' => hless (less_iff.1 hless')]

/-- The wait until a token is there, or the longest one if nothing is refilled. -/
theorem waitFor_eq (l : Limiter ℚ) (tokens : ℚ) :
    l.waitFor tokens =
      if 0 < l.rate then toNanoseconds ((1 - tokens) / l.rate) else longestWait := by
  rw [waitFor, ofNat_zero, ofNat_one]
  by_cases hrate : 0 < l.rate
  · rw [if_pos hrate, if_pos (less_iff.2 hrate)]
  · rw [if_neg hrate, if_neg fun hless => hrate (less_iff.1 hless)]

/-- A bucket that is put for a caller is what the limiter and the caller have in common. -/
theorem mirrors_put (l : Limiter ℚ) (caller : String) (tokens : ℚ) (now since : ℕ) :
    (l.put { caller, tokens, refilledAt := now }).Mirrors caller ⟨l.burst, l.rate, tokens, now⟩
      since :=
  ⟨rfl, rfl, fun t _ => l.available_put_self { caller, tokens, refilledAt := now } t⟩

/-- Buckets by themselves do not see the count. -/
theorem alone_count (l : Limiter ℚ) (now : ℕ) : (l.count now).alone = l.alone := by
  obtain ⟨hburst, hrate, -⟩ := l.count_cases now
  funext b
  rw [alone, alone, hburst, hrate]

/-- **A check is answered as a bucket of the caller answers it**, and goes on as that, at any
time. -/
theorem Mirrors.check {b : TokenBucket} (hm : l.Mirrors caller b now) (h : l.Sound)
    (hle : now ≤ t) (since : ℕ) : (l.check caller t).1 = (b.take t).1 ∧
      (l.check caller t).2.Mirrors caller (b.take t).2 since := by
  have hlevel := hm.available_eq t hle
  obtain ⟨hburst, hrate, -⟩ := l.count_cases t
  have hput := fun tokens => (l.count t).mirrors_put caller tokens t since
  rw [hburst, hrate, ← hm.burst_eq, ← hm.rate_eq] at hput
  rw [h.check_eq, TokenBucket.take, hlevel]
  by_cases hless : b.level t < 1
  · rw [if_pos hless, if_neg (not_le.2 hless)]
    refine ⟨?_, hput (b.level t)⟩
    rw [waitFor_eq, TokenBucket.wait, hm.rate_eq]
  · rw [if_neg hless, if_pos (not_lt.1 hless)]
    exact ⟨rfl, hput (b.level t - 1)⟩

/-- A check of another caller takes nothing. -/
theorem Mirrors.check_of_ne {b : TokenBucket} (hm : l.Mirrors caller b now) (h : l.Sound)
    (hle : now ≤ t) (hne : other ≠ caller) : (l.check other t).2.Mirrors caller b t := by
  obtain ⟨hburst, hrate, -⟩ := l.count_cases t
  have hput : ∀ tokens,
      ((l.count t).put { caller := other, tokens, refilledAt := t }).Mirrors caller b t := by
    intro tokens
    refine ⟨hm.burst_eq.trans hburst.symm, hm.rate_eq.trans hrate.symm, fun t' ht' => ?_⟩
    rw [available_put_of_ne _ hne, h.available_count ht']
    exact hm.available_eq t' (hle.trans ht')
  rw [h.check_eq]
  split
  · exact hput _
  · exact hput _

/-- To forget full buckets cannot be seen. -/
theorem Mirrors.prune {b : TokenBucket} (hm : l.Mirrors caller b now) (h : l.Sound) (t : ℕ) :
    (l.prune t).2.Mirrors caller b (max now t) := by
  refine ⟨hm.burst_eq, hm.rate_eq, fun t' ht' => ?_⟩
  rw [h.available_prune ((le_max_right _ _).trans ht')]
  exact hm.available_eq t' ((le_max_left _ _).trans ht')

/-- A check keeps a limiter sound. -/
theorem Sound.check (h : l.Sound) (caller : String) (now : ℕ) : (l.check caller now).2.Sound := by
  obtain ⟨hnonneg, hle⟩ := h.available_bounds caller now
  have hput : ∀ tokens, 0 ≤ tokens → tokens ≤ l.burst →
      ((l.count now).put { caller, tokens, refilledAt := now }).Sound := by
    intro tokens htokens hburst
    refine (h.count now).put ?_
    rw [alone_count]
    exact ⟨h.rate_nonneg, htokens, hburst⟩
  rw [h.check_eq]
  by_cases hless : l.available caller now < 1
  · rw [if_pos hless]
    exact hput _ hnonneg hle
  · rw [if_neg hless]
    exact hput _ (by linarith) (by linarith)

/-! ### Runs -/

/-- What a limiter is asked to do at a time. -/
inductive Request where
  | check (caller : String) (now : ℕ)
  /-- To forget full buckets. -/
  | prune (now : ℕ)

namespace Request

/-- When a request is made. -/
def time : Request → ℕ
  | check _ now | prune now => now

/-- The caller of a check. -/
def caller? : Request → Option String
  | check caller _ => some caller
  | prune _ => none

/-- No check is made before anything that comes before it. -/
def InTime (rs : List Request) : Prop :=
  rs.Pairwise fun r r' => r'.caller? ≠ none → r.time ≤ r'.time

instance (rs : List Request) : Decidable (InTime rs) :=
  inferInstanceAs (Decidable (rs.Pairwise fun r r' => r'.caller? ≠ none → r.time ≤ r'.time))

/-- The times at which a caller makes a check. -/
def timesOf (caller : String) (rs : List Request) : List ℕ :=
  (rs.filter (·.caller? = some caller)).map time

end Request

/-- Does what it is asked, one thing after the other: what each caller is told, and the limiter that
is left. -/
def serve (l : Limiter ℚ) : List Request → List (String × Told) × Limiter ℚ
  | [] => ([], l)
  | .check caller now :: rest =>
    let (told, l') := serve (l.check caller now).2 rest
    ((caller, ⟨now, (l.check caller now).1⟩) :: told, l')
  | .prune now :: rest => serve (l.prune now).2 rest

/-- What a caller is told. -/
def toldTo (caller : String) (told : List (String × Told)) : List Told :=
  (told.filter (·.1 = caller)).map (·.2)

open Request

variable {rs : List Request}

/-- So does whatever it is asked. -/
theorem Sound.serve (h : l.Sound) (rs : List Request) : (l.serve rs).2.Sound := by
  induction rs generalizing l with
  | nil => exact h
  | cons r rs ih =>
      cases r with
      | check caller now => exact ih (h.check caller now)
      | prune now => exact ih (h.prune now)

/-- A check does not change how much a bucket can hold. -/
theorem burst_check (h : l.Sound) (caller : String) (now : ℕ) :
    (l.check caller now).2.burst = l.burst := by
  rw [h.check_eq]
  split <;> exact (l.count_cases now).1

/-- Neither does whatever a limiter is asked. -/
theorem burst_serve (h : l.Sound) (rs : List Request) : (l.serve rs).2.burst = l.burst := by
  induction rs generalizing l with
  | nil => rfl
  | cons r rs ih =>
      cases r with
      | check caller now => exact (ih (h.check caller now)).trans (burst_check h caller now)
      | prune now => exact ih (h.prune now)

/-- **As long as a limiter mirrors a bucket, the caller is told what the bucket tells.** -/
theorem Mirrors.toldTo_serve {b : TokenBucket} (hm : l.Mirrors caller b now) (h : l.Sound)
    (hrs : InTime rs) (hnow : ∀ r ∈ rs, r.caller? ≠ none → now ≤ r.time) :
    toldTo caller (l.serve rs).1 = b.tell (timesOf caller rs) := by
  induction rs generalizing l b now with
  | nil => rfl
  | cons r rs ih =>
      obtain ⟨hlater, hrest⟩ : (∀ r' ∈ rs, r'.caller? ≠ none → r.time ≤ r'.time) ∧ InTime rs :=
        List.pairwise_cons.1 hrs
      cases r with
      | check other t =>
          have hle : now ≤ t := hnow _ List.mem_cons_self (Option.some_ne_none other)
          have hsound := h.check other t
          -- Checks of other callers leave the bucket of this one as it is.
          by_cases hother : other = caller
          · subst hother
            obtain ⟨hanswer, hm⟩ := hm.check h hle t
            have htold := ih hm hsound hrest hlater
            have hserve : toldTo other (l.serve (.check other t :: rs)).1 =
                ⟨t, (l.check other t).1⟩ :: toldTo other ((l.check other t).2.serve rs).1 := by
              simp [Limiter.serve, toldTo]
            have htimes : timesOf other (.check other t :: rs) = t :: timesOf other rs := by
              simp [timesOf, caller?, time]
            rw [hserve, htimes, htold, hanswer, TokenBucket.tell]
          · have htold := ih (hm.check_of_ne h hle hother) hsound hrest hlater
            have hserve : toldTo caller (l.serve (.check other t :: rs)).1 =
                toldTo caller ((l.check other t).2.serve rs).1 := by
              simp [Limiter.serve, toldTo, hother]
            have htimes : timesOf caller (.check other t :: rs) = timesOf caller rs := by
              simp [timesOf, caller?, hother]
            rw [hserve, htimes, htold]
      | prune t =>
          have htold := ih (hm.prune h t) (h.prune t) hrest fun r hr hcheck =>
            max_le (hnow r (List.mem_cons_of_mem _ hr) hcheck) (hlater r hr hcheck)
          have htimes : timesOf caller (.prune t :: rs) = timesOf caller rs := by
            simp [timesOf, caller?]
          rw [htimes, ← htold]
          rfl

/-- A limiter tells a caller that it does not know what a full bucket would tell it. -/
theorem Sound.toldTo_serve (h : l.Sound) (hnew : ∀ b ∈ l.buckets, b.caller ≠ caller)
    (hrs : InTime rs) :
    toldTo caller (l.serve rs).1 = TokenBucket.tellAnew l.burst l.rate (timesOf caller rs) := by
  have hmirrors := mirrors_full hnew h.rate_nonneg 0
  have htold := hmirrors.toldTo_serve h hrs fun r _ _ => Nat.zero_le r.time
  rw [htold, TokenBucket.tell_full h.rate_nonneg]

/-- The checks of each caller are in order. -/
theorem Request.InTime.pairwise_timesOf (hrs : InTime rs) (caller : String) :
    (timesOf caller rs).Pairwise (· ≤ ·) := by
  have hfilter := List.Pairwise.filter (fun r : Request => r.caller? = some caller) hrs
  refine List.pairwise_map.2 (hfilter.imp_of_mem fun {r r'} _ hr' hle => hle fun hnone => ?_)
  have hcaller := of_decide_eq_true (List.mem_filter.1 hr').2
  exact Option.some_ne_none caller (hcaller.symm.trans hnone)

/-- A bucket can hold one token at least. -/
theorem burst_fresh (burst : ℕ) (rate : ℚ) : (fresh burst rate).burst = (max burst 1 : ℕ) := rfl

/-- The rate is not negative. -/
theorem rate_fresh (burst : ℕ) (rate : ℚ) : (fresh burst rate).rate = max rate 0 := by
  change (if Scalar.less 0 rate then rate else (0 : ℚ)) = max rate 0
  by_cases h : 0 < rate
  · rw [if_pos (less_iff.2 h), max_eq_left h.le]
  · rw [if_neg fun hless => h (less_iff.1 hless), max_eq_right (not_lt.1 h)]

/-- **Callers do not notice each other.** In any run of checks that goes forward in time, with full
buckets forgotten at any time, each caller is told what a bucket of its own tells that is full at
its first check. No bucket holds less than nothing or more than the burst, and no caller is granted
more in a span of time than a burst and what is gained in the span. -/
theorem told_apart (burst : ℕ) (rate : ℚ) (rs : List Request) (hrs : InTime rs) :
    let full : ℚ := (max burst 1 : ℕ)
    let run := (fresh burst rate).serve rs
    (∀ caller, toldTo caller run.1 =
        TokenBucket.tellAnew full (max rate 0) (timesOf caller rs)) ∧
      (∀ b ∈ run.2.buckets, 0 ≤ b.tokens ∧ b.tokens ≤ full) ∧
      (∀ caller now, 0 ≤ run.2.available caller now ∧ run.2.available caller now ≤ full) ∧
      ∀ caller t₀ t₁, (Told.grantedWithin t₀ t₁ (toldTo caller run.1) : ℚ) ≤
        full + tokensIn (max rate 0) (t₁ - t₀) := by
  intro full run
  have hsound := sound_fresh burst rate
  have hrun : run.2.Sound := hsound.serve rs
  have hburst : run.2.burst = full := burst_serve hsound rs
  have htold : ∀ caller, toldTo caller run.1 =
      TokenBucket.tellAnew full (max rate 0) (timesOf caller rs) := by
    intro caller
    rw [← rate_fresh]
    exact hsound.toldTo_serve (List.forall_mem_nil _) hrs
  refine ⟨htold, fun b hb => ?_, fun caller now => ?_, fun caller t₀ t₁ => ?_⟩
  · have hb := hrun.alone b hb
    exact ⟨hb.tokens_nonneg, hb.tokens_le.trans_eq hburst⟩
  · rw [← hburst]
    exact hrun.available_bounds caller now
  · have hrate : 0 ≤ max rate 0 := le_max_right rate 0
    have hfull : (TokenBucket.full full (max rate 0) 0).Sound :=
      TokenBucket.sound_full (Nat.cast_nonneg _) hrate 0
    rw [htold, ← TokenBucket.tell_full hrate full 0]
    exact hfull.grantedWithin_le t₀ t₁ (hrs.pairwise_timesOf caller)

/-- A caller whose bucket is forgotten while another one asks is told what it would be told alone:
it has a token again after a second, and only one. -/
theorem told_apart_forgotten :
    let rs := [.check "a" 0, .check "b" 0, .prune 1_000_000_000, .check "b" 1_000_000_000,
      .check "a" 2_000_000_000, .check "a" 2_000_000_000]
    InTime rs ∧
      toldTo "a" ((fresh 1 1).serve rs).1 = [⟨0, .ok ()⟩, ⟨2_000_000_000, .ok ()⟩,
        ⟨2_000_000_000, .error 1_000_000_000⟩] := by
  intro rs
  have hrs : InTime rs := by decide
  refine ⟨hrs, ?_⟩
  rw [((told_apart 1 1 rs hrs).1 "a")]
  decide +kernel

end Limiter

end Archivist
