import Archivist.Turn.Limiter
import Mathlib.Data.Nat.Notation

/-!
# What Callers Know of Each Other's Limits

A caller is told of the rate limit only what its own bucket says. What one caller takes makes no
bucket of another (`Limiter.spares_acquire`), and one without a bucket is told the same by all
limiters, whatever other callers have taken and whenever buckets have been forgotten
(`Limiter.IsNewTo.acquire_eq`).
-/

namespace Archivist.Limiter

variable {α : Type} {l l' l'' : Limiter α} {caller other : String} {burst rate : α}

/-- A limiter has no bucket of a caller. -/
structure IsNewTo (l : Limiter α) (caller : String) (burst rate : α) : Prop where
  burst_eq : l.burst = burst
  rate_eq : l.rate = rate
  caller_ne : ∀ b ∈ l.buckets, b.caller ≠ caller

/-- The bucket of one caller may be another one, and buckets may have gone. -/
structure Spares (l : Limiter α) (caller : String) (l' : Limiter α) : Prop where
  burst_eq : l'.burst = l.burst
  rate_eq : l'.rate = l.rate
  bucket : ∀ b ∈ l'.buckets, b.caller = caller ∨ b ∈ l.buckets

theorem Spares.refl (l : Limiter α) (caller : String) : l.Spares caller l :=
  ⟨rfl, rfl, fun _ => .inr⟩

theorem Spares.trans (h : l.Spares caller l') (h' : l'.Spares caller l'') :
    l.Spares caller l'' where
  burst_eq := h'.burst_eq.trans h.burst_eq
  rate_eq := h'.rate_eq.trans h.rate_eq
  bucket := fun b hb => (h'.bucket b hb).elim .inl (h.bucket b)

/-- A limiter stays new to a caller whose bucket nobody makes. -/
theorem IsNewTo.of_spares (h : l.IsNewTo caller burst rate) (hs : l.Spares other l')
    (hne : other ≠ caller) : l'.IsNewTo caller burst rate where
  burst_eq := hs.burst_eq.trans h.burst_eq
  rate_eq := hs.rate_eq.trans h.rate_eq
  caller_ne := fun b hb => (hs.bucket b hb).elim (fun hb => hb ▸ hne) (h.caller_ne b)

/-- To put in a bucket spares all other callers. -/
theorem spares_put (l : Limiter α) (b : Bucket α) : l.Spares b.caller (l.put b) := by
  refine ⟨rfl, rfl, fun b' hb' => ?_⟩
  rcases List.mem_cons.1 hb' with rfl | hb'
  · exact .inl rfl
  · exact .inr (List.mem_filter.1 hb').1

section Checks

variable [Scalar α] {now : ℕ}

/-- Counting a check makes no bucket. -/
theorem count_cases (l : Limiter α) (now : ℕ) :
    (l.count now).burst = l.burst ∧ (l.count now).rate = l.rate ∧
      ∀ b ∈ (l.count now).buckets, b ∈ l.buckets := by
  simp only [count]
  split
  · exact ⟨rfl, rfl, fun b hb => (List.mem_filter.1 hb).1⟩
  · exact ⟨rfl, rfl, fun _ => id⟩

/-- To count a check spares everybody. -/
theorem spares_count (l : Limiter α) (caller : String) (now : ℕ) :
    l.Spares caller (l.count now) := by
  obtain ⟨hburst, hrate, hbuckets⟩ := l.count_cases now
  exact ⟨hburst, hrate, fun b hb => .inr (hbuckets b hb)⟩

/-- **Taking a token changes the bucket of one caller**, whether or not there is one to take. -/
theorem spares_acquire (l : Limiter α) (caller : String) (now : ℕ) :
    l.Spares caller (l.acquire caller now).2 := by
  have hcount := l.spares_count caller now
  simp only [acquire, check]
  split
  · exact hcount.trans (spares_put _ { caller, tokens := _, refilledAt := now })
  · exact hcount.trans (spares_put _ { caller, tokens := _, refilledAt := now })

/-- A caller remains new when a check is counted. -/
theorem IsNewTo.count (h : l.IsNewTo caller burst rate) (now : ℕ) :
    (l.count now).IsNewTo caller burst rate := by
  obtain ⟨hburst, hrate, hbuckets⟩ := l.count_cases now
  exact ⟨hburst.trans h.burst_eq, hrate.trans h.rate_eq, fun b hb => h.caller_ne b (hbuckets b hb)⟩

/-- The bucket of a new caller has just been filled. -/
theorem IsNewTo.refilled_bucketOf (h : l.IsNewTo caller burst rate) (now : ℕ) :
    l.refilled now (l.bucketOf caller now) = Scalar.least (burst + seconds 0 * rate) burst := by
  have hnone : l.buckets.find? (·.caller = caller) = none :=
    List.find?_eq_none.2 fun b hb => by simpa using h.caller_ne b hb
  rw [refilled, bucketOf, hnone, Option.getD_none, Nat.sub_self, h.burst_eq, h.rate_eq]

/-- Limiters to which a caller is new let the caller wait equally long. -/
theorem IsNewTo.waitFor_eq (h : l.IsNewTo caller burst rate) (h' : l'.IsNewTo caller burst rate)
    (tokens : α) : l.waitFor tokens = l'.waitFor tokens := by
  rw [waitFor, waitFor, h.rate_eq, h'.rate_eq]

/-- **All limiters that are new to a caller tell it the same**, whatever others have taken from
them, and at any time. -/
theorem IsNewTo.acquire_eq (h : l.IsNewTo caller burst rate) (h' : l'.IsNewTo caller burst rate)
    (now now' : ℕ) : (l.acquire caller now).1 = (l'.acquire caller now').1 := by
  have hcheck : (l.check caller now).1 = (l'.check caller now').1 := by
    simp only [check]
    rw [(h.count now).refilled_bucketOf, (h'.count now').refilled_bucketOf,
      (h.count now).waitFor_eq (h'.count now')]
    split <;> rfl
  simp only [acquire, hcheck]

end Checks

end Archivist.Limiter
