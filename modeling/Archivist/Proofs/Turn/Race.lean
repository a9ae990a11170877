import Archivist.Proofs.Turn.Bucket
import Mathlib.Data.List.Sort
import Mathlib.Logic.Relation

/-!
# Checks that Race

A check reads the clock before it takes the lock of the limiter, so that of two checks under way
at a time the later reading can get there first. Then time goes back for the limiter, and forward
again with the next reading: the time in between is credited twice.

A `Race` is a limiter with the checks of a caller that have read the clock and wait for the lock.
The checks come to the limiter in any order, and are told what a bucket by itself tells at these
times (`Race.Run.follows`).

## Main results

* `Race.run_granted_le`: a race grants no more than a burst and what is gained in the span of time
  from which the readings are, and in as much time again as the readings go back on their way to the
  limiter; nothing again if they reach it in order.
* `Race.overtaken`: readings that are overtaken can make a difference.
-/

namespace Archivist

/-- Checks of a caller that are under way at a time. -/
structure Race where
  limiter : Limiter ℚ
  clock : ℕ
  /-- The readings of the checks that wait for the lock. -/
  pending : List ℕ
  /-- What checks have been told, in the order in which they had the lock. -/
  told : List Told

namespace Race

/-- A race that has not begun. -/
def start (burst : ℕ) (rate : ℚ) (clock : ℕ) : Race :=
  { limiter := .fresh burst rate, clock, pending := [], told := [] }

/-- What can happen next. -/
inductive Step (caller : String) : Race → Race → Prop where
  /-- The clock never goes back. -/
  | wait (s : Race) {t : ℕ} (h : s.clock ≤ t) : Step caller s { s with clock := t }
  /-- Another check begins, and reads the clock. -/
  | read (s : Race) : Step caller s { s with pending := s.clock :: s.pending }
  /-- One of the checks under way has the lock, which one is left open. -/
  | enter (s : Race) {now : ℕ} (h : now ∈ s.pending) :
      Step caller s
        { s with
          limiter := (s.limiter.check caller now).2
          pending := s.pending.erase now
          told := s.told ++ [⟨now, (s.limiter.check caller now).1⟩] }

/-- What can happen, one thing after the other. -/
abbrev Run (caller : String) : Race → Race → Prop := Relation.ReflTransGen (Step caller)

variable {caller : String} {s s' : Race} {burst clock t₀ t₁ : ℕ} {rate : ℚ}

/-- The clock readings in the order in which they had the lock. -/
def times (s : Race) : List ℕ := s.told.map Told.time

/-- A race in which a bucket by itself would have told the same. -/
structure Follows (s : Race) (caller : String) (b : TokenBucket) : Prop where
  sound : s.limiter.Sound
  told_eq : s.told = b.tell s.times
  mirrors : s.limiter.Mirrors caller (b.after s.times) 0

variable {b : TokenBucket}

/-- At the start a caller has a full bucket and has been told nothing. -/
theorem follows_start (burst : ℕ) (rate : ℚ) (clock : ℕ) (caller : String) :
    (start burst rate clock).Follows caller (.full (max burst 1 : ℕ) (max rate 0) 0) := by
  have hsound := Limiter.sound_fresh burst rate
  refine ⟨hsound, rfl, ?_⟩
  rw [← Limiter.rate_fresh, ← Limiter.burst_fresh]
  exact Limiter.mirrors_full (List.forall_mem_nil _) hsound.rate_nonneg 0

/-- Whichever check has the lock, it is told what the bucket tells it. -/
theorem Step.follows (hs : Step caller s s') (h : s.Follows caller b) : s'.Follows caller b := by
  cases hs with
  | wait _ | read => exact ⟨h.sound, h.told_eq, h.mirrors⟩
  | @enter now _ =>
      obtain ⟨hanswer, hmirrors⟩ := h.mirrors.check h.sound now.zero_le 0
      have htimes (answer : Except ℕ Unit) :
          (s.told ++ [Told.mk now answer]).map Told.time = s.times ++ [now] := List.map_append
      refine ⟨h.sound.check caller now, ?_, ?_⟩
      · rw [times, htimes, TokenBucket.tell_concat, ← h.told_eq, hanswer]
      · rw [times, htimes, TokenBucket.after_concat]
        exact hmirrors

/-- **Checks that race are told what a bucket tells** at the times that they have read, in the order
in which they have the lock. -/
theorem Run.follows (hr : Run caller (start burst rate clock) s) :
    s.Follows caller (.full (max burst 1 : ℕ) (max rate 0) 0) := by
  induction hr with
  | refl => exact follows_start burst rate clock caller
  | tail _ hs ih => exact hs.follows ih

/-- Of a full bucket no more is granted than it holds and gains, and what going back in time sets
back. -/
theorem Follows.granted_le {full : ℚ} (h : s.Follows caller (.full full rate 0)) (hfull : 0 ≤ full)
    (hrate : 0 ≤ rate) (hin : ∀ x ∈ s.told, t₀ ≤ x.time ∧ x.time ≤ t₁) :
    (Told.granted s.told : ℚ) ≤
      full + tokensIn rate ((t₁ - t₀) + TokenBucket.setback t₀ s.times) := by
  have hsound := TokenBucket.sound_full hfull hrate 0
  have hgranted := hsound.granted_le t₀ s.times
  rw [TokenBucket.level_full_of_nonneg hrate, ← h.told_eq] at hgranted
  have hadvance : TokenBucket.advance t₀ s.times ≤ (t₁ - t₀) + TokenBucket.setback t₀ s.times :=
    TokenBucket.advance_le (List.forall_mem_map.2 hin)
  exact hgranted.trans (add_le_add_right (tokensIn_mono hrate hadvance) _)

/-- **A race grants no more than a burst and what is gained in the span of time from which the
readings are**, and in as much time again as they go back on their way to the limiter; nothing
again if they have the lock in order. -/
theorem run_granted_le (hr : Run caller (start burst rate clock) s)
    (hin : ∀ x ∈ s.told, t₀ ≤ x.time ∧ x.time ≤ t₁) :
    (Told.granted s.told : ℚ) ≤ (max burst 1 : ℕ) +
        tokensIn (max rate 0) ((t₁ - t₀) + TokenBucket.setback t₀ s.times) ∧
      (s.times.Pairwise (· ≤ ·) →
        (Told.granted s.told : ℚ) ≤ (max burst 1 : ℕ) + tokensIn (max rate 0) (t₁ - t₀)) := by
  have hle := hr.follows.granted_le (Nat.cast_nonneg _) (le_max_right rate 0) hin
  refine ⟨hle, fun hsorted => ?_⟩
  have hfirst : (t₀ :: s.times).Pairwise (· ≤ ·) :=
    List.pairwise_cons.2 ⟨List.forall_mem_map.2 fun x hx => (hin x hx).1, hsorted⟩
  rw [TokenBucket.setback_eq_zero hfirst, Nat.add_zero] at hle
  exact hle

/-! ### Every order is possible -/

/-- Checks can begin at any times that are in order. -/
theorem run_read (caller : String) (s : Race) {L : List ℕ} (hL : (s.clock :: L).Pairwise (· ≤ ·)) :
    ∃ s', Run caller s s' ∧ s'.limiter = s.limiter ∧ s'.told = s.told ∧
      s'.pending.Perm (L ++ s.pending) := by
  induction L generalizing s with
  | nil => exact ⟨s, .refl, rfl, rfl, .refl _⟩
  | cons t L ih =>
      obtain ⟨hfirst, hrest⟩ := List.pairwise_cons.1 hL
      obtain ⟨s', hr, hlimiter, htold, hpending⟩ :=
        ih { s with clock := t, pending := t :: s.pending } hrest
      have hwait : Step caller s { s with clock := t } := .wait s (hfirst t List.mem_cons_self)
      refine ⟨s', .head hwait (.head (.read _) hr), hlimiter, htold, hpending.trans ?_⟩
      exact List.perm_middle

/-- Checks that are under way can have the lock in any order. -/
theorem run_enter (caller : String) (s : Race) {L : List ℕ} (hL : s.pending.Perm L) :
    ∃ s', Run caller s s' ∧ s'.times = s.times ++ L := by
  induction L generalizing s with
  | nil => exact ⟨s, .refl, (List.append_nil _).symm⟩
  | cons now L ih =>
      have hmem : now ∈ s.pending := hL.mem_iff.2 List.mem_cons_self
      have hrest : (s.pending.erase now).Perm L := by
        simpa using hL.erase now
      obtain ⟨s', hr, htimes⟩ := ih { s with
        limiter := (s.limiter.check caller now).2
        pending := s.pending.erase now
        told := s.told ++ [⟨now, (s.limiter.check caller now).1⟩] } hrest
      refine ⟨s', .head (.enter s hmem) hr, htimes.trans ?_⟩
      simp [times]

/-- **Clock readings can reach the limiter in any order.** -/
theorem exists_run (burst : ℕ) (rate : ℚ) (clock : ℕ) (caller : String) (L : List ℕ)
    (hL : ∀ t ∈ L, clock ≤ t) : ∃ s, Run caller (start burst rate clock) s ∧ s.times = L := by
  have hsorted : (clock :: L.insertionSort (· ≤ ·)).Pairwise (· ≤ ·) :=
    List.pairwise_cons.2 ⟨fun t ht => hL t ((List.mem_insertionSort (· ≤ ·)).1 ht),
      List.pairwise_insertionSort (· ≤ ·) L⟩
  obtain ⟨s, hread, -, htold, hpending⟩ := run_read caller (start burst rate clock) hsorted
  have hperm : s.pending.Perm L := by
    rw [start, List.append_nil] at hpending
    exact hpending.trans (List.perm_insertionSort (· ≤ ·) L)
  obtain ⟨s', henter, htimes⟩ := run_enter caller s hperm
  refine ⟨s', hread.trans henter, ?_⟩
  rw [htimes, times, htold]
  rfl

/-- Two checks read the clock a second before three others do, and each has the lock after one of
these. -/
def overtaking : List ℕ := [1_000_000_000, 0, 1_000_000_000, 0, 1_000_000_000]

/-- A second that lies between two readings is credited each time the later one comes after the
earlier one: with a burst of one and one more a second, a second grants three permits. -/
theorem overtaken : ∃ s, Run "a" (start 1 1 0) s ∧
    s.times = overtaking ∧
    (∀ x ∈ s.told, 0 ≤ x.time ∧ x.time ≤ 1_000_000_000) ∧
    ((max 1 1 : ℕ) + tokensIn (max 1 0) (1_000_000_000 - 0) : ℚ) < Told.granted s.told := by
  obtain ⟨s, hr, htimes⟩ := exists_run 1 1 0 "a" overtaking fun t _ => t.zero_le
  refine ⟨s, hr, htimes, ?_, ?_⟩
  · rw [hr.follows.told_eq, htimes]
    decide +kernel
  · rw [hr.follows.told_eq, htimes]
    decide +kernel

/-- The three permits are a burst and what is gained in the second and two seconds more. -/
theorem run_granted_le_overtaken : ∃ s, Run "a" (start 1 1 0) s ∧
    (∀ x ∈ s.told, 0 ≤ x.time ∧ x.time ≤ 1_000_000_000) ∧ Told.granted s.told = 3 ∧
    (Told.granted s.told : ℚ) ≤
      (max 1 1 : ℕ) + tokensIn (max 1 0) (1_000_000_000 + 2_000_000_000) := by
  obtain ⟨s, hr, htimes⟩ := exists_run 1 1 0 "a" overtaking fun t _ => t.zero_le
  have hin : ∀ x ∈ s.told, 0 ≤ x.time ∧ x.time ≤ 1_000_000_000 := by
    rw [hr.follows.told_eq, htimes]
    decide +kernel
  refine ⟨s, hr, hin, ?_, ?_⟩
  · rw [hr.follows.told_eq, htimes]
    decide +kernel
  · have hle := (run_granted_le hr hin).1
    rw [htimes] at hle
    exact hle

end Race

end Archivist
