import Archivist.Embedding.Similarity
import Archivist.Number.Scalar
import Archivist.Proofs.Order.Stable
import Mathlib.Algebra.Order.Ring.Rat
import Mathlib.Data.Int.Order.Basic
import Mathlib.Data.Prod.Lex

/-!
# Scalars in Order

On rational numbers the operations of a scalar are those of the numbers: what is computed with them
is what the formulas mean, and every number is sorted by (`Scalar.decides`).

Scores are single-precision numbers, and among these there is one that is no number: it is neither
less than another score nor at most another. The others stand in a line. `Score.place` says where:
first by sign and size, the infinities outermost, then by exponent and mantissa, which for numbers
below zero run backwards. Both zeros stand at one place, so the order is one of places and not of
scores.

Everything about the order is read off `Score.compare_eq`, which says that comparing two scores
compares their places. Sorting by a score is stable, as far as the scores are numbers
(`Score.decides`).
-/

/-! ### Scalars without rounding -/

namespace Archivist

namespace Scalar

/-- The test of rationals is their order. -/
theorem less_iff {a b : ℚ} : less a b = true ↔ a < b := decide_eq_true_iff

/-- The lesser of two rationals is the smaller one. -/
theorem least_eq (a b : ℚ) : least a b = min a b := by
  rw [least]
  by_cases h : a < b
  · rw [if_pos (less_iff.2 h), min_eq_left h.le]
  · rw [if_neg fun hless => h (less_iff.1 hless), min_eq_right (not_lt.1 h)]

/-- Counts are the rationals that they are. -/
theorem ofNat_eq (n : ℕ) : (ofNat n : ℚ) = n := rfl

/-- A count of none is zero. -/
theorem ofNat_zero : (ofNat 0 : ℚ) = 0 := Nat.cast_zero

/-- A count of one is one. -/
theorem ofNat_one : (ofNat 1 : ℚ) = 1 := Nat.cast_one

/-- Nothing is cut off a number between 0 and 1. -/
theorem clampUnit_eq_self {x : ℚ} (hzero : 0 ≤ x) (hone : x ≤ 1) : clampUnit x = x := by
  rw [clampUnit, ofNat_zero, ofNat_one, if_neg (mt less_iff.1 (not_lt.2 hzero)),
    if_neg (mt less_iff.1 (not_lt.2 hone))]

/-- What has a number is sorted by it, highest first. -/
theorem decides {α : Type} (score : α → ℚ) :
    Decides (fun a b => less (score b) (score a)) (fun _ => True) fun a b => score b ≤ score a where
  le_of_less h := (less_iff.1 h).le
  le_of_not_less _ _ h := not_lt.1 fun hlt => Bool.eq_false_iff.1 h (less_iff.2 hlt)
  le_trans hab hbc := hbc.trans hab
  not_less_of_le h := Bool.eq_false_iff.2 fun hless => absurd (less_iff.1 hless) (not_lt.2 h)

end Scalar

namespace Score

open Float.Model

/-! ### Places -/

/-- Where a number stands among all others. -/
def place : UnpackedFloat → ℤ ×ₗ ℤ ×ₗ ℤ
  | .infinity .negative => toLex (-2, toLex (0, 0))
  | .finite .negative m e _ => toLex (-1, toLex (-e, -m))
  | .zero _ | .notANumber => toLex (0, toLex (0, 0))
  | .finite .positive m e _ => toLex (1, toLex (e, m))
  | .infinity .positive => toLex (2, toLex (0, 0))

/-- Negation turns the order around. -/
theorem compare_neg_neg (a b : ℤ) : compare (-a) (-b) = (compare a b).swap := by
  rw [Int.compare_swap]
  simp only [Int.compare_eq_ite_lt, Int.neg_lt_neg_iff]

/-- Counts are in the order of the integers that they are. -/
theorem compare_natCast (m n : ℕ) : compare (m : ℤ) (n : ℤ) = compare m n := by
  simp only [Int.compare_eq_ite_lt, Nat.compare_eq_ite_lt, Int.ofNat_lt]

/-- **Numbers compare as their places do.** -/
theorem compare_eq {a b : UnpackedFloat} (ha : a ≠ .notANumber) (hb : b ≠ .notANumber) :
    a.compare b = some (compare (place a) (place b)) := by
  -- Only two numbers of the same sign are compared by more than their constructors.
  rcases a with (_ | _) | _ | _ | ⟨_ | _, m, e, _⟩ <;>
    rcases b with (_ | _) | _ | _ | ⟨_ | _, m', e', _⟩ <;>
    first
      | contradiction
      | rfl
      | skip
  · calc some ((compare e e').then (compare m m')).swap
        = some ((compare (-e) (-e')).then (compare (-m : ℤ) (-m'))) := by
          rw [Ordering.swap_then, compare_neg_neg, compare_neg_neg, compare_natCast]
      _ = some (compare (toLex (-1, toLex (-e, (-m : ℤ)))) (toLex (-1, toLex (-e', (-m' : ℤ))))) :=
          rfl
  · calc some ((compare e e').then (compare m m'))
        = some ((compare e e').then (compare (m : ℤ) m')) := by rw [compare_natCast]
      _ = some (compare (toLex (1, toLex (e, (m : ℤ)))) (toLex (1, toLex (e', (m' : ℤ))))) := rfl

/-- What is no number does not compare with anything. -/
theorem notANumber_compare (b : UnpackedFloat) : UnpackedFloat.notANumber.compare b = none := by
  cases b <;> rfl

/-- Nothing compares with what is no number. -/
theorem compare_notANumber (a : UnpackedFloat) : a.compare .notANumber = none := by
  cases a <;> rfl

/-- Two numbers compare by their places. -/
theorem compare_eq_some_iff {a b : UnpackedFloat} {o : Ordering} :
    a.compare b = some o ↔
      a ≠ .notANumber ∧ b ≠ .notANumber ∧ compare (place a) (place b) = o := by
  by_cases ha : a = .notANumber
  · subst ha
    rw [notANumber_compare]
    exact iff_of_false (Option.some_ne_none o).symm fun h => h.1 rfl
  by_cases hb : b = .notANumber
  · subst hb
    rw [compare_notANumber]
    exact iff_of_false (Option.some_ne_none o).symm fun h => h.2.1 rfl
  rw [compare_eq ha hb, Option.some.injEq]
  exact ⟨fun h => ⟨ha, hb, h⟩, fun h => h.2.2⟩

/-- One number is less than another if its place is. -/
theorem lt_iff {a b : UnpackedFloat} :
    a.lt b = true ↔ a ≠ .notANumber ∧ b ≠ .notANumber ∧ place a < place b := by
  rw [UnpackedFloat.lt, beq_iff_eq, compare_eq_some_iff, compare_lt_iff_lt]

/-- One number is at most another if its place is. -/
theorem le_iff {a b : UnpackedFloat} :
    a.le b = true ↔ a ≠ .notANumber ∧ b ≠ .notANumber ∧ place a ≤ place b := by
  rw [UnpackedFloat.le, Option.any_eq_true]
  constructor
  · rintro ⟨o, h, hle⟩
    obtain ⟨ha, hb, rfl⟩ := compare_eq_some_iff.1 h
    exact ⟨ha, hb, compare_le_iff_le.1 (Ordering.isLE_iff_ne_gt.1 hle)⟩
  · rintro ⟨ha, hb, hle⟩
    exact ⟨_, compare_eq ha hb, Ordering.isLE_iff_ne_gt.2 (compare_le_iff_le.2 hle)⟩

/-! ### Scores -/

variable {a b c : Score}

/-- The order of scores is that of the numbers that they stand for. -/
theorem le_def : a ≤ b ↔ a.toModel.unpack.le b.toModel.unpack = true := by
  refine Iff.trans (b := decide (a.toModel ≤ b.toModel) = true) Iff.rfl ?_
  exact decide_eq_true_iff

/-- The strict order of scores is that of the numbers that they stand for. -/
theorem lt_def : a < b ↔ a.toModel.unpack.lt b.toModel.unpack = true := by
  refine Iff.trans (b := decide (a.toModel < b.toModel) = true) Iff.rfl ?_
  exact decide_eq_true_iff

/-- A score is a number unless it stands for none. -/
theorem isNaN_eq_false_iff : a.isNaN = false ↔ a.toModel.unpack ≠ .notANumber := by
  change a.toModel.unpack.isNaN = false ↔ _
  cases a.toModel.unpack with
  | notANumber => exact iff_of_false Bool.noConfusion fun h => h rfl
  | infinity | zero | finite => exact iff_of_true rfl UnpackedFloat.noConfusion

/-- Less is at most. -/
theorem le_of_lt (h : a < b) : a ≤ b := by
  obtain ⟨ha, hb, h⟩ := lt_iff.1 (lt_def.1 h)
  exact le_def.2 (le_iff.2 ⟨ha, hb, h.le⟩)

/-- At most goes on from one score to the next. -/
theorem le_trans (hab : a ≤ b) (hbc : b ≤ c) : a ≤ c := by
  obtain ⟨ha, -, hab⟩ := le_iff.1 (le_def.1 hab)
  obtain ⟨-, hc, hbc⟩ := le_iff.1 (le_def.1 hbc)
  exact le_def.2 (le_iff.2 ⟨ha, hc, hab.trans hbc⟩)

/-- Two scores are not in both orders. -/
theorem not_lt_of_le (h : a ≤ b) : ¬ b < a := by
  obtain ⟨-, -, hab⟩ := le_iff.1 (le_def.1 h)
  intro hlt
  obtain ⟨-, -, hba⟩ := lt_iff.1 (lt_def.1 hlt)
  exact absurd hba (not_lt.2 hab)

/-- Of two scores that are numbers, one is at most the other. -/
theorem le_of_not_lt (ha : a.isNaN = false) (hb : b.isNaN = false) (h : ¬ a < b) : b ≤ a := by
  rw [isNaN_eq_false_iff] at ha hb
  refine le_def.2 (le_iff.2 ⟨hb, ha, not_lt.1 fun hlt => h ?_⟩)
  exact lt_def.2 (lt_iff.2 ⟨ha, hb, hlt⟩)

/-- **What has a score is sorted by it**, highest first, if the scores are numbers. -/
theorem decides {α : Type} (score : α → Score) :
    Decides (fun a b => decide (score b < score a)) (fun a => (score a).isNaN = false)
      (fun a b => score b ≤ score a) where
  le_of_less h := le_of_lt (of_decide_eq_true h)
  le_of_not_less ha hb h := le_of_not_lt hb ha (of_decide_eq_false h)
  le_trans hab hbc := le_trans hbc hab
  not_less_of_le h := decide_eq_false (not_lt_of_le h)

end Score

end Archivist
