import Archivist.Proofs.Number.Scalar
import Mathlib

/-!
# The Largest Score

A score is a word of 32 bits, and what the word stands for determines it. So there is one score at
each place above zero, and at the place of zero there are two.

Going through a list of scores, beginning with the positive zero, and keeping the larger one each
time finds the largest (`Score.IsLargest.foldl_larger`). It is the same score, down to the bits, for
every list of the same scores (`Score.IsLargest.eq_of_mem_iff`).
-/

namespace Archivist.Score

open Float.Model

variable {a b c : Score}

/-- What a score stands for determines it. -/
theorem eq_of_unpack_eq (h : a.toModel.unpack = b.toModel.unpack) : a = b := by
  have hword := (UnpackedFloat.unpack_inj_of_valid a.toModel.valid b.toModel.valid).1 h
  exact Float32.toBits_inj.1 (UInt32.toBitVec_inj.1 hword)

/-- Zero stands for zero, without a minus sign. -/
theorem unpack_zero : (0 : Score).toModel.unpack = .zero .positive := rfl

/-- Scores that compare are numbers. -/
theorem isNaN_of_lt (h : a < b) : a.isNaN = false ∧ b.isNaN = false := by
  obtain ⟨ha, hb, -⟩ := lt_iff.1 (lt_def.1 h)
  exact ⟨isNaN_eq_false_iff.2 ha, isNaN_eq_false_iff.2 hb⟩

/-- No score is less than itself. -/
theorem lt_irrefl (a : Score) : ¬ a < a := fun h => not_lt_of_le (le_of_lt h) h

/-- Less, and then at most, is less. -/
theorem lt_of_lt_of_le (hab : a < b) (hbc : b ≤ c) : a < c := by
  obtain ⟨ha, -, hab⟩ := lt_iff.1 (lt_def.1 hab)
  obtain ⟨-, hc, hbc⟩ := le_iff.1 (le_def.1 hbc)
  exact lt_def.2 (lt_iff.2 ⟨ha, hc, hab.trans_le hbc⟩)

/-- At most, and then less, is less. -/
theorem lt_of_le_of_lt (hab : a ≤ b) (hbc : b < c) : a < c := by
  obtain ⟨ha, -, hab⟩ := le_iff.1 (le_def.1 hab)
  obtain ⟨-, hc, hbc⟩ := lt_iff.1 (lt_def.1 hbc)
  exact lt_def.2 (lt_iff.2 ⟨ha, hc, hab.trans_lt hbc⟩)

/-- Above zero there is one number at each place. -/
theorem eq_of_place_eq (ha : 0 < a) (h : place a.toModel.unpack = place b.toModel.unpack) :
    a = b := by
  obtain ⟨-, -, hpos⟩ := lt_iff.1 (lt_def.1 ha)
  rw [unpack_zero, place] at hpos
  refine eq_of_unpack_eq ?_
  revert hpos h
  rcases a.toModel.unpack with (_ | _) | _ | _ | ⟨_ | _, m, e, _⟩ <;>
    rcases b.toModel.unpack with (_ | _) | _ | _ | ⟨_ | _, m', e', _⟩ <;>
    simp +decide [place]
  -- Only two numbers of the same sign can have the same place.
  · exact fun he hm _ => ⟨hm, he⟩
  · exact fun he hm _ => ⟨hm, he⟩

/-- Above zero, of two different numbers one is less than the other. -/
theorem eq_of_not_lt (ha : 0 < a) (hb : 0 < b) (hab : ¬ a < b) (hba : ¬ b < a) : a = b := by
  have hle := le_of_not_lt (isNaN_of_lt ha).2 (isNaN_of_lt hb).2 hab
  have hge := le_of_not_lt (isNaN_of_lt hb).2 (isNaN_of_lt ha).2 hba
  refine eq_of_place_eq ha (le_antisymm ?_ ?_)
  · exact (le_iff.1 (le_def.1 hge)).2.2
  · exact (le_iff.1 (le_def.1 hle)).2.2

/-! ### The largest score -/

variable {xs ys : List Score} {best x : Score}

/-- The largest of some scores, or the positive zero if none of them is above it. Scores that are no
numbers do not count. -/
structure IsLargest (best : Score) (xs : List Score) : Prop where
  attained : best = 0 ∨ 0 < best ∧ best ∈ xs
  bound : ∀ x ∈ xs, ¬ best < x

/-- Of a number and anything else the larger is kept; what is no number never counts. -/
theorem larger_eq (h : a.isNaN = false) : larger a b = if a < b then b else a := by
  rw [larger, h, if_neg Bool.false_ne_true]

namespace IsLargest

/-- The largest of some scores is a number. -/
theorem isNaN_eq_false (h : IsLargest best xs) : best.isNaN = false := by
  rcases h.attained with rfl | ⟨hpos, -⟩
  · rfl
  · exact (isNaN_of_lt hpos).2

/-- Of no scores the largest is zero. -/
theorem nil : IsLargest 0 [] := ⟨.inl rfl, nofun⟩

/-- The largest of some scores is not negative. -/
theorem not_neg (h : IsLargest best xs) : ¬ best < 0 := by
  rcases h.attained with rfl | ⟨hpos, -⟩
  · exact lt_irrefl 0
  · exact not_lt_of_le (le_of_lt hpos)

/-- One more score. -/
theorem concat (h : IsLargest best xs) (x : Score) : IsLargest (larger best x) (xs ++ [x]) := by
  rw [larger_eq h.isNaN_eq_false]
  split
  next hlt =>
    have hbelow : ∀ y, ¬ best < y → ¬ x < y := fun y hy hxy =>
      hy (lt_of_lt_of_le hlt (le_of_lt hxy))
    refine ⟨.inr ⟨?_, List.mem_append_right xs List.mem_cons_self⟩, fun y hy => ?_⟩
    · rcases h.attained with rfl | ⟨hpos, -⟩
      · exact hlt
      · exact lt_of_lt_of_le hpos (le_of_lt hlt)
    · rcases List.mem_append.1 hy with hy | hy
      · exact hbelow y (h.bound y hy)
      · rw [List.mem_singleton.1 hy]
        exact lt_irrefl x
  next hlt =>
    refine ⟨h.attained.imp_right fun ⟨hpos, hmem⟩ => ⟨hpos, List.mem_append_left [x] hmem⟩, ?_⟩
    intro y hy
    rcases List.mem_append.1 hy with hy | hy
    · exact h.bound y hy
    · rwa [List.mem_singleton.1 hy]

/-- **Going through some scores finds the largest.** -/
theorem foldl_larger (xs : List Score) : IsLargest (xs.foldl larger 0) xs := by
  induction xs using List.reverseRecOn with
  | nil => exact nil
  | append_singleton xs x ih =>
      rw [List.foldl_concat]
      exact ih.concat x

/-- Among more scores the largest is no less. -/
theorem not_lt_of_subset {best' : Score} (h : IsLargest best xs) (h' : IsLargest best' ys)
    (hsub : xs ⊆ ys) : ¬ best' < best := by
  rcases h.attained with rfl | ⟨-, hmem⟩
  · exact h'.not_neg
  · exact h'.bound best (hsub hmem)

/-- Neither the order of the scores nor their number matters to the largest. -/
theorem eq_of_mem_iff {best' : Score} (h : IsLargest best xs) (h' : IsLargest best' ys)
    (hiff : ∀ x, x ∈ xs ↔ x ∈ ys) : best = best' := by
  have hle := h.not_lt_of_subset h' fun x hx => (hiff x).1 hx
  have hge := h'.not_lt_of_subset h fun x hx => (hiff x).2 hx
  rcases h.attained with rfl | ⟨hpos, -⟩
  · rcases h'.attained with rfl | ⟨hpos, -⟩
    · rfl
    · exact absurd hpos hge
  · rcases h'.attained with rfl | ⟨hpos', -⟩
    · exact absurd hpos hle
    · exact eq_of_not_lt hpos hpos' hge hle

end IsLargest

end Archivist.Score
