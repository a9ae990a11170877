/-!
# Counts

Counts are kept in words of a fixed number of bits. What goes past the largest count starts again
at zero, which `Count.wrap` says; within the word it changes nothing (`Count.wrap_of_lt`). Where a
count is to stay at the largest one instead, `Count.cap` says so.
-/

namespace Archivist.Count

/-- The number of values that a word of `bits` bits has. -/
def size (bits : Nat) : Nat := Nat.pow 2 bits

/-- A number as a word of `bits` bits keeps it. -/
def wrap (n : Nat) (bits : Nat := 64) : Nat := n % size bits

/-- A number that fits into a word is kept. -/
theorem wrap_of_lt {n bits : Nat} (h : n < size bits) : wrap n bits = n := Nat.mod_eq_of_lt h

/-- What a word keeps fits into it. -/
theorem wrap_lt (n bits : Nat) : wrap n bits < size bits := Nat.mod_lt n (Nat.two_pow_pos bits)

/-- The largest number that a word of `bits` bits keeps. -/
def largest (bits : Nat := 64) : Nat := size bits - 1

/-- A number as a word of `bits` bits keeps it that stays at its largest number. -/
def cap (n : Nat) (bits : Nat := 64) : Nat := min n (largest bits)

/-- A capped number is at most the largest of the word. -/
theorem cap_le (n bits : Nat) : cap n bits ≤ largest bits := Nat.min_le_right n (largest bits)

/-- A number that fits is not capped. -/
theorem cap_of_le {n bits : Nat} (h : n ≤ largest bits) : cap n bits = n := Nat.min_eq_left h

/-- Any larger number becomes the largest. -/
theorem cap_of_largest_le {n bits : Nat} (h : largest bits ≤ n) : cap n bits = largest bits :=
  Nat.min_eq_right h

/-- A product is cut to the same number if one of its factors is cut before. -/
theorem cap_mul_cap (m n bits : Nat) : cap (m * cap n bits) bits = cap (m * n) bits := by
  rcases Nat.le_total n (largest bits) with h | h
  · rw [cap_of_le h]
  rw [cap_of_largest_le h]
  rcases Nat.eq_zero_or_pos m with rfl | hm
  · rw [Nat.zero_mul, Nat.zero_mul]
  · have hfactor := Nat.le_mul_of_pos_left (largest bits) hm
    rw [cap_of_largest_le hfactor,
      cap_of_largest_le (Nat.le_trans hfactor (Nat.mul_le_mul_left m h))]

end Archivist.Count
