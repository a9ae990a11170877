import Archivist.Number.Binary

/-!
# Scalars

The arithmetic that scores and rate limits are computed with. The formulas are written once for
any kind of scalar; they run on floating-point numbers, and on rational numbers they are what the
formulas mean without rounding.
-/

namespace Archivist

/-- Numbers with the four operations, decimal literals and a comparison. -/
class Scalar (α : Type) extends Add α, Sub α, Mul α, Div α, OfScientific α where
  /-- A natural number as a scalar. -/
  ofNat : Nat → α
  /-- Whether the first is less than the second. -/
  less : α → α → Bool
  /-- The exact value, if the scalar is a finite number. -/
  rational? : α → Option Rat

instance : Scalar Rat where
  ofNat n := n
  less a b := decide (a < b)
  rational? := some

instance : Scalar Float32 where
  ofNat := Float32.ofNat
  less a b := decide (a < b)
  rational? x := (Binary.ofFloat32 x).toRat?

instance : Scalar Float where
  ofNat := Float.ofNat
  less a b := decide (a < b)
  rational? x := (Binary.ofFloat x).toRat?

namespace Scalar

variable {α : Type} [Scalar α]

/-- The smaller of two scalars; the second if the first is no number. -/
def least (a b : α) : α := if less a b then a else b

/-- A scalar cut to the range from 0 to 1. -/
def clampUnit (x : α) : α :=
  if less x (ofNat 0) then ofNat 0 else if less (ofNat 1) x then ofNat 1 else x

end Scalar

end Archivist
