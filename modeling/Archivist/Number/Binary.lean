import Archivist.Number.Count

/-!
# Binary Floating-Point Numbers

What the bits of a floating-point number stand for. `Binary.read` splits them into sign,
exponent and fraction; a finite number is `mantissa · 2 ^ exponent`, possibly negative, and
`Binary.toRat?` is that value as an exact rational.
-/

namespace Archivist

/-- A floating-point number as its bits describe it. -/
inductive Binary where
  | nan
  | infinite (negative : Bool)
  /-- The number `mantissa · 2 ^ exponent`. `closeBelow` says that the next smaller number of
  the format is half as far away as the next larger one. -/
  | finite (negative : Bool) (mantissa : Nat) (exponent : Int) (closeBelow : Bool)

namespace Binary

/-- Reads a number with `fractionBits` stored fraction bits and `exponentBits` exponent bits. -/
def read (fractionBits exponentBits bits : Nat) : Binary :=
  let fraction := bits % Count.size fractionBits
  let stored := bits / Count.size fractionBits % Count.size exponentBits
  let negative := decide (bits / Count.size (fractionBits + exponentBits) % 2 = 1)
  let bias : Int := Count.size (exponentBits - 1) - 1 + fractionBits
  if stored = Count.size exponentBits - 1 then
    if fraction = 0 then .infinite negative else .nan
  else if stored = 0 then .finite negative fraction (1 - bias) false
  else .finite negative (Count.size fractionBits + fraction) (stored - bias)
    (decide (fraction = 0 ∧ 1 < stored))

/-- The reading of a single-precision number. -/
def ofFloat32 (x : Float32) : Binary := read 23 8 x.toBits.toNat

/-- The reading of a double-precision number. -/
def ofFloat (x : Float) : Binary := read 52 11 x.toBits.toNat

/-- The exact value of a finite number. -/
def toRat? : Binary → Option Rat
  | .finite negative mantissa exponent _ =>
    let size : Rat := mantissa * (2 : Rat) ^ exponent
    some (if negative then -size else size)
  | _ => none

end Binary

end Archivist
