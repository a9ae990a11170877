import Archivist.Text.Utf8

/-!
# Pairs of Bytes as Text

The text of a byte sequence in which every two bytes are a unit of 16 bits. A character outside
the basic plane is a high unit and a low unit after it. A high unit that is not followed by a low
one, a low unit by itself, and what is left over at the end are each shown as U+FFFD.
-/

namespace Archivist.Text

/-- Which byte of a pair comes first. -/
inductive ByteOrder where
  | leastFirst
  | greatestFirst

/-- The unit of two bytes. -/
def ByteOrder.unit : ByteOrder → UInt8 → UInt8 → Nat
  | leastFirst, a, b => a.toNat + 256 * b.toNat
  | greatestFirst, a, b => 256 * a.toNat + b.toNat

/-- Whether a unit begins a pair of units. -/
def isHigh (unit : Nat) : Bool := 0xD800 ≤ unit && unit < 0xDC00

/-- Whether a unit ends a pair of units. -/
def isLow (unit : Nat) : Bool := 0xDC00 ≤ unit && unit < 0xE000

/-- The character of a unit that belongs to no pair. -/
def charOfUnit (unit : Nat) : Char := if isLow unit then replacement else Char.ofNat unit

/-- Decodes pairs of bytes; a high unit may be pending. -/
def decodePairsFrom (order : ByteOrder) (pending : Option Nat) : List UInt8 → List Char
  | a :: b :: rest =>
    let unit := order.unit a b
    match pending with
    | some high =>
      if isLow unit then
        Char.ofNat (0x10000 + (high - 0xD800) * 0x400 + (unit - 0xDC00)) ::
          decodePairsFrom order none rest
      else if isHigh unit then replacement :: decodePairsFrom order (some unit) rest
      else replacement :: Char.ofNat unit :: decodePairsFrom order none rest
    | none =>
      if isHigh unit then decodePairsFrom order (some unit) rest
      else charOfUnit unit :: decodePairsFrom order none rest
  | [_] => [replacement]
  | [] => if pending.isSome then [replacement] else []

/-- The text of a sequence of byte pairs. -/
def decodePairs (order : ByteOrder) (bytes : List UInt8) : String :=
  String.ofList (decodePairsFrom order none bytes)

end Archivist.Text
