/-!
# Bytes as Text

The text of a byte sequence. Bytes that are no UTF-8 are shown as U+FFFD, one for each longest
run that begins a character and breaks off, and one for each byte that begins none.
-/

namespace Archivist.Text

/-- How a first byte goes on: the number of further bytes, the least and the greatest value of the
next one, and the bits that the first byte contributes. -/
structure Lead where
  more : Nat
  low : Nat := 0x80
  high : Nat := 0xBF
  bits : Nat

/-- The lead of a character of more than one byte. -/
def lead? (b : Nat) : Option Lead :=
  if 0xC2 ≤ b ∧ b ≤ 0xDF then some { more := 1, bits := b - 0xC0 }
  else if b = 0xE0 then some { more := 2, low := 0xA0, bits := 0 }
  else if b = 0xED then some { more := 2, high := 0x9F, bits := 0xD }
  else if 0xE1 ≤ b ∧ b ≤ 0xEF then some { more := 2, bits := b - 0xE0 }
  else if b = 0xF0 then some { more := 3, low := 0x90, bits := 0 }
  else if 0xF1 ≤ b ∧ b ≤ 0xF3 then some { more := 3, bits := b - 0xF0 }
  else if b = 0xF4 then some { more := 3, high := 0x8F, bits := 4 }
  else none

/-- The replacement for bytes that are no text. -/
def replacement : Char := '\uFFFD'

/-- Decodes bytes between characters, or in the middle of one, given the lead that describes what
must follow. The characters found so far are `done`, last one first. -/
def decodeFrom (done : List Char) (pending : Option Lead) : List UInt8 → List Char
  | [] => (if pending.isSome then replacement :: done else done).reverse
  | b :: rest =>
    let n := b.toNat
    match pending with
    | some lead =>
      if lead.low ≤ n ∧ n ≤ lead.high then
        let bits := lead.bits * 64 + (n - 0x80)
        if lead.more = 1 then decodeFrom (Char.ofNat bits :: done) none rest
        else decodeFrom done (some { more := lead.more - 1, bits }) rest
      else if n < 0x80 then decodeFrom (Char.ofNat n :: replacement :: done) none rest
      else match lead? n with
        | some next => decodeFrom (replacement :: done) (some next) rest
        | none => decodeFrom (replacement :: replacement :: done) none rest
    | none =>
      if n < 0x80 then decodeFrom (Char.ofNat n :: done) none rest
      else match lead? n with
        | some next => decodeFrom done (some next) rest
        | none => decodeFrom (replacement :: done) none rest

/-- The text of a byte sequence. -/
def decodeBytes (bytes : List UInt8) : String := String.ofList (decodeFrom [] none bytes)

/-- The bytes of a text. -/
def encodeText (s : String) : List UInt8 := s.toList.flatMap String.utf8EncodeChar

end Archivist.Text
