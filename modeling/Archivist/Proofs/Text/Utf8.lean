import Archivist.Text.Utf8
import Mathlib.Data.UInt

/-!
# Text as Bytes and Back

A character of ASCII is one byte, its code, and the bytes of any other character are none of ASCII.
Decoding the bytes of a text gives the text: a decoder between two characters takes exactly the
bytes of the next one (`decodeFrom_encode`).
-/

namespace Archivist.Text

/-- A character of ASCII is one byte. -/
theorem utf8EncodeChar_of_lt {c : Char} (h : c.toNat < 128) :
    String.utf8EncodeChar c = [UInt8.ofNat c.toNat] := by
  have hv : c.val.toNat ≤ 127 := Nat.le_of_lt_succ h
  simp only [String.utf8EncodeChar, if_pos hv]
  rfl

/-- The bytes of any other character are none of ASCII. -/
theorem le_of_mem_utf8EncodeChar {c : Char} (h : 128 ≤ c.toNat) {b : UInt8}
    (hb : b ∈ String.utf8EncodeChar c) : 128 ≤ b.toNat := by
  have hv : ¬ c.val.toNat ≤ 127 := Nat.not_le.2 h
  simp only [String.utf8EncodeChar, if_neg hv] at hb
  split at hb
  · simp only [List.mem_cons, List.not_mem_nil, or_false] at hb
    rcases hb with rfl | rfl <;> simp <;> omega
  · split at hb
    · simp only [List.mem_cons, List.not_mem_nil, or_false] at hb
      rcases hb with rfl | rfl | rfl <;> simp <;> omega
    · simp only [List.mem_cons, List.not_mem_nil, or_false] at hb
      rcases hb with rfl | rfl | rfl | rfl <;> simp <;> omega

/-! ### Steps of a decoder -/

variable {done : List Char} {lead : Lead} {b : UInt8} {rest : List UInt8}

/-- A byte of ASCII is a character. -/
theorem decodeFrom_ascii (h : b.toNat < 0x80) :
    decodeFrom done none (b :: rest) = decodeFrom (Char.ofNat b.toNat :: done) none rest := by
  simp only [decodeFrom, if_pos h]

/-- A leading byte is waited upon. -/
theorem decodeFrom_lead (h : 0x80 ≤ b.toNat) (hl : lead? b.toNat = some lead) :
    decodeFrom done none (b :: rest) = decodeFrom done (some lead) rest := by
  simp only [decodeFrom, if_neg (Nat.not_lt.2 h), hl]

/-- A byte that continues a character brings six bits. -/
theorem decodeFrom_more (hb : lead.low ≤ b.toNat ∧ b.toNat ≤ lead.high) (hm : lead.more ≠ 1) :
    decodeFrom done (some lead) (b :: rest) =
      decodeFrom done (some { more := lead.more - 1, bits := lead.bits * 64 + (b.toNat - 0x80) })
        rest := by
  simp only [decodeFrom, if_pos hb, if_neg hm]

/-- The last byte of a character completes it. -/
theorem decodeFrom_last (hb : lead.low ≤ b.toNat ∧ b.toNat ≤ lead.high) (hm : lead.more = 1) :
    decodeFrom done (some lead) (b :: rest) =
      decodeFrom (Char.ofNat (lead.bits * 64 + (b.toNat - 0x80)) :: done) none rest := by
  simp only [decodeFrom, if_pos hb, if_pos hm]

/-! ### What a lead says of the character -/

variable {v : ℕ}

/-- The leading byte of two. -/
theorem lead?_two (h : 0x80 ≤ v) (h' : v ≤ 0x7FF) :
    lead? (v / 64 % 32 + 0xC0) = some { more := 1, bits := v / 64 } := by
  have hbits : v / 64 % 32 + 0xC0 - 0xC0 = v / 64 := by omega
  rw [lead?, if_pos (by omega), hbits]

/-- The leading byte of three; what may follow it depends on it. -/
theorem lead?_three (h : 0x800 ≤ v) (h' : v ≤ 0xFFFF) (hs : ¬(0xD800 ≤ v ∧ v ≤ 0xDFFF)) :
    ∃ lead, lead? (v / 4096 % 16 + 0xE0) = some lead ∧ lead.more = 2 ∧ lead.bits = v / 4096 ∧
      lead.low ≤ v / 64 % 64 + 0x80 ∧ v / 64 % 64 + 0x80 ≤ lead.high := by
  rw [lead?, if_neg (by omega)]
  by_cases h0 : v / 4096 = 0
  · rw [if_pos (by omega)]
    exact ⟨_, rfl, rfl, h0.symm, by simp only; omega, by simp only; omega⟩
  · rw [if_neg (by omega)]
    by_cases h13 : v / 4096 = 13
    · rw [if_pos (by omega)]
      exact ⟨_, rfl, rfl, h13.symm, by simp only; omega, by simp only; omega⟩
    · rw [if_neg (by omega), if_pos (by omega)]
      exact ⟨_, rfl, rfl, by simp only; omega, by simp only; omega, by simp only; omega⟩

/-- The leading byte of four; what may follow it depends on it. -/
theorem lead?_four (h : 0x10000 ≤ v) (h' : v ≤ 0x10FFFF) :
    ∃ lead, lead? (v / 262144 % 8 + 0xF0) = some lead ∧ lead.more = 3 ∧ lead.bits = v / 262144 ∧
      lead.low ≤ v / 4096 % 64 + 0x80 ∧ v / 4096 % 64 + 0x80 ≤ lead.high := by
  rw [lead?, if_neg (by omega), if_neg (by omega), if_neg (by omega), if_neg (by omega)]
  by_cases h0 : v / 262144 = 0
  · rw [if_pos (by omega)]
    exact ⟨_, rfl, rfl, h0.symm, by simp only; omega, by simp only; omega⟩
  · rw [if_neg (by omega)]
    by_cases h4 : v / 262144 = 4
    · rw [if_neg (by omega), if_pos (by omega)]
      exact ⟨_, rfl, rfl, h4.symm, by simp only; omega, by simp only; omega⟩
    · rw [if_pos (by omega)]
      exact ⟨_, rfl, rfl, by simp only; omega, by simp only; omega, by simp only; omega⟩

/-! ### Whole characters and texts -/

/-- A number of eight bits is a byte. -/
theorem toNat_ofNat_of_lt {n : ℕ} (h : n < 256) : (UInt8.ofNat n).toNat = n := by
  rw [UInt8.toNat_ofNat']
  exact Nat.mod_eq_of_lt h

/-- Two bytes are read as their character. -/
theorem decodeFrom_two (h : 0x7F < v) (h' : v ≤ 0x7FF) :
    decodeFrom done none (UInt8.ofNat (v / 64 % 32 + 0xC0) :: UInt8.ofNat (v % 64 + 0x80) :: rest) =
      decodeFrom (Char.ofNat v :: done) none rest := by
  have hb₁ := toNat_ofNat_of_lt (n := v / 64 % 32 + 0xC0) (by omega)
  have hb₂ := toNat_ofNat_of_lt (n := v % 64 + 0x80) (by omega)
  have hl := hb₁ ▸ lead?_two (v := v) (by omega) h'
  have hbits : v / 64 * 64 + (v % 64 + 0x80 - 0x80) = v := by omega
  rw [decodeFrom_lead (by omega) hl, decodeFrom_last (by simp only; omega) rfl, hb₂, hbits]

/-- Three bytes are read as their character. -/
theorem decodeFrom_three (h : 0x7FF < v) (h' : v ≤ 0xFFFF) (hvalid : v < 0xD800 ∨ 0xDFFF < v) :
    decodeFrom done none (UInt8.ofNat (v / 4096 % 16 + 0xE0) ::
        UInt8.ofNat (v / 64 % 64 + 0x80) :: UInt8.ofNat (v % 64 + 0x80) :: rest) =
      decodeFrom (Char.ofNat v :: done) none rest := by
  have hb₁ := toNat_ofNat_of_lt (n := v / 4096 % 16 + 0xE0) (by omega)
  have hb₂ := toNat_ofNat_of_lt (n := v / 64 % 64 + 0x80) (by omega)
  have hb₃ := toNat_ofNat_of_lt (n := v % 64 + 0x80) (by omega)
  obtain ⟨lead, hl, hmore, hbits, hlow, hhigh⟩ := lead?_three (v := v) (by omega) h' (by omega)
  have hv :
      (v / 4096 * 64 + (v / 64 % 64 + 0x80 - 0x80)) * 64 + (v % 64 + 0x80 - 0x80) = v := by
    omega
  rw [decodeFrom_lead (by omega) (hb₁ ▸ hl), decodeFrom_more (by omega) (by omega),
    decodeFrom_last (by simp only; omega) (by simp only; omega), hbits, hb₂, hb₃, hv]

/-- Four bytes are read as their character. -/
theorem decodeFrom_four (h : 0xFFFF < v) (h' : v ≤ 0x10FFFF) :
    decodeFrom done none (UInt8.ofNat (v / 262144 % 8 + 0xF0) ::
        UInt8.ofNat (v / 4096 % 64 + 0x80) :: UInt8.ofNat (v / 64 % 64 + 0x80) ::
          UInt8.ofNat (v % 64 + 0x80) :: rest) =
      decodeFrom (Char.ofNat v :: done) none rest := by
  have hb₁ := toNat_ofNat_of_lt (n := v / 262144 % 8 + 0xF0) (by omega)
  have hb₂ := toNat_ofNat_of_lt (n := v / 4096 % 64 + 0x80) (by omega)
  have hb₃ := toNat_ofNat_of_lt (n := v / 64 % 64 + 0x80) (by omega)
  have hb₄ := toNat_ofNat_of_lt (n := v % 64 + 0x80) (by omega)
  obtain ⟨lead, hl, hmore, hbits, hlow, hhigh⟩ := lead?_four (v := v) (by omega) h'
  have hv : ((v / 262144 * 64 + (v / 4096 % 64 + 0x80 - 0x80)) * 64 +
      (v / 64 % 64 + 0x80 - 0x80)) * 64 + (v % 64 + 0x80 - 0x80) = v := by
    omega
  rw [decodeFrom_lead (by omega) (hb₁ ▸ hl), decodeFrom_more (by omega) (by omega),
    decodeFrom_more (by simp only; omega) (by simp only; omega),
    decodeFrom_last (by simp only; omega) (by simp only; omega), hbits, hb₂, hb₃, hb₄, hv]

/-- A decoder between two characters takes the bytes of the next one. -/
theorem decodeFrom_encode (done : List Char) (c : Char) (rest : List UInt8) :
    decodeFrom done none (String.utf8EncodeChar c ++ rest) = decodeFrom (c :: done) none rest := by
  obtain ⟨v, hv⟩ : ∃ v, c.toNat = v := ⟨_, rfl⟩
  have hc : c = Char.ofNat v := by rw [← hv, Char.ofNat_toNat]
  have hvalid : v < 0xD800 ∨ 0xDFFF < v ∧ v < 0x110000 := hv ▸ c.valid
  have hval : c.val.toNat = v := hv
  -- One case for each number of bytes.
  simp only [String.utf8EncodeChar, hval]
  rw [hc]
  split
  · rename_i h₁
    have hb := toNat_ofNat_of_lt (n := v) (by omega)
    rw [List.singleton_append, decodeFrom_ascii (by omega), hb]
  · rename_i h₁
    split
    · rename_i h₂
      exact decodeFrom_two (by omega) h₂
    · rename_i h₂
      split
      · rename_i h₃
        exact decodeFrom_three (by omega) h₃ (by omega)
      · rename_i h₃
        exact decodeFrom_four (by omega) (by omega)

/-- **The bytes of a text are decoded to the text.** -/
theorem decodeBytes_encodeText (s : String) : decodeBytes (encodeText s) = s := by
  have hall (done cs : List Char) :
      decodeFrom done none (cs.flatMap String.utf8EncodeChar) = done.reverse ++ cs := by
    induction cs generalizing done with
    | nil => simp [decodeFrom]
    | cons c cs ih => rw [List.flatMap_cons, decodeFrom_encode, ih]; simp
  rw [decodeBytes, encodeText, hall]
  simp

/-! ### Sizes -/

/-- A text is encoded in as many bytes as the library counts. -/
theorem length_encodeText (s : String) : (encodeText s).length = s.utf8ByteSize := by
  rw [← String.size_toByteArray, ← String.utf8Encode_toList, List.utf8Encode,
    List.size_toByteArray]
  rfl

/-- A text has no more characters than bytes. -/
theorem length_toList_le (s : String) : s.toList.length ≤ s.utf8ByteSize := by
  rw [← length_encodeText, encodeText]
  induction s.toList with
  | nil => exact le_rfl
  | cons c cs ih =>
      have hc := c.utf8Size_pos
      rw [List.flatMap_cons, List.length_append, String.length_utf8EncodeChar, List.length_cons]
      omega

end Archivist.Text
