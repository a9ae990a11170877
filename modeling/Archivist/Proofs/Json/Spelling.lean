import Archivist.Proofs.Json.Grammar
import Archivist.Proofs.Json.Scan
import Archivist.Proofs.Text.Utf8

/-!
# JSON under the Scanner

The scanner counts braces and follows strings; it knows nothing of arrays, numbers or commas. It
runs on the characters of a text and on the bytes of its encoding alike, because either is a
*spelling*: what belongs to ASCII is one symbol of its own and the rest has no brace, quote or
backslash in it.

The lemmas go along the grammar. Under any spelling a value is neutral: inside an object the scanner
passes it and is then where it was. So an object is found as a whole (`IsObject.span`).
-/

namespace Archivist

open Scan Json.Grammar

/-! ### Spellings -/

/-- The symbols that are neither brace nor quote nor backslash, among characters. -/
theorem brace_eq_other {p : Char → Bool} (hp : ['\x7b', '\x7d', '"', '\\'].any p = false)
    {c : Char} (h : p c = true) : Symbol.brace c = .other := by
  have hne : c ∉ ['\x7b', '\x7d', '"', '\\'] := fun hc => List.any_eq_false.1 hp c hc h
  simp only [List.mem_cons, List.not_mem_nil, or_false, not_or] at hne
  simp only [Symbol.brace]
  split <;> simp_all

/-- A way to write characters with symbols that does not confuse the scanner. -/
structure Spelling (α : Type) [Symbol α] where
  spell : Char → List α
  /-- A character of ASCII is one symbol. -/
  ascii : ∀ c : Char, c.toNat < 128 → ∃ x, spell c = [x] ∧ Symbol.brace x = Symbol.brace c
  /-- In any other character the scanner recognises nothing. -/
  other : ∀ c : Char, 128 ≤ c.toNat → ∀ x ∈ spell c, Symbol.brace x = .other

namespace Spelling

/-- Characters as they are. -/
def chars : Spelling Char where
  spell c := [c]
  ascii c _ := ⟨c, rfl, rfl⟩
  other c hc x hx := by
    rw [List.mem_singleton] at hx
    subst hx
    exact brace_eq_other (p := fun c => 128 ≤ c.toNat) (by decide) (by simpa using hc)

/-- Characters as their bytes in UTF-8. -/
def bytes : Spelling UInt8 where
  spell := String.utf8EncodeChar
  ascii c hc := by
    refine ⟨_, Text.utf8EncodeChar_of_lt hc, ?_⟩
    have hall : ∀ n < 128, Symbol.brace (UInt8.ofNat n) = Symbol.brace (Char.ofNat n) := by decide
    rw [hall c.toNat hc, Char.ofNat_toNat]
  other c hc x hx := by
    have hle := Text.le_of_mem_utf8EncodeChar hc hx
    have hne (b : UInt8) (hb : b.toNat < 128) : x ≠ b := by
      rintro rfl
      omega
    simp only [Symbol.brace, hne 0x7b (by decide), hne 0x7d (by decide), hne 0x22 (by decide),
      hne 0x5c (by decide), if_false]

variable {α : Type} [Symbol α] (sp : Spelling α)

/-- A text under a spelling. -/
def text (cs : List Char) : List α := cs.flatMap sp.spell

/-- Nothing is spelled with nothing. -/
@[simp] theorem text_nil : sp.text [] = [] := rfl

/-- A text is spelled part by part. -/
@[simp] theorem text_append (cs ds : List Char) : sp.text (cs ++ ds) = sp.text cs ++ sp.text ds :=
  List.flatMap_append

/-- Characters are spelled as themselves. -/
theorem text_chars (cs : List Char) : chars.text cs = cs := List.flatMap_singleton' cs

/-- A text is spelled in bytes as it is encoded. -/
theorem text_bytes (s : String) : bytes.text s.toList = Text.encodeText s := rfl

/-- A character of ASCII in front. -/
theorem exists_text_cons {c : Char} (hc : c.toNat < 128) (cs : List Char) :
    ∃ x, sp.text (c :: cs) = x :: sp.text cs ∧ Symbol.brace x = Symbol.brace c := by
  obtain ⟨x, hx, hb⟩ := sp.ascii c hc
  exact ⟨x, by simp [text, hx], hb⟩

/-- A text between two characters of ASCII. -/
theorem exists_text_enclosed (first last : Char) (hf : first.toNat < 128)
    (hl : last.toNat < 128) (cs : List Char) :
    ∃ x y, sp.text (first :: (cs ++ [last])) = x :: (sp.text cs ++ [y]) ∧
      Symbol.brace x = Symbol.brace first ∧ Symbol.brace y = Symbol.brace last := by
  obtain ⟨x, hx, hxb⟩ := sp.exists_text_cons hf (cs ++ [last])
  obtain ⟨y, hy, hyb⟩ := sp.exists_text_cons hl []
  exact ⟨x, y, by rw [hx, text_append, hy, text_nil], hxb, hyb⟩

/-- Where the scanner recognises nothing in the characters it recognises nothing in the symbols. -/
theorem brace_of_mem_text {cs : List Char} (h : ∀ c ∈ cs, Symbol.brace c = .other) :
    ∀ x ∈ sp.text cs, Symbol.brace x = .other := by
  intro x hx
  obtain ⟨c, hc, hx⟩ := List.mem_flatMap.1 hx
  rcases Nat.lt_or_ge c.toNat 128 with hlt | hge
  · obtain ⟨y, hy, hb⟩ := sp.ascii c hlt
    rw [hy, List.mem_singleton] at hx
    rw [hx, hb, h c hc]
  · exact sp.other c hge x hx

end Spelling

/-! ### Neutral texts -/

variable {α : Type} [Symbol α] {sp : Spelling α} {levels : ℕ}

/-- Inside an object the scanner passes the symbols. They open at most so many levels of braces;
deeper ones do not matter to a scanner that sees less than that. -/
def Neutral (levels : ℕ) (xs : List α) : Prop :=
  ∀ k n most, 0 < n → n + min levels most < 2 ^ 31 → Passes (inside k n false false) most xs

/-- Neutral parts are neutral together. -/
theorem Neutral.append {xs ys : List α} (hx : Neutral levels xs) (hy : Neutral levels ys) :
    Neutral levels (xs ++ ys) := fun k n most h0 h => (hx k n most h0 h).append (hy k n most h0 h)

/-- Symbols that mean nothing to the scanner are neutral. -/
theorem neutral_of_other {xs : List α} (h : ∀ x ∈ xs, Symbol.brace x = .other) :
    Neutral levels xs := fun _ _ _ _ _ =>
  passes_of_forall fun x hx _ => h x hx ▸ step_other false

/-- A text without brace, quote and backslash. -/
theorem neutral_text {cs : List Char} (h : ∀ c ∈ cs, Symbol.brace c = .other) :
    Neutral levels (sp.text cs) := neutral_of_other (sp.brace_of_mem_text h)

/-- White space is neutral. -/
theorem neutral_space {cs : List Char} (h : IsSpace cs) : Neutral levels (sp.text cs) :=
  neutral_text fun c hc => brace_eq_other (by decide) (h c hc)

/-! ### Scalars -/

/-- Digits mean nothing to the scanner. -/
theorem brace_digits {cs : List Char} (h : IsDigits cs) : ∀ c ∈ cs, Symbol.brace c = .other :=
  fun c hc => brace_eq_other (by decide) (h.2 c hc)

/-- Signs mean nothing to the scanner. -/
theorem brace_sign {sign : List Char} (h : sign ∈ [[], ['-'], ['+']]) :
    ∀ c ∈ sign, Symbol.brace c = .other := by
  simp only [List.mem_cons, List.not_mem_nil, or_false] at h
  rcases h with rfl | rfl | rfl <;> simp [Symbol.brace]

/-- Numbers mean nothing to the scanner. -/
theorem brace_number {cs : List Char} (h : IsNumber cs) : ∀ c ∈ cs, Symbol.brace c = .other := by
  obtain ⟨sign, whole, fraction, exponent, rfl, hsign, hwhole, hfraction, hexponent⟩ := h
  have hs : ∀ c ∈ sign, Symbol.brace c = .other :=
    brace_sign (List.mem_append_left [['+']] hsign)
  have hf : ∀ c ∈ fraction, Symbol.brace c = .other := by
    rcases hfraction with rfl | ⟨digits, rfl, hd⟩
    · exact fun c hc => absurd hc List.not_mem_nil
    · exact List.forall_mem_cons.2 ⟨rfl, brace_digits hd⟩
  have he : ∀ c ∈ exponent, Symbol.brace c = .other := by
    rcases hexponent with rfl | ⟨e, sign, digits, rfl, he, hsign, hd⟩
    · exact fun c hc => absurd hc List.not_mem_nil
    · have he' : Symbol.brace e = .other := by
        simp only [List.mem_cons, List.not_mem_nil, or_false] at he
        rcases he with rfl | rfl <;> rfl
      exact List.forall_mem_cons.2
        ⟨he', List.forall_mem_append.2 ⟨brace_sign hsign, brace_digits hd⟩⟩
  simp only [List.forall_mem_append]
  exact ⟨⟨⟨hs, brace_digits hwhole.1⟩, hf⟩, he⟩

/-- No character but a quote is a quote. -/
theorem brace_ne_quote {c : Char} (h : c ≠ '"') : Symbol.brace c ≠ .quote := by
  simp only [Symbol.brace]
  split <;> simp_all

/-- No character but a backslash is a backslash. -/
theorem brace_ne_backslash {c : Char} (h : c ≠ '\\') : Symbol.brace c ≠ .backslash := by
  simp only [Symbol.brace]
  split <;> simp_all

/-- Characters that can be escaped are of ASCII. -/
theorem lt_of_simpleEscape? {c : Char} (h : (Json.simpleEscape? c).isSome) : c.toNat < 128 := by
  simp only [Json.simpleEscape?] at h
  split at h <;> first | decide | cases h

/-- A backslash hides the character behind it. -/
theorem passes_escape {c : Char} (hc : c.toNat < 128) (k n most : ℕ) :
    Passes (inside k n true false) most (sp.text ['\\', c]) := by
  obtain ⟨x, y, hxy, hx, hy⟩ := sp.exists_text_enclosed '\\' c (by decide) hc []
  rw [List.nil_append] at hxy
  rw [hxy]
  exact Passes.enclose (fun i => hx ▸ step_backslash) (fun _ => leads_nil) fun i => step_escaped _

/-- The characters of a string do not end it. -/
theorem passes_chars {cs : List Char} (h : IsChars cs) (k n most : ℕ) :
    Passes (inside k n true false) most (sp.text cs) := by
  induction h with
  | nil => exact fun _ => leads_nil
  | @plain c cs _ hq hb _ ih =>
      have hplain : ∀ x ∈ sp.text [c], ∀ i,
          step (inside k n true false) i (Symbol.brace x) = .go (inside k n true false) := by
        intro x hx i
        rcases Nat.lt_or_ge c.toNat 128 with hlt | hge
        · obtain ⟨y, hy, hyc⟩ := sp.exists_text_cons hlt []
          rw [hy, Spelling.text_nil, List.mem_singleton] at hx
          rw [hx, hyc]
          exact step_inString (brace_ne_quote hq) (brace_ne_backslash hb)
        · rw [Spelling.text, List.flatMap_singleton] at hx
          rw [sp.other c hge x hx]
          exact step_other true
      have happend := sp.text_append [c] cs
      exact happend ▸ (passes_of_forall hplain).append ih
  | @escape c cs hc _ ih =>
      have happend := sp.text_append ['\\', c] cs
      exact happend ▸ (passes_escape (lt_of_simpleEscape? hc) k n most).append ih
  | @unicode digits cs _ hhex _ ih =>
      have hdigits : Passes (inside k n true false) most (sp.text digits) :=
        passes_of_forall fun x hx i => by
          rw [sp.brace_of_mem_text (fun c hc => brace_eq_other
            (p := fun c => (Json.hexValue? c).isSome) (by decide) (hhex c hc)) x hx]
          exact step_other true
      have hu : Passes (inside k n true false) most (sp.text ['\\', 'u']) :=
        passes_escape (by decide) k n most
      have happend : sp.text ('\\' :: 'u' :: (digits ++ cs)) =
          sp.text ['\\', 'u'] ++ sp.text digits ++ sp.text cs := by
        rw [← Spelling.text_append, ← Spelling.text_append]
        rfl
      exact happend ▸ (hu.append hdigits).append ih

/-- A string is neutral: braces in it are not counted. -/
theorem neutral_string {cs : List Char} (h : IsString cs) : Neutral levels (sp.text cs) := by
  obtain ⟨body, rfl, hb⟩ := h
  intro k n most _ _
  obtain ⟨x, y, hxy, hx, hy⟩ :=
    sp.exists_text_enclosed '"' '"' (by decide) (by decide) body
  rw [hxy]
  exact Passes.enclose (fun i => hx ▸ step_quote false) (passes_chars hb k n _) fun i =>
    hy ▸ step_quote true

/-- A value without parts is neutral. -/
theorem neutral_scalar {cs : List Char} (h : IsScalar cs) : Neutral levels (sp.text cs) := by
  rcases h with hword | hnumber | hstring
  · simp only [List.mem_cons, List.not_mem_nil, or_false] at hword
    refine neutral_text ?_
    rcases hword with rfl | rfl | rfl <;> simp [Symbol.brace]
  · exact neutral_text (brace_number hnumber)
  · exact neutral_string hstring

/-! ### Arrays and objects -/

variable {IsPart : List Char → Prop}

/-- A character in front in which the scanner recognises nothing. -/
theorem neutral_cons {c : Char} (hc : Symbol.brace c = .other) {cs : List Char}
    (h : Neutral levels (sp.text cs)) : Neutral levels (sp.text (c :: cs)) := by
  have hfirst : Neutral levels (sp.text [c]) :=
    neutral_text fun d hd => List.mem_singleton.1 hd ▸ hc
  have happend := sp.text_append [c] cs
  exact happend ▸ hfirst.append h

/-- Values in a list are neutral if each of them is. -/
theorem neutral_listed (hpart : ∀ part, IsPart part → Neutral levels (sp.text part))
    {cs : List Char} (h : IsListed IsPart cs) : Neutral levels (sp.text cs) := by
  induction h with
  | one hp => exact hpart _ hp
  | more _ hb ha hp ih =>
      have hbehind := neutral_cons (c := ',') rfl
        (sp.text_append _ _ ▸ (neutral_space ha).append (hpart _ hp))
      rw [Spelling.text_append, Spelling.text_append]
      exact ih.append ((neutral_space hb).append hbehind)

/-- What stands between the brackets. -/
theorem exists_neutral_body (hpart : ∀ part, IsPart part → Neutral levels (sp.text part))
    {first last : Char} {cs : List Char} (h : IsEnclosed first last IsPart cs) :
    ∃ body, cs = first :: (body ++ [last]) ∧ Neutral levels (sp.text body) := by
  cases h with
  | empty hs => exact ⟨_, rfl, neutral_space hs⟩
  | parts hb hp ha =>
      refine ⟨_, rfl, ?_⟩
      rw [Spelling.text_append, Spelling.text_append]
      exact ((neutral_space hb).append (neutral_listed hpart hp)).append (neutral_space ha)

/-- A member is neutral if its value is. -/
theorem neutral_member (hpart : ∀ part, IsPart part → Neutral levels (sp.text part))
    {cs : List Char} (h : IsMember IsPart cs) : Neutral levels (sp.text cs) := by
  obtain ⟨key, before, after, part, rfl, hkey, hb, ha, hp⟩ := h
  have hbehind := neutral_cons (c := ':') rfl
    (sp.text_append _ _ ▸ (neutral_space ha).append (hpart _ hp))
  rw [Spelling.text_append, Spelling.text_append]
  exact (neutral_string hkey).append ((neutral_space hb).append hbehind)

/-- An array is neutral if its values are. -/
theorem neutral_array (hpart : ∀ part, IsPart part → Neutral levels (sp.text part))
    {cs : List Char} (h : IsEnclosed '[' ']' IsPart cs) : Neutral levels (sp.text cs) := by
  obtain ⟨body, rfl, hbody⟩ := exists_neutral_body hpart h
  have hlast : Neutral levels (sp.text [']']) := neutral_cons rfl (neutral_text (by simp))
  exact neutral_cons rfl (sp.text_append _ _ ▸ hbody.append hlast)

/-- Braces open one level more. -/
theorem neutral_braces (hpart : ∀ part, IsPart part → Neutral levels (sp.text part))
    {cs : List Char} (h : IsEnclosed '\x7b' '\x7d' IsPart cs) :
    Neutral (levels + 1) (sp.text cs) := by
  obtain ⟨body, rfl, hbody⟩ := exists_neutral_body hpart h
  obtain ⟨x, y, hxy, hx, hy⟩ :=
    sp.exists_text_enclosed '\x7b' '\x7d' (by decide) (by decide) body
  rw [hxy]
  intro k n most h0 hmost
  rcases Nat.eq_zero_or_pos most with rfl | hpos
  · exact fun i => leads_zero (List.cons_ne_nil _ _)
  · exact Passes.enclose (fun i => hx ▸ step_opening h0 (by omega))
      (hbody k (n + 1) (most - 1) n.succ_pos (by omega))
      fun i => hy ▸ step_closing h0 (by omega)

/-- A value of limited depth is neutral. -/
theorem neutral_value {cs : List Char} (h : IsValue levels cs) : Neutral levels (sp.text cs) := by
  induction levels generalizing cs with
  | zero => exact neutral_scalar h
  | succ levels ih =>
      have hvalue : ∀ part, IsValue levels part → Neutral levels (sp.text part) := fun _ => ih
      rcases h with hscalar | harray | hobject
      · exact neutral_scalar hscalar
      · exact fun k n most h0 hmost => neutral_array hvalue harray k n most h0 (by omega)
      · exact neutral_braces (fun _ hm => neutral_member hvalue hm) hobject

/-- **An object is found as a whole**, by a scanner that sees less of it than `2 ^ 31` levels. -/
theorem Json.Grammar.IsObject.span (sp : Spelling α) {cs : List Char} (h : IsObject levels cs)
    (most : ℕ) (hmost : min (levels + 1) most < 2 ^ 31) : Span most (sp.text cs) := by
  have hvalue : ∀ part, IsValue levels part → Neutral levels (sp.text part) :=
    fun _ => neutral_value
  obtain ⟨body, rfl, hbody⟩ := exists_neutral_body (fun _ hm => neutral_member hvalue hm) h
  obtain ⟨x, y, hxy, hx, hy⟩ :=
    sp.exists_text_enclosed '\x7b' '\x7d' (by decide) (by decide) body
  rw [hxy]
  exact span_of_passes hx (fun k => hbody k 1 (most - 1) Nat.one_pos (by omega)) hy

end Archivist
