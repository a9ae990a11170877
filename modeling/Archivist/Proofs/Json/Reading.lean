import Archivist.Proofs.Json.Grammar
import Mathlib.Data.List.TakeWhile

/-!
# What a Reader Accepts

Each reader takes a text of the grammar off the front and leaves the rest. So a text that is read is
derived by the grammar, and its arrays and objects nest no deeper than the reader goes.

The parts of an array and those of an object are read by one function, and what it has read so far
is a list of parts that grows at its end (`isListed_of_readListed`).

## Main results

* `isValue_of_readValue`: a reader of values takes a value.
* `isObject_of_readChars?`: a text that is read and begins with a brace is an object.
-/

namespace Archivist.Json

open Grammar

/-! ### Space and numbers -/

/-- White space is skipped, and nothing else. -/
theorem exists_skipSpace (cs : List Char) : ∃ space, cs = space ++ skipSpace cs ∧ IsSpace space :=
  ⟨cs.takeWhile isSpace, (List.takeWhile_append_dropWhile).symm,
    fun _ h => List.mem_takeWhile_imp h⟩

/-- What is skipped in front of a token. -/
theorem exists_of_skipSpace {cs rest : List Char} (h : skipSpace cs = rest) :
    ∃ space, cs = space ++ rest ∧ IsSpace space := h ▸ exists_skipSpace cs

/-- The digits that are read are the first of the text. -/
theorem isDigits_of_spanDigits {cs digits rest : List Char} (h : spanDigits cs = (digits, rest))
    (hne : digits ≠ []) : cs = digits ++ rest ∧ IsDigits digits := by
  rw [spanDigits, List.span_eq_takeWhile_dropWhile, Prod.mk.injEq] at h
  obtain ⟨rfl, rfl⟩ := h
  exact ⟨(List.takeWhile_append_dropWhile).symm, hne, fun c hc => List.mem_takeWhile_imp hc⟩

/-- A whole number that is read is one. -/
theorem isWhole_of_readWhole {cs whole rest : List Char} (h : readWhole cs = some (whole, rest)) :
    cs = whole ++ rest ∧ IsWhole whole := by
  simp only [readWhole] at h
  split at h
  · cases h
  · rename_i hs
    cases h
    obtain ⟨rfl, hd⟩ := isDigits_of_spanDigits hs (List.cons_ne_nil _ _)
    exact ⟨rfl, hd, fun _ => rfl⟩
  · cases h
  · rename_i digits more hnil hzero hlead hs
    cases h
    obtain ⟨rfl, hd⟩ := isDigits_of_spanDigits hs hnil
    refine ⟨rfl, hd, fun hhead => ?_⟩
    obtain ⟨ds, rfl⟩ := List.head?_eq_some_iff.1 hhead
    exact absurd rfl (hlead _)

/-- A fraction that is read is one, or none is there. -/
theorem isFraction_of_readFraction {cs rest : List Char} {fraction : Option (List Char)}
    (h : readFraction cs = some (fraction, rest)) :
    ∃ text, cs = text ++ rest ∧ IsFraction text := by
  simp only [readFraction] at h
  split at h
  · split at h
    · cases h
    · rename_i digits more hnil hs
      cases h
      obtain ⟨rfl, hd⟩ := isDigits_of_spanDigits hs hnil
      exact ⟨'.' :: digits, rfl, .inr ⟨digits, rfl, hd⟩⟩
  · cases h
    exact ⟨[], rfl, .inl rfl⟩

/-- The sign is taken off before the digits are. -/
theorem exists_readSign (cs : List Char) :
    ∃ sign ∈ [[], ['-'], ['+']], cs = sign ++ (readSign cs).2 := by
  simp only [readSign]
  split
  · exact ⟨['-'], by simp, rfl⟩
  · exact ⟨['+'], by simp, rfl⟩
  · exact ⟨[], by simp, rfl⟩

/-- A minus is read or not. -/
theorem exists_readMinus (cs : List Char) :
    ∃ sign ∈ [[], ['-']], cs = sign ++ (readMinus cs).2 := by
  simp only [readMinus]
  split
  · exact ⟨['-'], by simp, rfl⟩
  · exact ⟨[], by simp, rfl⟩

/-- An exponent that is read is one, or none is there. -/
theorem isExponent_of_readExponent {cs rest : List Char} {exponent : Option Int}
    (h : readExponent cs = some (exponent, rest)) :
    ∃ text, cs = text ++ rest ∧ IsExponent text := by
  simp only [readExponent] at h
  split at h
  · rename_i c cs
    split at h
    · rename_i he
      obtain ⟨sign, hsign, hcs⟩ := exists_readSign cs
      split at h
      · cases h
      · rename_i digits more hnil hs
        cases h
        obtain ⟨hd, hdigits⟩ := isDigits_of_spanDigits hs hnil
        refine ⟨c :: (sign ++ digits), ?_, .inr ⟨c, sign, digits, rfl, by simpa using he, hsign,
          hdigits⟩⟩
        rw [hcs, hd]
        simp
    · cases h
      exact ⟨[], rfl, .inl rfl⟩
  · cases h
    exact ⟨[], rfl, .inl rfl⟩

/-- A number that is read is one. -/
theorem isNumber_of_readNumber {cs rest : List Char} {n : JsonNumber}
    (h : readNumber cs = some (n, rest)) : ∃ text, cs = text ++ rest ∧ IsNumber text := by
  simp only [readNumber, Option.bind_eq_bind, Option.bind_eq_some_iff] at h
  obtain ⟨⟨whole, cs₁⟩, hwhole, ⟨fraction, cs₂⟩, hfraction, ⟨exponent, cs₃⟩, hexponent, _, -, h⟩ :=
    h
  cases h
  obtain ⟨sign, hsign, hcs⟩ := exists_readMinus cs
  obtain ⟨hw, hwhole⟩ := isWhole_of_readWhole hwhole
  obtain ⟨ftext, hf, hfraction⟩ := isFraction_of_readFraction hfraction
  obtain ⟨etext, he, hexponent⟩ := isExponent_of_readExponent hexponent
  refine ⟨sign ++ whole ++ ftext ++ etext, ?_, sign, whole, ftext, etext, rfl, hsign, hwhole,
    hfraction, hexponent⟩
  simp only at hf he
  rw [hcs, hw, hf, he]
  simp

/-! ### Strings -/

/-- Four hexadecimal digits are read, no more and no fewer. -/
theorem length_of_readHex4 {cs rest : List Char} {n : ℕ} (h : readHex4 cs = some (n, rest)) :
    ∃ digits, cs = digits ++ rest ∧ digits.length = 4 ∧ ∀ c ∈ digits, (hexValue? c).isSome := by
  simp only [readHex4] at h
  split at h
  · rename_i a b c d more
    simp only [Option.bind_eq_bind, Option.bind_eq_some_iff, Option.some.injEq, Prod.mk.injEq] at h
    obtain ⟨_, ha, _, hb, _, hc, _, hd, -, rfl⟩ := h
    exact ⟨[a, b, c, d], rfl, rfl, by simp [ha, hb, hc, hd]⟩
  · cases h

/-- What follows a backslash, up to the end of the escape. -/
theorem isChars_of_readEscape {cs rest : List Char} {c : Char}
    (h : readEscape cs = some (c, rest)) :
    ∃ text, cs = text ++ rest ∧ ∀ body, IsChars body → IsChars ('\\' :: (text ++ body)) := by
  simp only [readEscape] at h
  split at h
  · rename_i more
    simp only [Option.bind_eq_bind, Option.bind_eq_some_iff] at h
    obtain ⟨⟨high, after⟩, hhigh, h⟩ := h
    obtain ⟨digits, rfl, hlen, hhex⟩ := length_of_readHex4 hhigh
    split at h
    · split at h
      · rename_i more hafter
        simp only [Option.bind_eq_some_iff] at h
        obtain ⟨⟨low, after⟩, hlow, h⟩ := h
        obtain ⟨digits', rfl, hlen', hhex'⟩ := length_of_readHex4 hlow
        split at h
        · simp only [Option.some.injEq, Prod.mk.injEq] at h
          obtain ⟨-, rfl⟩ := h
          refine ⟨'u' :: (digits ++ '\\' :: 'u' :: digits'), ?_, fun body hb => ?_⟩
          · simp only at hafter
            simp [hafter]
          · have hsecond := IsChars.unicode hlen' hhex' hb
            simpa using IsChars.unicode hlen hhex hsecond
        · cases h
      · cases h
    · split at h
      · cases h
      · cases h
        exact ⟨'u' :: digits, rfl, fun body hb => .unicode hlen hhex hb⟩
  · rename_i c' more _
    obtain ⟨e, he, heq⟩ := Option.map_eq_some_iff.1 h
    cases heq
    exact ⟨[c'], rfl, fun body hb => .escape (by simp [he]) hb⟩
  · cases h

/-- The characters of a string are read up to its quote. -/
theorem isChars_of_readChars {size : ℕ} {done done' cs rest : List Char}
    (h : readChars size done cs = some (done', rest)) :
    ∃ body, cs = body ++ '"' :: rest ∧ IsChars body := by
  fun_induction readChars size done cs with
  | case1 => cases h
  | case2 => cases h
  | case3 size done rest' =>
      cases h
      exact ⟨[], rfl, .nil⟩
  | case4 size done more ih =>
      simp only [Option.bind_eq_bind, Option.bind_eq_some_iff] at h
      obtain ⟨⟨c, after⟩, he, h⟩ := h
      obtain ⟨text, rfl, htext⟩ := isChars_of_readEscape he
      obtain ⟨body, rfl, hb⟩ := ih c after h
      exact ⟨'\\' :: (text ++ body), by simp, htext body hb⟩
  | case5 => cases h
  | case6 size done c more hq hb hc ih =>
      obtain ⟨body, rfl, hbody⟩ := ih h
      exact ⟨c :: body, rfl, .plain (by omega) hq hb hbody⟩

/-- A string that is read is one. -/
theorem isString_of_readString {size : ℕ} {cs rest : List Char} {s : String}
    (h : readString size cs = some (s, rest)) :
    ∃ text, '"' :: cs = text ++ rest ∧ IsString text := by
  obtain ⟨⟨done, after⟩, hr, heq⟩ := Option.map_eq_some_iff.1 h
  cases heq
  obtain ⟨body, rfl, hb⟩ := isChars_of_readChars hr
  exact ⟨'"' :: (body ++ ['"']), by simp, body, rfl, hb⟩

/-! ### Arrays and objects -/

variable {α : Type} {IsPart : List Char → Prop} {read : List Char → Option (α × List Char)}

/-- A reader that takes a text of the grammar off the front. -/
def Takes (IsPart : List Char → Prop) (read : List Char → Option (α × List Char)) : Prop :=
  ∀ {cs a rest}, read cs = some (a, rest) → ∃ part, cs = part ++ rest ∧ IsPart part

/-- The parts that have been read grow at their end until the closing bracket comes. -/
theorem isListed_of_readListed (hread : Takes IsPart read) {last : Char} {size : ℕ}
    {done as : List α} {cs rest : List Char}
    (h : readListed last read size done cs = some (as, rest))
    {parts : List Char} (hp : IsListed IsPart parts) :
    ∃ parts' after, parts ++ cs = parts' ++ (after ++ last :: rest) ∧ IsListed IsPart parts' ∧
      IsSpace after := by
  induction size generalizing done cs parts with
  | zero => cases h
  | succ size ih =>
      simp only [readListed] at h
      split at h
      · cases h
      · rename_i c more hskip
        obtain ⟨before, rfl, hb⟩ := exists_of_skipSpace hskip
        split at h
        · rename_i hc
          cases h
          exact ⟨parts, before, by rw [hc], hp, hb⟩
        · split at h
          · rename_i hc
            simp only [Option.bind_eq_bind, Option.bind_eq_some_iff] at h
            obtain ⟨⟨a, rest'⟩, ha, h⟩ := h
            obtain ⟨after, hmore, hafter⟩ := exists_skipSpace more
            obtain ⟨part, hpart, hip⟩ := hread ha
            obtain ⟨parts', after', heq, hparts', hafter'⟩ := ih h (hp.more hb hafter hip)
            refine ⟨parts', after', ?_, hparts', hafter'⟩
            rw [← heq, hmore, hpart, hc]
            simp
          · cases h

/-- What is read between brackets is a list of parts. -/
theorem isEnclosed_of_readEnclosed (hread : Takes IsPart read) (first : Char) {last : Char}
    {size : ℕ} {as : List α} {cs rest : List Char}
    (h : readEnclosed last size read cs = some (as, rest)) :
    ∃ text, first :: cs = text ++ rest ∧ IsEnclosed first last IsPart text := by
  simp only [readEnclosed] at h
  split at h
  · cases h
  · rename_i c more hskip
    obtain ⟨space, rfl, hs⟩ := exists_of_skipSpace hskip
    split at h
    · rename_i hc
      cases h
      exact ⟨first :: (space ++ [last]), by simp [hc], .empty hs⟩
    · simp only [Option.bind_eq_bind, Option.bind_eq_some_iff] at h
      obtain ⟨⟨a, rest'⟩, ha, h⟩ := h
      obtain ⟨part, hpart, hip⟩ := hread ha
      obtain ⟨parts, after, heq, hparts, hafter⟩ := isListed_of_readListed hread h (.one hip)
      refine ⟨first :: (space ++ parts ++ after ++ [last]), ?_, .parts hs hparts hafter⟩
      rw [hpart, heq]
      simp

/-- A member is read as a name and a value. -/
theorem isMember_of_readMember {read : List Char → Option (Json × List Char)}
    (hread : Takes IsPart read) (size : ℕ) : Takes (IsMember IsPart) (readMember size read) := by
  intro cs m rest h
  simp only [readMember] at h
  split at h
  · rename_i more
    simp only [Option.bind_eq_bind, Option.bind_eq_some_iff] at h
    obtain ⟨⟨key, after⟩, hkey, h⟩ := h
    obtain ⟨ktext, hk, hstring⟩ := isString_of_readString hkey
    split at h
    · rename_i behind hskip
      obtain ⟨before, rfl, hb⟩ := exists_of_skipSpace hskip
      simp only [Option.bind_eq_some_iff] at h
      obtain ⟨⟨v, rest'⟩, hv, h⟩ := h
      cases h
      obtain ⟨space, hbehind, hs⟩ := exists_skipSpace behind
      obtain ⟨part, hpart, hip⟩ := hread hv
      refine ⟨ktext ++ (before ++ ':' :: (space ++ part)), ?_, ktext, before, space, part, rfl,
        hstring, hb, hs, hip⟩
      rw [hk, hbehind, hpart]
      simp
    · cases h
  · cases h

/-! ### Values -/

/-- A word that is read is a value. -/
theorem isScalar_of_readWord (word : String) (hw : word ∈ ["null", "true", "false"]) {v v' : Json}
    {cs rest : List Char} (h : readWord word.toList v cs = some (v', rest)) :
    ∃ text, cs = text ++ rest ∧ IsScalar text := by
  simp only [readWord] at h
  split at h
  · rename_i hp
    cases h
    obtain ⟨tail, rfl⟩ := List.isPrefixOf_iff_prefix.1 hp
    refine ⟨word.toList, by simp, .inl ?_⟩
    revert hw
    simp only [List.mem_cons, List.not_mem_nil, or_false]
    rintro (rfl | rfl | rfl) <;> simp
  · cases h

/-- What a value is read as: a scalar, an array or an object. -/
theorem readValue_cases {size depth : ℕ} {cs rest : List Char} {v : Json}
    (h : readValue size depth cs = some (v, rest)) :
    (cs.head? ≠ some '\x7b' ∧ ∃ text, cs = text ++ rest ∧ IsScalar text) ∨
      (∃ n more items, depth = n + 1 ∧ cs = '[' :: more ∧
        readEnclosed ']' size (readValue size n) more = some (items, rest)) ∨
      ∃ n more members, depth = n + 1 ∧ cs = '\x7b' :: more ∧
        readEnclosed '\x7d' size (readMember size (readValue size n)) more =
          some (members, rest) := by
  -- One case for each first character that a value can have.
  rw [readValue.eq_def] at h
  simp only at h
  split at h
  · exact .inl ⟨by simp, isScalar_of_readWord "null" (by simp) h⟩
  · exact .inl ⟨by simp, isScalar_of_readWord "true" (by simp) h⟩
  · exact .inl ⟨by simp, isScalar_of_readWord "false" (by simp) h⟩
  · obtain ⟨⟨s, after⟩, hs, heq⟩ := Option.map_eq_some_iff.1 h
    cases heq
    obtain ⟨text, ht, hstring⟩ := isString_of_readString hs
    exact .inl ⟨by simp, text, ht, .inr (.inr hstring)⟩
  · rename_i more
    split at h
    · cases h
    · rename_i n
      obtain ⟨⟨items, after⟩, hi, heq⟩ := Option.map_eq_some_iff.1 h
      cases heq
      exact .inr (.inl ⟨n, more, items, rfl, rfl, hi⟩)
  · rename_i more
    split at h
    · cases h
    · rename_i n
      obtain ⟨⟨members, after⟩, hm, heq⟩ := Option.map_eq_some_iff.1 h
      cases heq
      exact .inr (.inr ⟨n, more, members, rfl, rfl, hm⟩)
  · rename_i hbrace
    obtain ⟨⟨n, after⟩, hn, heq⟩ := Option.map_eq_some_iff.1 h
    cases heq
    obtain ⟨text, ht, hnumber⟩ := isNumber_of_readNumber hn
    refine .inl ⟨fun hhead => ?_, text, ht, .inr (.inl hnumber)⟩
    obtain ⟨more, rfl⟩ := List.head?_eq_some_iff.1 hhead
    exact hbrace more rfl

/-- **A reader of values takes a value** that nests no deeper than the reader goes. -/
theorem isValue_of_readValue (size depth : ℕ) : Takes (IsValue depth) (readValue size depth) := by
  induction depth with
  | zero =>
      intro cs v rest h
      rcases readValue_cases h with ⟨-, hs⟩ | ⟨n, -, -, hn, -⟩ | ⟨n, -, -, hn, -⟩
      · exact hs
      · cases hn
      · cases hn
  | succ depth ih =>
      intro cs v rest h
      rcases readValue_cases h with ⟨-, text, ht, hs⟩ | ⟨n, more, items, hn, rfl, hi⟩ |
        ⟨n, more, members, hn, rfl, hm⟩
      · exact ⟨text, ht, IsScalar.isValue hs _⟩
      · cases hn
        obtain ⟨text, ht, he⟩ := isEnclosed_of_readEnclosed ih '[' hi
        exact ⟨text, ht, .inr (.inl he)⟩
      · cases hn
        obtain ⟨text, ht, he⟩ :=
          isEnclosed_of_readEnclosed (isMember_of_readMember ih size) '\x7b' hm
        exact ⟨text, ht, .inr (.inr he)⟩

/-- **A text that is read and begins with a brace is an object**, with white space behind it. -/
theorem isObject_of_readChars? {cs : List Char} {v : Json} (h : readChars? cs = some v)
    (hhead : cs.head? = some '\x7b') :
    ∃ text space, cs = text ++ space ∧ IsObject (nesting - 1) text ∧ IsSpace space := by
  obtain ⟨cs, rfl⟩ := List.head?_eq_some_iff.1 hhead
  have hskip : skipSpace ('\x7b' :: cs) = '\x7b' :: cs := rfl
  simp only [readChars?, hskip] at h
  split at h
  · rename_i v' rest hv
    split at h
    · rename_i hrest
      obtain ⟨space, hspace, hs⟩ := exists_of_skipSpace hrest
      rw [List.append_nil] at hspace
      rcases readValue_cases hv with ⟨hbrace, -⟩ | ⟨n, more, items, hn, heq, -⟩ |
        ⟨n, more, members, hn, heq, hm⟩
      · exact absurd rfl hbrace
      · cases heq
      · cases heq
        obtain ⟨text, ht, he⟩ := isEnclosed_of_readEnclosed
          (isMember_of_readMember (isValue_of_readValue _ n) _) '\x7b' hm
        cases hn
        exact ⟨text, rest, ht, he, hspace ▸ hs⟩
    · cases h
  · cases h

/-- No white space is a closing brace. -/
theorem isObject_of_getLast? {cs : List Char} {v : Json} (h : readChars? cs = some v)
    (hhead : cs.head? = some '\x7b') (hlast : cs.getLast? = some '\x7d') :
    IsObject (nesting - 1) cs := by
  obtain ⟨text, space, rfl, hobject, hspace⟩ := isObject_of_readChars? h hhead
  rcases List.eq_nil_or_concat space with rfl | ⟨front, c, rfl⟩
  · rwa [List.append_nil]
  · rw [List.concat_eq_append, ← List.append_assoc, List.getLast?_concat] at hlast
    cases hlast
    exact absurd (hspace '\x7d' (by simp)) (by decide)

/-- What is read from brace to brace is an object. -/
theorem Grammar.isObjectText_of_readChars? {s : String} (h : (readChars? s.toList).isSome)
    (hhead : s.toList.head? = some '\x7b') (hlast : s.toList.getLast? = some '\x7d') :
    IsObjectText s := by
  obtain ⟨v, hv⟩ := Option.isSome_iff_exists.1 h
  exact ⟨_, isObject_of_getLast? hv hhead hlast⟩

end Archivist.Json
