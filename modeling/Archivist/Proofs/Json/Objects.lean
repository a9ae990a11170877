import Archivist.Proofs.Json.Reading
import Archivist.Proofs.Json.Spelling
import Archivist.Proofs.Json.Splitting

/-!
# Objects in a Stream and in a Text

The scanner agrees with the grammar: an object is found where it begins and ends. Objects between
other bytes are handed out one by one, in order, and nothing else is. The other bytes may be
anything but opening braces, and the stream may be cut anywhere, also within a character.

A splitter sees at most as much of an object as its limit lets it hold, so an object may be of any
size under a limit that a word of 32 bits can count. In a text there is no limit and the object has
to be of that size itself.

## Main results

* `takeIn_rendered`: the objects of a stream are handed out.
* `firstObject?_append`: the first object of a text is found.
* `objects_found`: both for texts of objects.
-/

namespace Archivist

open Scan Json.Grammar

/-- The first object of what a splitter holds is handed out, and what comes before it is thrown
away. -/
theorem Splitter.next_of_span {s : Splitter} {front object behind : List UInt8} {most : ℕ}
    (hb : s.buffer = front ++ object ++ behind)
    (hf : ∀ b ∈ front, Symbol.brace b ≠ .opening) (hobject : Span most object)
    (hne : object ≠ []) (hmost : object.length ≤ most) :
    s.next = .ok (some object, { s with buffer := behind }) := by
  have hfound := hobject.object_append hf hmost behind
  have hpos := List.length_pos_iff.2 hne
  have hstop : front.length + object.length - 1 + 1 = (front ++ object).length := by
    rw [List.length_append]
    omega
  rw [next_of_object (hb ▸ hfound), hb, hstop, List.take_left, List.drop_left, List.drop_left]

/-! ### Objects between other bytes -/

/-- A stream of objects, each with the bytes in front of it, and the bytes behind the last. -/
def rendered (parts : List (List UInt8 × String)) (tail : List UInt8) : List UInt8 :=
  parts.flatMap (fun p => p.1 ++ Text.encodeText p.2) ++ tail

/-- A body is written part by part. -/
theorem rendered_cons (p : List UInt8 × String) (parts : List (List UInt8 × String))
    (tail : List UInt8) :
    rendered (p :: parts) tail = p.1 ++ Text.encodeText p.2 ++ rendered parts tail := by
  simp [rendered]

/-- What is demanded of the objects in a stream and of the bytes in front of them. -/
structure Separated (limit : ℕ) (p : List UInt8 × String) : Prop where
  isObject : IsObjectText p.2
  noBrace : 0x7b ∉ p.1
  size : min limit p.2.utf8ByteSize < 2 ^ 31

/-- Bytes without an opening brace begin no object. -/
theorem brace_ne_opening {bytes : List UInt8} (h : 0x7b ∉ bytes) :
    ∀ b ∈ bytes, Symbol.brace b ≠ .opening := by
  intro b hb
  have hne : b ≠ 0x7b := fun heq => h (heq ▸ hb)
  simp only [Symbol.brace, if_neg hne]
  repeat' split
  all_goals exact Brace.noConfusion

/-- An object is not written with nothing. -/
theorem encodeText_ne_nil {s : String} (h : IsObjectText s) : Text.encodeText s ≠ [] := by
  obtain ⟨n, hn⟩ := h
  obtain ⟨body, hbody⟩ := hn.eq_cons
  obtain ⟨x, hx, -⟩ := Spelling.bytes.exists_text_cons (c := '\x7b') (by decide) (body ++ ['\x7d'])
  rw [← Spelling.text_bytes, hbody, hx]
  exact List.cons_ne_nil _ _

/-- The beginning of a stream that ends within its first object. -/
theorem exists_incomplete {bytes more front object behind : List UInt8} (hf : 0x7b ∉ front)
    (hne : object ≠ []) (hb : bytes ++ more = front ++ object ++ behind)
    (hlt : bytes.length < (front ++ object).length) :
    ∃ front' part, bytes = front' ++ part ∧ 0x7b ∉ front' ∧ part <+: object ∧ part ≠ object := by
  have hpre : bytes <+: front ++ object :=
    List.prefix_of_prefix_length_le (List.prefix_append bytes more)
      (hb ▸ List.prefix_append _ behind) hlt.le
  rcases Nat.le_total bytes.length front.length with hle | hle
  · have hfront : bytes <+: front :=
      List.prefix_of_prefix_length_le hpre (List.prefix_append front object) hle
    exact ⟨bytes, [], by simp, fun hmem => hf (hfront.subset hmem), List.nil_prefix, hne.symm⟩
  · obtain ⟨part, rfl⟩ := List.prefix_of_prefix_length_le (List.prefix_append front object) hpre hle
    refine ⟨front, part, rfl, hf, (List.prefix_append_right_inj front).1 hpre, ?_⟩
    rintro rfl
    exact absurd hlt (Nat.lt_irrefl _)

namespace Splitter

variable {parts : List (List UInt8 × String)} {tail more : List UInt8} {s : Splitter}

/-- Where the scanner finds nothing, nothing is handed out. -/
theorem handOut_of_object_none (h : Scan.object s.buffer = .ok none) : s.handOut = ([], s) :=
  handOut_of_ne_some fun _ _ hn => by simp [next_of_object_none h] at hn

/-- An object that is not complete stays in the buffer. -/
theorem handOut_incomplete {p : List UInt8 × String} {behind : List UInt8}
    (hp : Separated s.limit p) (hlen : s.buffer.length ≤ s.limit)
    (hb : s.buffer ++ more = p.1 ++ Text.encodeText p.2 ++ behind)
    (hlt : s.buffer.length < (p.1 ++ Text.encodeText p.2).length) : s.handOut = ([], s) := by
  obtain ⟨levels, hobject⟩ := hp.isObject
  obtain ⟨front, part, hbuffer, hf, hpart, hne⟩ :=
    exists_incomplete hp.noBrace (encodeText_ne_nil hp.isObject) hb hlt
  have hsize := Text.length_encodeText p.2 ▸ hp.size
  have hpl := hpart.length_le
  have hbl := congrArg List.length hbuffer
  rw [List.length_append] at hbl
  have hspan := hobject.span Spelling.bytes part.length (by omega)
  have hnone := hspan.object_eq_none (brace_ne_opening hf) hpart hne le_rfl
  exact handOut_of_object_none (hbuffer ▸ hnone)

/-- An object that is complete is the next one. -/
theorem next_complete {p : List UInt8 × String} {behind : List UInt8} (hp : Separated s.limit p)
    (hlen : s.buffer.length ≤ s.limit) (hb : s.buffer = p.1 ++ Text.encodeText p.2 ++ behind) :
    s.next = .ok (some (Text.encodeText p.2), { s with buffer := behind }) := by
  obtain ⟨levels, hobject⟩ := hp.isObject
  have hsize := Text.length_encodeText p.2 ▸ hp.size
  have hbl := congrArg List.length hb
  simp only [List.length_append] at hbl
  have hspan := hobject.span Spelling.bytes (Text.encodeText p.2).length (by omega)
  exact next_of_span hb (brace_ne_opening hp.noBrace) hspan (encodeText_ne_nil hp.isObject) le_rfl

/-- **Objects are handed out as soon as they are complete**, in order. -/
theorem handOut_rendered (hparts : ∀ p ∈ parts, Separated s.limit p)
    (htail : 0x7b ∉ tail) (hlen : s.buffer.length ≤ s.limit)
    (hb : s.buffer ++ more = rendered parts tail) :
    ∃ before after, parts = before ++ after ∧
      s.handOut.1 = before.map (fun p => Text.encodeText p.2) ∧
      s.handOut.2.buffer ++ more = rendered after tail ∧ (more = [] → after = []) := by
  induction parts generalizing s with
  | nil =>
      have htail' : tail = s.buffer ++ more := hb.symm
      have hbuffer : 0x7b ∉ s.buffer := fun hmem =>
        htail (htail' ▸ List.mem_append_left more hmem)
      rw [handOut_of_object_none (Scan.object_of_forall_ne (brace_ne_opening hbuffer))]
      exact ⟨[], [], rfl, rfl, hb, fun _ => rfl⟩
  | cons p parts ih =>
      have hp := hparts p List.mem_cons_self
      rw [rendered_cons] at hb
      -- Either the first object is not whole yet, or it is handed out and the rest follows.
      rcases Nat.lt_or_ge s.buffer.length (p.1 ++ Text.encodeText p.2).length with hlt | hge
      · rw [handOut_incomplete hp hlen hb hlt]
        refine ⟨[], p :: parts, rfl, rfl, by rw [hb, rendered_cons], ?_⟩
        rintro rfl
        have hlength := congrArg List.length hb
        simp only [List.append_nil, List.length_append] at hlength hlt
        omega
      · obtain ⟨behind, hbuffer⟩ : p.1 ++ Text.encodeText p.2 <+: s.buffer :=
          List.prefix_of_prefix_length_le (hb ▸ List.prefix_append _ _)
            (List.prefix_append s.buffer more) hge
        have hlen' : behind.length ≤ s.limit := by
          have hbl := congrArg List.length hbuffer
          rw [List.length_append] at hbl
          omega
        have hnext := next_complete hp hlen hbuffer.symm
        rw [← hbuffer, List.append_assoc, List.append_cancel_left_eq] at hb
        obtain ⟨before, after, rfl, hout, hleft, hmore⟩ :=
          ih (s := { s with buffer := behind })
            (fun q hq => hparts q (List.mem_cons_of_mem p hq)) hlen' hb
        rw [handOut_of_some hnext]
        exact ⟨p :: before, after, rfl, by rw [hout, List.map_cons], hleft, hmore⟩

/-- **The objects of a stream are handed out**, wherever it is cut. -/
theorem takeIn_rendered {pieces : List (List UInt8)} {r : List (List UInt8) × Splitter}
    (hparts : ∀ p ∈ parts, Separated s.limit p) (htail : 0x7b ∉ tail)
    (hlen : s.buffer.length ≤ s.limit) (hs : s.handOut = ([], s))
    (hb : s.buffer ++ pieces.flatten = rendered parts tail) (h : s.takeIn pieces = .ok r) :
    r.1 = parts.map (fun p => Text.encodeText p.2) := by
  induction pieces generalizing s parts r with
  | nil =>
      cases h
      obtain ⟨before, after, rfl, hout, -, hmore⟩ := handOut_rendered hparts htail hlen hb
      rw [hs] at hout
      rw [hmore rfl, List.append_nil, ← hout]
  | cons bytes rest ih =>
      obtain ⟨hfits, more, hm, rfl⟩ := takeIn_cons_eq_ok h
      rw [List.flatten_cons, ← List.append_assoc] at hb
      obtain ⟨before, after, rfl, hout, hleft, -⟩ :=
        handOut_rendered (s := s.extended bytes) hparts htail (by simpa using hfits) hb
      have hlimit : (s.extended bytes).handOut.2.limit = s.limit := limit_left _
      have hrest := ih (s := (s.extended bytes).handOut.2)
        (fun p hp => hlimit ▸ hparts p (List.mem_append_right before hp))
        (hlimit ▸ (length_left _).trans (by simpa using hfits)) (handOut_left _) hleft hm
      rw [hout, hrest, List.map_append]

end Splitter

/-! ### The first object of a text -/

/-- **The first object of a text is found**, whatever follows. -/
theorem firstObject?_append {front object : List Char} (hf : '\x7b' ∉ front) {most : ℕ}
    (hobject : Span most object) (hhead : object.head? = some '\x7b') (hmost : object.length ≤ most)
    (behind : List Char) : firstObject? (front ++ object ++ behind) = some object := by
  obtain ⟨body, rfl⟩ := List.head?_eq_some_iff.1 hhead
  have hdrop : (front ++ '\x7b' :: body ++ behind).dropWhile (· ≠ '\x7b') =
      '\x7b' :: body ++ behind := by
    rw [List.append_assoc, List.dropWhile_append_of_pos, List.cons_append,
      List.dropWhile_cons_of_neg (by decide)]
    intro c hc
    exact decide_eq_true fun heq => hf (heq ▸ hc)
  have hfound := hobject.object_self_append hmost behind
  have hstop : ('\x7b' :: body).length - 1 + 1 = ('\x7b' :: body).length := by simp
  simp only [firstObject?, hdrop, hfound, hstop, List.take_left, List.drop_zero]

/-- **The scanner agrees with the grammar.** From a stream of objects exactly these are handed out,
in their order and with their texts, whatever stands between them and wherever the stream is cut, if
only no piece is refused; and in any text the first object is found, if no brace opens before it. -/
theorem objects_found :
    (∀ (limit : ℕ) (parts : List (List UInt8 × String)) (tail : List UInt8)
        (pieces : List (List UInt8)) (r : List (List UInt8) × Splitter),
      (∀ p ∈ parts, Separated limit p) → 0x7b ∉ tail → pieces.flatten = rendered parts tail →
      Splitter.takeIn { limit } pieces = .ok r →
      r.1.map Text.decodeBytes = parts.map fun p => p.2) ∧
    ∀ before s behind : String, IsObjectText s → s.utf8ByteSize < 2 ^ 31 →
      '\x7b' ∉ before.toList → firstObject? (before ++ s ++ behind).toList = some s.toList := by
  refine ⟨fun limit parts tail pieces r hparts htail hpieces h => ?_,
    fun before s behind hobject hsize hbefore => ?_⟩
  · rw [Splitter.takeIn_rendered (s := { limit }) hparts htail (Nat.zero_le limit)
      (Splitter.handOut_empty limit) hpieces h, List.map_map]
    exact List.map_congr_left fun p _ => Text.decodeBytes_encodeText p.2
  · obtain ⟨levels, hobject⟩ := hobject
    have hlen := Text.length_toList_le s
    have hspan := hobject.span Spelling.chars s.toList.length (by omega)
    rw [Spelling.text_chars] at hspan
    obtain ⟨body, hbody⟩ := hobject.eq_cons
    rw [String.toList_append, String.toList_append]
    exact firstObject?_append hbefore hspan (by rw [hbody]; rfl) le_rfl _

/-- Two objects with a brace and a quote between them, the first of which has a brace and an escaped
quote in a string, in a stream that is cut within a character; and the same object in a text. -/
theorem objects_found_cut :
    (∃ r, Splitter.takeIn { limit := 40 }
        [[0x22, 0x7b, 0x22, 0x7d, 0x5c, 0x22, 0xe5],
          [0x8b, 0x99, 0x22, 0x3a, 0x30, 0x7d, 0x7d, 0x7b], [0x7d, 0x22]] = .ok r ∧
      r.1.map Text.decodeBytes = ["\x7b\"\x7d\\\"務\":0\x7d", "\x7b\x7d"]) ∧
    firstObject? ("\"\x7d" ++ "\x7b\"\x7d\\\"務\":0\x7d" ++ "\x7b").toList =
      some "\x7b\"\x7d\\\"務\":0\x7d".toList := by
  have hlong : IsObjectText "\x7b\"\x7d\\\"務\":0\x7d" :=
    isObjectText_of_readChars? (by decide) (by decide) (by decide)
  have hshort : IsObjectText "\x7b\x7d" :=
    isObjectText_of_readChars? (by decide) (by decide) (by decide)
  refine ⟨?_, objects_found.2 _ _ _ hlong (by decide) (by decide)⟩
  obtain ⟨r, hr⟩ : ∃ r, Splitter.takeIn { limit := 40 }
      [[0x22, 0x7b, 0x22, 0x7d, 0x5c, 0x22, 0xe5],
        [0x8b, 0x99, 0x22, 0x3a, 0x30, 0x7d, 0x7d, 0x7b], [0x7d, 0x22]] = .ok r :=
    Splitter.exists_takeIn (by decide)
  refine ⟨r, hr, ?_⟩
  refine objects_found.1 40 [([0x22], "\x7b\"\x7d\\\"務\":0\x7d"), ([0x7d], "\x7b\x7d")]
    [0x22] _ r ?_ (by decide) (by decide) hr
  simp only [List.forall_mem_cons]
  exact ⟨⟨hlong, by decide, by decide⟩, ⟨hshort, by decide, by decide⟩, fun _ h => nomatch h⟩

end Archivist
