import Archivist.Provider.Client
import Archivist.Proofs.Json.Splitting
import Archivist.Proofs.Text.Utf8

/-!
# Streamed Completions

A stream is read piece by piece: the splitter is drained, each object is read, and only then the
next piece is taken in. What comes out depends on none of this. It is what the objects of the whole
body give, up to the first with which the stream closes (`items`): because the objects that are
drained before a piece and those that are drained after it are together those of the whole
(`Splitter.handOut_extended`), and because draining does not fail on what a splitter may hold.

## Main results

* `drain_eq`: draining is handing out, up to the first object that closes the stream.
* `readStream_eq`: a stream gives the items of the objects in its body.
* `stream_items`: the same for a client, whatever the cuts; there is no empty text, and a failure
  comes last.
-/

namespace Archivist.Provider

/-! ### What objects give -/

/-- What an object of a stream gives: the content of its message, unless it is empty, or the failure
to read it. -/
def given (object : List UInt8) : List Chunk :=
  match Piece.read (Text.decodeBytes object) with
  | .ok p => p.chunks
  | .error e => [.failure e]

/-- Whether a stream closes with an object: the object says so or cannot be read. -/
def closes (object : List UInt8) : Bool :=
  match Piece.read (Text.decodeBytes object) with
  | .ok p => p.isLast
  | .error _ => true

/-- The objects up to the first that closes the stream, which is one of them. -/
def upToClosing : List (List UInt8) → List (List UInt8)
  | [] => []
  | object :: rest => if closes object then [object] else object :: upToClosing rest

/-- The failure of a connection that ends before the body does. -/
def cutOff (isCut : Bool) : List Chunk :=
  if isCut then [.failure (.stream "error reading a body from connection")] else []

/-- What the objects of a body give, and the connection if no object closes the stream. -/
def items (isCut : Bool) (objects : List (List UInt8)) : List Chunk :=
  (upToClosing objects).flatMap given ++ if objects.any closes then [] else cutOff isCut

variable {isCut : Bool} {object : List UInt8} {objects more : List (List UInt8)}

/-- Without objects there is only the connection to tell of. -/
@[simp] theorem items_nil : items isCut [] = cutOff isCut := rfl

/-- Objects behind the one that closes the stream give nothing. -/
theorem flatMap_upToClosing_cons : (upToClosing (object :: objects)).flatMap given =
    given object ++ if closes object then [] else (upToClosing objects).flatMap given := by
  rw [upToClosing]
  split <;> simp

/-- What objects give, one by one. -/
theorem items_cons : items isCut (object :: objects) =
    given object ++ if closes object then [] else items isCut objects := by
  simp only [items, flatMap_upToClosing_cons, List.any_cons, Bool.or_eq_true]
  split <;> simp [*]

/-- What objects give does not depend on those that come later. -/
theorem items_append : items isCut (objects ++ more) =
    (upToClosing objects).flatMap given ++
      if objects.any closes then [] else items isCut more := by
  induction objects with
  | nil => simp [upToClosing]
  | cons object objects ih =>
      simp only [List.cons_append, items_cons, ih, flatMap_upToClosing_cons, List.any_cons,
        Bool.or_eq_true]
      split <;> simp [*]

/-! #### Texts and failures -/

/-- A piece gives its content, unless that is empty. -/
theorem Piece.chunks_eq (p : Piece) :
    p.chunks = [] ∨ (p.content ≠ "" ∧ p.chunks = [.text p.content]) := by
  rw [Piece.chunks]
  split
  · exact .inl rfl
  · exact .inr ⟨‹_›, rfl⟩

/-- An object gives one item at most. -/
theorem length_given_le (object : List UInt8) : (given object).length ≤ 1 := by
  rw [given]
  split
  · rename_i p _
    rcases p.chunks_eq with h | ⟨-, h⟩ <;> simp [h]
  · exact le_rfl

/-- No object gives an empty text. -/
theorem text_nil_notMem_given (object : List UInt8) : .text "" ∉ given object := by
  rw [given]
  split
  · rename_i p _
    rcases p.chunks_eq with h | ⟨hne, h⟩
    · simp [h]
    · simpa [h] using hne.symm
  · simp

/-- An object that does not close the stream gives no failure. -/
theorem exists_text_of_mem_given (h : closes object = false) :
    ∀ chunk ∈ given object, ∃ text, chunk = .text text := by
  cases hread : Piece.read (Text.decodeBytes object) with
  | error e => simp [closes, hread] at h
  | ok p => rcases p.chunks_eq with hc | ⟨-, hc⟩ <;> simp [given, hread, hc]

/-- Neither does a body. -/
theorem text_nil_notMem_items : .text "" ∉ items isCut objects := by
  induction objects with
  | nil => cases isCut <;> simp [cutOff]
  | cons object objects ih =>
      rw [items_cons, List.mem_append]
      rintro (h | h)
      · exact text_nil_notMem_given object h
      · split at h
        · cases h
        · exact ih h

/-- All items are texts but one at the end. -/
theorem exists_items_eq_append : ∃ texts ending : List Chunk,
    items isCut objects = texts ++ ending ∧ ending.length ≤ 1 ∧
      ∀ chunk ∈ texts, ∃ text, chunk = .text text := by
  induction objects with
  | nil => exact ⟨[], cutOff isCut, rfl, by cases isCut <;> simp [cutOff], by simp⟩
  | cons object objects ih =>
      rw [items_cons]
      cases hc : closes object with
      | true => exact ⟨[], given object, by simp, length_given_le object, by simp⟩
      | false =>
          obtain ⟨texts, ending, heq, hlen, htexts⟩ := ih
          refine ⟨given object ++ texts, ending, by simp [heq], hlen, ?_⟩
          simp only [List.mem_append]
          rintro chunk (h | h)
          · exact exists_text_of_mem_given hc chunk h
          · exact htexts chunk h

/-- **A failure comes last.** -/
theorem exists_text_of_mem_dropLast :
    ∀ chunk ∈ (items isCut objects).dropLast, ∃ text, chunk = .text text := by
  obtain ⟨texts, ending, heq, hlen, htexts⟩ := @exists_items_eq_append isCut objects
  intro chunk h
  rw [heq] at h
  refine htexts chunk ?_
  match ending, hlen with
  | [], _ => exact List.mem_of_mem_dropLast (by simpa using h)
  | [_], _ => simpa using h

/-! ### Draining -/

variable {s : Splitter} {n : ℕ}

/-- The next object is read as a piece. -/
theorem nextPiece_of_some {s' : Splitter} (h : s.next = .ok (some object, s')) :
    nextPiece s = (Piece.read (Text.decodeBytes object)).map fun p => some (p, s') := by
  rw [nextPiece, h]

/-- **Draining is handing out**, up to the first object that closes the stream. -/
theorem drain_eq (hn : s.size < n) (hs : s.buffer.length < 2 ^ 31) :
    drain n s = ((upToClosing s.handOut.1).flatMap given,
      if s.handOut.1.any closes then none else some s.handOut.2) := by
  induction n generalizing s with
  | zero => cases hn
  | succ n ih =>
      obtain ⟨object, s', hnext⟩ := Splitter.exists_next hs
      cases object with
      | none =>
          rw [Splitter.handOut_of_ne_some (by simp [hnext])]
          simp [drain, nextPiece, hnext, upToClosing]
      | some object =>
          have hlen := Splitter.length_of_next hnext
          have hrest := ih (s := s') (by simp only [Splitter.size] at hn ⊢; omega) (by omega)
          rw [Splitter.handOut_of_some hnext, drain, nextPiece_of_some hnext]
          simp only [flatMap_upToClosing_cons, List.any_cons, Bool.or_eq_true]
          cases hread : Piece.read (Text.decodeBytes object) with
          | error e => simp [given, closes, hread, Except.map]
          | ok p =>
              simp only [given, closes, hread, Except.map, hrest]
              cases p.isLast <;> simp

/-- The pieces of a body none of which is refused. A stream takes in pieces as long as it is not
closed. -/
def Admits (s : Splitter) : List (List UInt8) → Prop
  | [] => True
  | bytes :: rest => ∀ left, (drain (s.size + 1) s).2 = some left →
    ∃ fed, left.feed bytes = .ok fed ∧ Admits fed rest

/-- Pieces that fit together are not refused one by one. -/
theorem admits_of_length_le {pieces : List (List UInt8)} (hs : s.buffer.length < 2 ^ 31)
    (hlimit : s.limit < 2 ^ 31) (h : s.buffer.length + pieces.flatten.length ≤ s.limit) :
    Admits s pieces := by
  induction pieces generalizing s with
  | nil => trivial
  | cons bytes rest ih =>
      intro left hleft
      rw [drain_eq (Nat.lt_succ_self _) hs] at hleft
      obtain ⟨-, rfl⟩ : s.handOut.1.any closes = false ∧ s.handOut.2 = left := by simpa using hleft
      have hlen := s.length_left
      have hkept := s.limit_left
      rw [List.flatten_cons, List.length_append] at h
      refine ⟨_, Splitter.feed_eq_ok_iff.2 ⟨by omega, rfl⟩, ih ?_ ?_ ?_⟩ <;>
        simp only [Splitter.buffer_extended, Splitter.limit_extended, List.length_append] <;> omega

/-- **A stream gives the items of the objects in its body.** -/
theorem readStream_eq {pieces : List (List UInt8)} (h : Admits s pieces)
    (hs : s.buffer.length ≤ s.limit) (hlimit : s.limit < 2 ^ 31) :
    readStream isCut s pieces = items isCut (s.extended pieces.flatten).handOut.1 := by
  induction pieces generalizing s with
  | nil =>
      rw [readStream, drain_eq (Nat.lt_succ_self _) (by omega), List.flatten_nil,
        Splitter.extended_nil, items]
      cases s.handOut.1.any closes <;> simp [cutOff]
  | cons bytes rest ih =>
      have hdrain := drain_eq (s := s) (Nat.lt_succ_self s.size) (by omega)
      rw [readStream, hdrain, List.flatten_cons, Splitter.handOut_extended, items_append]
      cases hany : s.handOut.1.any closes with
      | true => simp
      | false =>
          obtain ⟨fed, hfeed, hrest⟩ := h s.handOut.2 (by simp [hdrain, hany])
          obtain ⟨hfits, rfl⟩ := Splitter.feed_eq_ok_iff.1 hfeed
          have hkept := s.limit_left
          have hstream := ih hrest (by simpa using hfits) (by simpa [hkept] using hlimit)
          simp [hfeed, hstream, Splitter.extended_extended]

/-- **What a stream gives is what the objects of its body give**, up to the first that closes it, if
no piece is refused. It does not matter where the body is cut. No text is empty, and a failure is
the last item. -/
theorem stream_items {σ : Type} (c : Client) (server : Server σ) (r : ChatRequest) (t : σ)
    {pieces : List (List UInt8)} {isCut : Bool}
    (hbody : (server (c.chatQuery r true) t).1.body c.timeoutMs = .ok (pieces, isCut))
    (hfeed : Admits {} pieces) :
    (c.stream server r t).1 = .ok (items isCut (Splitter.objects pieces.flatten)) ∧
    (∀ (server' : Server σ) (t' : σ) (pieces' : List (List UInt8)),
      (server' (c.chatQuery r true) t').1.body c.timeoutMs = .ok (pieces', isCut) →
      pieces'.flatten = pieces.flatten → Admits {} pieces' →
      (c.stream server' r t').1 = (c.stream server r t).1) ∧
    ∀ chunks, (c.stream server r t).1 = .ok chunks →
      .text "" ∉ chunks ∧ ∀ chunk ∈ chunks.dropLast, ∃ text, chunk = .text text := by
  have hitems (server' : Server σ) (t' : σ) (pieces' : List (List UInt8))
      (hbody' : (server' (c.chatQuery r true) t').1.body c.timeoutMs = .ok (pieces', isCut))
      (hfeed' : Admits {} pieces') :
      (c.stream server' r t').1 = .ok (items isCut (Splitter.objects pieces'.flatten)) := by
    have hstream : readStream isCut {} pieces' = items isCut (Splitter.objects pieces'.flatten) :=
      readStream_eq hfeed' (by decide) (by decide)
    simp only [Client.stream, Client.exchange, hbody', Except.bind, hstream]
  refine ⟨hitems server t pieces hbody hfeed, fun server' t' pieces' hbody' heq hfeed' => ?_,
    fun chunks h => ?_⟩
  · rw [hitems server' t' pieces' hbody' hfeed', hitems server t pieces hbody hfeed, heq]
  · rw [hitems server t pieces hbody hfeed] at h
    cases h
    exact ⟨text_nil_notMem_items, exists_text_of_mem_dropLast⟩

/-- A body whose first object is cut within a character and whose second closes the stream, so that
the end of the connection does not matter. -/
theorem stream_items_cut :
    (Client.stream {} (fun _ t => (.answer 200
        [Text.encodeText "\x7b\"message\":\x7b\"content\":\"道" ++ [0xe8],
          [0xb7, 0xaf] ++ Text.encodeText "\"\x7d\x7d\n\x7b\"done\":true\x7d\n\x7b"] true, t))
      (.forTask .chitchat []) ()).1 = .ok [.text "道路"] := by
  have hobjects : Splitter.objects
      [Text.encodeText "\x7b\"message\":\x7b\"content\":\"道" ++ [0xe8],
        [0xb7, 0xaf] ++ Text.encodeText "\"\x7d\x7d\n\x7b\"done\":true\x7d\n\x7b"].flatten =
      [Text.encodeText "\x7b\"message\":\x7b\"content\":\"道路\"\x7d\x7d",
        Text.encodeText "\x7b\"done\":true\x7d"] := by
    cbv
  have hfirst : Piece.read "\x7b\"message\":\x7b\"content\":\"道路\"\x7d\x7d" =
      .ok { content := "道路", isLast := false } := by rfl
  have hlast : Piece.read "\x7b\"done\":true\x7d" = .ok { content := "", isLast := true } := by rfl
  have hstream := stream_items {} (fun _ t => (.answer 200
      [Text.encodeText "\x7b\"message\":\x7b\"content\":\"道" ++ [0xe8],
        [0xb7, 0xaf] ++ Text.encodeText "\"\x7d\x7d\n\x7b\"done\":true\x7d\n\x7b"] true, t))
    (.forTask .chitchat []) () rfl (admits_of_length_le (by decide) (by decide) (by decide))
  rw [hstream.1, hobjects]
  simp only [items_cons, given, closes, Text.decodeBytes_encodeText, hfirst, hlast]
  rfl

end Archivist.Provider
