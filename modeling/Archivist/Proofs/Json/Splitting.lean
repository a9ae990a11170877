import Archivist.Proofs.Json.Scan

/-!
# Streams in Pieces

A splitter scans its buffer from the beginning each time it is asked, so a stream that arrives in
pieces is scanned over and over. What has been found once stays found (`Scan.object_append`), hence
the objects handed out and the bytes left are those of the whole stream, wherever it is cut.

`handOut` asks for objects until there is none, `takeIn` does so after every piece, and `objects`
are those of a stream as a whole.

## Main results

* `takeIn_eq`: taking in pieces is handing out the objects of the whole.
* `splitting`: the cuts do not matter, no request but one for too many bytes fails, and the limit
  holds.
-/

namespace Archivist.Splitter

/-- A splitter that holds more bytes. -/
def extended (s : Splitter) (more : List UInt8) : Splitter := { s with buffer := s.buffer ++ more }

/-- Bytes that are added follow those that are there. -/
@[simp] theorem buffer_extended (s : Splitter) (more : List UInt8) :
    (s.extended more).buffer = s.buffer ++ more := rfl

/-- Adding bytes does not change the limit. -/
@[simp] theorem limit_extended (s : Splitter) (more : List UInt8) :
    (s.extended more).limit = s.limit := rfl

/-- Bytes are added one part after the other. -/
theorem extended_extended (s : Splitter) (more behind : List UInt8) :
    (s.extended more).extended behind = s.extended (more ++ behind) := by
  simp [extended]

/-- To add nothing changes nothing. -/
theorem extended_nil (s : Splitter) : s.extended [] = s := by simp [extended]

/-! ### Single requests -/

/-- Bytes are taken in if there is room for all of them. -/
theorem feed_eq_ok_iff {s fed : Splitter} {bytes : List UInt8} :
    s.feed bytes = .ok fed ↔ s.buffer.length + bytes.length ≤ s.limit ∧ fed = s.extended bytes := by
  simp only [feed, extended]
  split
  · simp
    omega
  · simp only [Except.ok.injEq]
    exact ⟨fun h => ⟨by omega, h.symm⟩, fun h => h.2.symm⟩

variable {s s' : Splitter} {object : List UInt8}

/-- An object is handed out where the scanner finds one. -/
theorem next_of_object {start stop : ℕ} (h : Scan.object s.buffer = .ok (some (start, stop))) :
    s.next = .ok (some ((s.buffer.take (stop + 1)).drop start),
      { s with buffer := s.buffer.drop (stop + 1) }) := by
  simp only [next, h]

/-- What is handed out is the first object, and what is behind it is left. -/
theorem next_eq_some (h : s.next = .ok (some object, s')) :
    ∃ start stop, Scan.object s.buffer = .ok (some (start, stop)) ∧
      object = (s.buffer.take (stop + 1)).drop start ∧
      s' = { s with buffer := s.buffer.drop (stop + 1) } := by
  simp only [next] at h
  split at h
  · rename_i start stop hs
    cases h
    exact ⟨start, stop, hs, rfl, rfl⟩
  · cases h
  · cases h

/-- Nothing is handed out where the scanner finds nothing. -/
theorem next_of_object_none (h : Scan.object s.buffer = .ok none) : s.next = .ok (none, s) := by
  simp only [next, h]

/-- Few bytes cannot be at fault. -/
theorem exists_next (h : s.buffer.length < 2 ^ 31) : ∃ object s', s.next = .ok (object, s') := by
  obtain ⟨found, hf⟩ := Scan.object_ne_mismatch h
  cases found with
  | none => exact ⟨none, s, next_of_object_none hf⟩
  | some found => exact ⟨_, _, next_of_object hf⟩

/-- Who hands out nothing keeps everything. -/
theorem next_none (h : s.next = .ok (none, s')) : s' = s := by
  simp only [next] at h
  split at h
  · cases h
  · cases h
    rfl
  · cases h

/-- Handing out does not change the limit. -/
theorem limit_of_next (h : s.next = .ok (some object, s')) : s'.limit = s.limit := by
  obtain ⟨_, _, -, -, rfl⟩ := next_eq_some h
  rfl

/-- An object takes at least one byte of what is held. -/
theorem length_of_next (h : s.next = .ok (some object, s')) :
    s'.buffer.length < s.buffer.length := by
  obtain ⟨start, stop, hs, -, rfl⟩ := next_eq_some h
  have hlt := Scan.lt_of_object hs
  simp only [List.length_drop]
  omega

/-- **More bytes do not change the object that is handed out.** -/
theorem next_extended (h : s.next = .ok (some object, s')) (more : List UInt8) :
    (s.extended more).next = .ok (some object, s'.extended more) := by
  obtain ⟨start, stop, hs, rfl, rfl⟩ := next_eq_some h
  have hlt := Scan.lt_of_object hs
  rw [next_of_object (Scan.object_append hs more)]
  simp only [extended, List.take_append_of_le_length (Nat.succ_le_of_lt hlt),
    List.drop_append_of_le_length (Nat.succ_le_of_lt hlt)]

/-! ### All objects that are held -/

/-- Hands out complete objects until there is none. -/
def handOut (s : Splitter) : List (List UInt8) × Splitter :=
  match _h : s.next with
  | .ok (some object, s') =>
    let (objects, left) := s'.handOut
    (object :: objects, left)
  | _ => ([], s)
  termination_by s.buffer.length
  decreasing_by exact length_of_next _h

/-- An object that is there is handed out, and then those that are left. -/
theorem handOut_of_some (h : s.next = .ok (some object, s')) :
    s.handOut = (object :: s'.handOut.1, s'.handOut.2) := by
  rw [handOut]
  split
  · rename_i h'
    rw [h] at h'
    cases h'
    rfl
  · rename_i hno
    exact absurd h (hno _ _)

/-- Where there is no object, nothing is handed out. -/
theorem handOut_of_ne_some (h : ∀ object s', s.next ≠ .ok (some object, s')) :
    s.handOut = ([], s) := by
  rw [handOut]
  split
  · rename_i h'
    exact absurd h' (h _ _)
  · rfl

/-- Induction on what is handed out. -/
theorem handOut_induct {motive : Splitter → Prop}
    (some : ∀ s object s', s.next = .ok (.some object, s') → motive s' → motive s)
    (stop : ∀ s, (∀ object s', s.next ≠ .ok (.some object, s')) → motive s) (s : Splitter) :
    motive s := by
  fun_induction handOut s with
  | case1 s object s' h objects left hs ih => exact some s object s' h ih
  | case2 s h => exact stop s h

/-- What is left has no object to hand out. -/
theorem next_left (s : Splitter) : ∀ object s', s.handOut.2.next ≠ .ok (some object, s') := by
  induction s using handOut_induct with
  | some s object s' h ih => rwa [handOut_of_some h]
  | stop s h => rwa [handOut_of_ne_some h]

/-- After all objects have been handed out there are none. -/
theorem handOut_left (s : Splitter) : s.handOut.2.handOut = ([], s.handOut.2) :=
  handOut_of_ne_some (next_left s)

/-- Handing out all objects does not change the limit. -/
theorem limit_left (s : Splitter) : s.handOut.2.limit = s.limit := by
  induction s using handOut_induct with
  | some s object s' h ih => rw [handOut_of_some h, ih, limit_of_next h]
  | stop s h => rw [handOut_of_ne_some h]

/-- What is left is no longer than what was there. -/
theorem length_left (s : Splitter) : s.handOut.2.buffer.length ≤ s.buffer.length := by
  induction s using handOut_induct with
  | some s object s' h ih =>
      rw [handOut_of_some h]
      exact ih.trans (length_of_next h).le
  | stop s h => rw [handOut_of_ne_some h]

/-- **Objects are handed out alike before and after more bytes arrive.** -/
theorem handOut_extended (s : Splitter) (more : List UInt8) :
    (s.extended more).handOut =
      (s.handOut.1 ++ (s.handOut.2.extended more).handOut.1,
        (s.handOut.2.extended more).handOut.2) := by
  induction s using handOut_induct with
  | some s object s' h ih =>
      rw [handOut_of_some (next_extended h more), handOut_of_some h, ih, List.cons_append]
  | stop s h => rw [handOut_of_ne_some h, List.nil_append]

/-- With few bytes the splitter says itself that there is no further object. -/
theorem next_left_of_lt (h : s.buffer.length < 2 ^ 31) :
    s.handOut.2.next = .ok (none, s.handOut.2) := by
  obtain ⟨object, s', hs⟩ := exists_next (s.length_left.trans_lt h)
  cases object with
  | none => rw [hs, next_none hs]
  | some object => exact absurd hs (s.next_left object s')

/-- The objects of a stream as a whole. -/
def objects (bytes : List UInt8) : List (List UInt8) := (handOut { buffer := bytes }).1

/-! ### Pieces -/

/-- Takes in pieces one after the other and hands out all complete objects after each. -/
def takeIn (s : Splitter) : List (List UInt8) → Except Fault (List (List UInt8) × Splitter)
  | [] => .ok ([], s)
  | bytes :: rest => do
    let fed ← s.feed bytes
    let (objects, left) := fed.handOut
    let (more, last) ← left.takeIn rest
    .ok (objects ++ more, last)

/-- What taking in a piece and then others amounts to. -/
theorem takeIn_cons_eq_ok {bytes : List UInt8} {rest : List (List UInt8)}
    {r : List (List UInt8) × Splitter} (h : s.takeIn (bytes :: rest) = .ok r) :
    s.buffer.length + bytes.length ≤ s.limit ∧
      ∃ more, (s.extended bytes).handOut.2.takeIn rest = .ok more ∧
        r = ((s.extended bytes).handOut.1 ++ more.1, more.2) := by
  simp only [takeIn] at h
  cases hf : s.feed bytes with
  | error e =>
      rw [hf] at h
      cases h
  | ok fed =>
      obtain ⟨hle, rfl⟩ := feed_eq_ok_iff.1 hf
      rw [hf] at h
      cases hm : (s.extended bytes).handOut.2.takeIn rest with
      | error e =>
          simp only [bind, Except.bind, hm] at h
          cases h
      | ok more =>
          simp only [bind, Except.bind, hm, Except.ok.injEq] at h
          exact ⟨hle, more, rfl, h.symm⟩

/-- **Taking in pieces is handing out the objects of the whole**, if nothing has been left to hand
out before. -/
theorem takeIn_eq {pieces : List (List UInt8)} {r : List (List UInt8) × Splitter}
    (hs : s.handOut = ([], s)) (h : s.takeIn pieces = .ok r) :
    r = (s.extended pieces.flatten).handOut := by
  induction pieces generalizing s r with
  | nil =>
      cases h
      rw [List.flatten_nil, extended_nil, hs]
  | cons bytes rest ih =>
      obtain ⟨-, more, hm, rfl⟩ := takeIn_cons_eq_ok h
      rw [ih (handOut_left _) hm, List.flatten_cons, ← extended_extended,
        handOut_extended (s.extended bytes)]

/-- Pieces that fit together are not refused one by one. -/
theorem exists_takeIn {pieces : List (List UInt8)}
    (h : s.buffer.length + pieces.flatten.length ≤ s.limit) : ∃ r, s.takeIn pieces = .ok r := by
  induction pieces generalizing s with
  | nil => exact ⟨_, rfl⟩
  | cons bytes rest ih =>
      rw [List.flatten_cons, List.length_append] at h
      have hlen := (s.extended bytes).length_left
      rw [buffer_extended, List.length_append] at hlen
      have hlimit : (s.extended bytes).handOut.2.limit = s.limit := limit_left _
      obtain ⟨more, hm⟩ := ih (s := (s.extended bytes).handOut.2) (by omega)
      have hfeed : s.feed bytes = .ok (s.extended bytes) := feed_eq_ok_iff.2 ⟨by omega, rfl⟩
      refine ⟨((s.extended bytes).handOut.1 ++ more.1, more.2), ?_⟩
      simp only [takeIn, hfeed, bind, Except.bind, hm]

/-- An empty splitter has nothing to hand out. -/
theorem handOut_empty (limit : ℕ) : handOut { limit } = ([], { limit }) :=
  handOut_of_ne_some fun _ _ h => by cases h

/-! ### Any requests -/

/-- The splitter after some requests. -/
def afterAll (s : Splitter) (requests : List Request) : Splitter :=
  requests.foldl (fun s request => (s.answer request).2) s

/-- The limit is kept. -/
def Bounded (limit : ℕ) (s : Splitter) : Prop := s.limit = limit ∧ s.buffer.length ≤ limit

variable {limit : ℕ}

/-- Handing out keeps within the limit. -/
theorem Bounded.next (h : Bounded limit s) : Bounded limit (s.after s.next).2 := by
  cases hn : s.next with
  | error e => exact h
  | ok r =>
      obtain ⟨object, s'⟩ := r
      cases object with
      | none => exact next_none hn ▸ h
      | some object => exact ⟨(limit_of_next hn).trans h.1, (length_of_next hn).le.trans h.2⟩

/-- No request takes the splitter beyond its limit. -/
theorem Bounded.answer (h : Bounded limit s) (request : Request) :
    Bounded limit (s.answer request).2 := by
  cases request with
  | next => exact h.next
  | clear => exact ⟨h.1, Nat.zero_le limit⟩
  | feed bytes =>
      simp only [Splitter.answer]
      cases hf : s.feed bytes with
      | error e => exact h
      | ok fed =>
          obtain ⟨hle, rfl⟩ := feed_eq_ok_iff.1 hf
          exact ⟨h.1, by simpa [after, Except.map, ← h.1] using hle⟩
  | add bytes =>
      simp only [Splitter.answer]
      cases hf : s.feed bytes with
      | error e => exact h
      | ok fed =>
          obtain ⟨hle, rfl⟩ := feed_eq_ok_iff.1 hf
          exact Bounded.next ⟨h.1, by simpa [← h.1] using hle⟩

/-- So does whatever a splitter is asked. -/
theorem Bounded.afterAll (h : Bounded limit s) (requests : List Request) :
    Bounded limit (s.afterAll requests) := by
  induction requests generalizing s with
  | nil => exact h
  | cons request rest ih => exact ih (h.answer request)

/-- A splitter refuses bytes exactly if they do not fit, and holds then what it held before. -/
theorem answer_feed (s : Splitter) (bytes : List UInt8) :
    s.answer (.feed bytes) =
      if s.limit < s.buffer.length + bytes.length then
        (.error (.overflow (s.buffer.length + bytes.length) s.limit), s)
      else (.ok none, s.extended bytes) := by
  simp only [answer, feed]
  split <;> rfl

/-- **A stream may be cut anywhere.** If no piece is refused, the objects handed out and what is
left do not depend on the cuts. After any requests whatsoever the buffer keeps to its limit, asking
for the next object does not fail as long as the limit lets a word of 32 bits count the braces, so
that handing out ends with no object, and bytes are refused exactly if they do not fit, which
changes nothing. -/
theorem splitting (limit : ℕ) :
    (∀ pieces pieces' r r', pieces.flatten = pieces'.flatten →
        takeIn { limit } pieces = .ok r → takeIn { limit } pieces' = .ok r' → r = r') ∧
      ∀ requests : List Request, ∀ s, s = afterAll { limit } requests →
        s.buffer.length ≤ limit ∧
        (limit < 2 ^ 31 → (∃ object s', s.next = .ok (object, s')) ∧
          s.handOut.2.next = .ok (none, s.handOut.2)) ∧
        ∀ bytes, ((∃ e, (s.answer (.feed bytes)).1 = .error e) ↔
              limit < s.buffer.length + bytes.length) ∧
          ((∃ e, (s.answer (.feed bytes)).1 = .error e) → (s.answer (.feed bytes)).2 = s) := by
  refine ⟨fun pieces pieces' r r' heq h h' => ?_, fun requests s hs => ?_⟩
  · rw [takeIn_eq (handOut_empty limit) h, takeIn_eq (handOut_empty limit) h', heq]
  · have hfresh : Bounded limit { limit } := ⟨rfl, Nat.zero_le limit⟩
    obtain ⟨hlimit, hlen⟩ : Bounded limit s := hs ▸ hfresh.afterAll requests
    refine ⟨hlen, fun hlt => ?_, fun bytes => ?_⟩
    · exact ⟨exists_next (hlen.trans_lt hlt), next_left_of_lt (hlen.trans_lt hlt)⟩
    · rw [answer_feed, hlimit]
      split
      · rename_i hover
        exact ⟨⟨fun _ => hover, fun _ => ⟨_, rfl⟩⟩, fun _ => rfl⟩
      · rename_i hfits
        refine ⟨⟨?_, fun hover => absurd hover hfits⟩, ?_⟩ <;>
          · rintro ⟨_, he⟩
            cases he

/-- An object with a brace in a string, and a brace behind it, in other pieces; and the requests of
a splitter that is sent closing braces first. -/
theorem splitting_quoted_brace :
    takeIn { limit := 6 } [[0x7b, 0x22, 0x7d], [0x22, 0x7d], [0x7b]] =
        .ok ([[0x7b, 0x22, 0x7d, 0x22, 0x7d]], { buffer := [0x7b], limit := 6 }) ∧
      ∃ object s',
        (afterAll { limit := 6 } [.add [0x7d, 0x22], .feed [0x7b, 0x7d, 0x7d], .next]).next =
          .ok (object, s') := by
  refine ⟨?_, ((splitting 6).2 _ _ rfl).2.1 (by decide) |>.1⟩
  have h : takeIn { limit := 6 } [[0x7b, 0x22], [0x7d, 0x22, 0x7d, 0x7b]] =
      .ok ([[0x7b, 0x22, 0x7d, 0x22, 0x7d]], { buffer := [0x7b], limit := 6 }) := by
    cbv
  obtain ⟨r, hr⟩ : ∃ r, takeIn { limit := 6 } [[0x7b, 0x22, 0x7d], [0x22, 0x7d], [0x7b]] = .ok r :=
    exists_takeIn (by decide)
  rw [hr, (splitting 6).1 _ _ _ _ (by rfl) hr h]

end Archivist.Splitter
