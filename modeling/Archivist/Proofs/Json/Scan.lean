import Archivist.Json.Splitter
import Mathlib.Algebra.Group.Nat.Defs
import Mathlib.Data.List.Infix

/-!
# Scanning for Objects

The scanner reads symbols one after the other and has no memory but its state. While it is inside an
object, the state is an open brace count and two flags (`Scan.inside`), and the count is a word of
32 bits: it is exact as long as fewer than `2 ^ 31` braces are open.

`Scan.Leads` says that the scanner goes through symbols from one state to another, and that it finds
nothing on the way if they end early. It looks at a bounded number of symbols only, because a
scanner that sees few symbols cannot miscount braces, however deep those nest that it does not see.
`Passes` is the case that it comes back to the state in which it was, and its rules are those of a
bracket language: nothing, one thing after the other, and something between two symbols that lead to
a state and back (`Passes.enclose`). `Span` says of symbols that they are an object.

## Main results

* `object_append`: what follows an object does not change where it is found.
* `object_ne_mismatch`: no brace closes that was never opened, if there are few symbols.
* `Span.object_append`: an object is found where it begins first.
-/

namespace Archivist.Scan

variable {α : Type} [Symbol α]

/-- Where the scanner goes on, it goes on with the rest. -/
theorem run_cons_of_go {s s' : State} {i : ℕ} {x : α} (h : step s i (Symbol.brace x) = .go s')
    (xs : List α) : run s i (x :: xs) = run s' (i + 1) xs := by
  rw [run, h]

/-- Where the scanner finds the end of an object, it stops. -/
theorem run_cons_of_found {s : State} {i start : ℕ} {x : α}
    (h : step s i (Symbol.brace x) = .found start) (xs : List α) :
    run s i (x :: xs) = .ok (some (start, i)) := by
  rw [run, h]

/-! ### More symbols -/

/-- What has been found stays found. -/
theorem run_append_of_some {s : State} {i : ℕ} {xs : List α} {found : ℕ × ℕ}
    (h : run s i xs = .ok (some found)) (more : List α) :
    run s i (xs ++ more) = .ok (some found) := by
  induction xs generalizing s i with
  | nil => simp [run] at h
  | cons x xs ih =>
      simp only [List.cons_append, run] at h ⊢
      split at h
      · exact ih h
      · exact h
      · cases h

/-- **What follows an object does not change where it is found.** -/
theorem object_append {xs : List α} {found : ℕ × ℕ} (h : object xs = .ok (some found))
    (more : List α) : object (xs ++ more) = .ok (some found) :=
  run_append_of_some h more

/-- What is found lies within the symbols. -/
theorem lt_of_run {s : State} {i : ℕ} {xs : List α} {start stop : ℕ}
    (h : run s i xs = .ok (some (start, stop))) : stop < i + xs.length := by
  induction xs generalizing s i with
  | nil => simp [run] at h
  | cons x xs ih =>
      simp only [run] at h
      simp only [List.length_cons]
      split at h
      · have := ih h
        omega
      · cases h
        omega
      · cases h

/-- An object ends within what was scanned. -/
theorem lt_of_object {xs : List α} {start stop : ℕ}
    (h : object xs = .ok (some (start, stop))) : stop < xs.length := by
  simpa using lt_of_run h

/-- In front of the first opening brace nothing changes the state. -/
theorem run_append_left {front : List α} (hf : ∀ x ∈ front, Symbol.brace x ≠ .opening) (i : ℕ)
    (xs : List α) : run {} i (front ++ xs) = run {} (i + front.length) xs := by
  induction front generalizing i with
  | nil => rfl
  | cons x front ih =>
      have hx := hf x List.mem_cons_self
      have hstep : step {} i (Symbol.brace x) = .go {} := by
        cases hb : Symbol.brace x with
        | opening => exact absurd hb hx
        | closing | quote | backslash | other => rfl
      rw [List.cons_append, run_cons_of_go hstep,
        ih fun y hy => hf y (List.mem_cons_of_mem x hy), List.length_cons, Nat.add_assoc,
        Nat.add_comm 1]

/-- Without an opening brace nothing is found. -/
theorem object_of_forall_ne {xs : List α} (h : ∀ x ∈ xs, Symbol.brace x ≠ .opening) :
    object xs = .ok none := by
  have hrun := run_append_left h 0 []
  rw [List.append_nil] at hrun
  rw [object, hrun]
  rfl

/-! ### Inside an object -/

/-- The state inside an object that began at `k`, with `n` open braces. -/
def inside (k n : ℕ) (inString escaped : Bool) : State where
  depth := Int32.ofNat n
  start := some k
  inString := inString
  escaped := escaped

/-- A depth that a word can hold is not zero unless it is. -/
theorem ofNat_ne_zero {n : ℕ} (h0 : 0 < n) (h : n < 2 ^ 31) : Int32.ofNat n ≠ 0 := by
  intro hn
  have hint := congrArg Int32.toInt hn
  rw [Int32.toInt_ofNat_of_lt h, Int32.toInt_zero] at hint
  omega

/-- Closing undoes opening. -/
theorem ofNat_succ_sub_one (n : ℕ) : Int32.ofNat (n + 1) - 1 = Int32.ofNat n := by simp

variable {k n i : ℕ}

/-- The first opening brace begins an object. -/
theorem step_first : step {} i .opening = .go (inside i 1 false false) := rfl

/-- An opening brace within an object goes one level down. -/
theorem step_opening (h0 : 0 < n) (h : n < 2 ^ 31) :
    step (inside k n false false) i .opening = .go (inside k (n + 1) false false) := by
  simp [step, inside, ofNat_ne_zero h0 h, Int32.ofNat_add]

/-- A closing brace goes one level up. -/
theorem step_closing (h0 : 0 < n) (h : n + 1 < 2 ^ 31) :
    step (inside k (n + 1) false false) i .closing = .go (inside k n false false) := by
  simp only [step, inside, ofNat_succ_sub_one, ofNat_ne_zero (Nat.succ_pos n) h,
    ofNat_ne_zero h0 (by omega)]
  rfl

/-- The last closing brace ends the object. -/
theorem step_last : step (inside k 1 false false) i .closing = .found k := by
  simp only [step, inside, ofNat_succ_sub_one, ofNat_ne_zero Nat.one_pos (by decide)]
  rfl

/-- A quote begins or ends a string. -/
theorem step_quote (b : Bool) : step (inside k n b false) i .quote = .go (inside k n (!b) false) :=
  rfl

/-- A backslash in a string escapes what follows. -/
theorem step_backslash :
    step (inside k n true false) i .backslash = .go (inside k n true true) := rfl

/-- What is escaped means nothing. -/
theorem step_escaped (b : Brace) :
    step (inside k n true true) i b = .go (inside k n true false) := rfl

/-- In a string only a quote and a backslash matter. -/
theorem step_inString {b : Brace} (hq : b ≠ .quote) (hb : b ≠ .backslash) :
    step (inside k n true false) i b = .go (inside k n true false) := by
  cases b with
  | quote => exact absurd rfl hq
  | backslash => exact absurd rfl hb
  | opening | closing | other => rfl

/-- Other symbols mean nothing. -/
theorem step_other (b : Bool) :
    step (inside k n b false) i .other = .go (inside k n b false) := rfl

/-! ### No mismatch -/

/-- The states that at most `most` symbols lead to. -/
inductive Reached (most : ℕ) : State → Prop
  | outside : Reached most {}
  | inside {k n : ℕ} (inString escaped : Bool) : 0 < n → n ≤ most →
      Reached most (inside k n inString escaped)

/-- One symbol leads to such a state again or ends an object. -/
theorem Reached.step {most : ℕ} {s : State} (h : Reached most s) (hm : most + 1 < 2 ^ 31) (i : ℕ)
    (b : Brace) :
    (∃ s', Scan.step s i b = .go s' ∧ Reached (most + 1) s') ∨
      ∃ start, Scan.step s i b = .found start := by
  cases h with
  | outside =>
      cases b with
      | opening =>
          exact .inl ⟨_, step_first, .inside false false Nat.one_pos (Nat.le_add_left 1 most)⟩
      | closing | quote | backslash | other => exact .inl ⟨_, rfl, .outside⟩
  | @inside k n inString escaped h0 hn =>
      have stays (q e : Bool) : Reached (most + 1) (Scan.inside k n q e) :=
        .inside q e h0 (by omega)
      cases escaped with
      | true => exact .inl ⟨_, rfl, stays inString false⟩
      | false =>
          cases inString with
          | true =>
              cases b with
              | quote => exact .inl ⟨_, rfl, stays false false⟩
              | backslash => exact .inl ⟨_, rfl, stays true true⟩
              | opening | closing | other => exact .inl ⟨_, rfl, stays true false⟩
          | false =>
              cases b with
              | quote => exact .inl ⟨_, rfl, stays true false⟩
              | backslash | other => exact .inl ⟨_, rfl, stays false false⟩
              | opening =>
                  exact .inl ⟨_, step_opening h0 (by omega), .inside _ _ n.succ_pos (by omega)⟩
              | closing =>
                  obtain ⟨n, rfl⟩ := Nat.exists_eq_succ_of_ne_zero h0.ne'
                  rcases Nat.eq_zero_or_pos n with rfl | h1
                  · exact .inr ⟨k, step_last⟩
                  · exact .inl ⟨_, step_closing h1 (by omega), .inside _ _ h1 (by omega)⟩

/-- Over a text that is not too long the scanner does not lose count. -/
theorem Reached.run_ne_mismatch {most : ℕ} {s : State} (h : Reached most s) (i : ℕ) {xs : List α}
    (hm : most + xs.length < 2 ^ 31) : ∃ found, run s i xs = .ok found := by
  induction xs generalizing most s i with
  | nil => exact ⟨none, rfl⟩
  | cons x xs ih =>
      rw [List.length_cons] at hm
      rcases h.step (by omega) i (Symbol.brace x) with ⟨s', hs, h'⟩ | ⟨start, hs⟩
      · obtain ⟨found, hf⟩ := ih h' (i + 1) (by omega)
        exact ⟨found, by rw [run_cons_of_go hs, hf]⟩
      · exact ⟨some (start, i), run_cons_of_found hs xs⟩

/-- **No brace closes that was never opened**: the scanner counts below zero only where it has
miscounted. -/
theorem object_ne_mismatch {xs : List α} (h : xs.length < 2 ^ 31) :
    ∃ found, object xs = .ok found :=
  (Reached.outside : Reached 0 {}).run_ne_mismatch 0 (by omega)

/-! ### Going through symbols -/

/-- At position `i` the scanner goes from `s` through the symbols to `s'`, and it finds nothing on
the way if they end early. Of the symbols and what follows them at most `most` are looked at. -/
def Leads (s : State) (i : ℕ) (s' : State) (most : ℕ) (xs : List α) : Prop :=
  ∀ (m : ℕ) (rest : List α), m ≤ most →
    run s i ((xs ++ rest).take m) =
      if m < xs.length then .ok none else run s' (i + xs.length) (rest.take (m - xs.length))

variable {s s' s'' : State} {most : ℕ} {xs ys : List α} {first last : α}

/-- No symbols lead nowhere. -/
theorem leads_nil : Leads s i s most ([] : List α) := fun _ _ _ => rfl

/-- A scanner that sees nothing finds nothing. -/
theorem leads_zero (h : xs ≠ []) : Leads s i s' 0 xs := by
  intro m rest hm
  obtain rfl := Nat.le_zero.1 hm
  rw [List.take_zero, if_pos (List.length_pos_iff.2 h)]
  rfl

/-- One symbol leads where its step goes. -/
theorem leads_singleton {x : α} (h : step s i (Symbol.brace x) = .go s') :
    Leads s i s' most [x] := by
  intro m rest _
  cases m with
  | zero => rfl
  | succ m => simp [run_cons_of_go h]

/-- What leads on from there to here leads on in all. -/
theorem Leads.append (hx : Leads s i s' most xs)
    (hy : Leads s' (i + xs.length) s'' (most - xs.length) ys) :
    Leads s i s'' most (xs ++ ys) := by
  intro m rest hm
  rw [List.append_assoc, hx m _ hm, List.length_append]
  split
  · rw [if_pos (by omega)]
  · rw [hy _ _ (by omega), Nat.add_assoc, Nat.sub_sub]
    split
    · rw [if_pos (by omega)]
    · rw [if_neg (by omega)]

/-- The scanner goes through the symbols and back to the state in which it was. -/
def Passes (s : State) (most : ℕ) (xs : List α) : Prop := ∀ i, Leads s i s most xs

/-- Symbols that pass and symbols that pass. -/
theorem Passes.append (hx : Passes s most xs) (hy : Passes s most ys) :
    Passes s most (xs ++ ys) := fun i =>
  (hx i).append fun m rest hm => hy _ m rest (by omega)

/-- Symbols each of which leaves the state as it is. -/
theorem passes_of_forall (h : ∀ x ∈ xs, ∀ i, step s i (Symbol.brace x) = .go s) :
    Passes s most xs := by
  induction xs with
  | nil => exact fun _ => leads_nil
  | cons x xs ih =>
      have hx : Passes s most [x] := fun i => leads_singleton (h x List.mem_cons_self i)
      exact hx.append (ih fun y hy => h y (List.mem_cons_of_mem x hy))

/-- Something between a symbol that leads from `s` to `s'` and one that leads back. -/
theorem Passes.enclose (hfirst : ∀ i, step s i (Symbol.brace first) = .go s')
    (hx : Passes s' (most - 1) xs) (hlast : ∀ i, step s' i (Symbol.brace last) = .go s) :
    Passes s most (first :: (xs ++ [last])) := by
  intro i
  have hend : Leads s' (i + 1) s (most - 1) (xs ++ [last]) :=
    (hx (i + 1)).append (leads_singleton (hlast _))
  exact (leads_singleton (hfirst i)).append hend

/-! ### Whole objects -/

/-- The symbols are an object: outside an object the scanner finds it when it has seen all of them
and nothing before. At most `most` symbols are looked at. -/
def Span (most : ℕ) (xs : List α) : Prop :=
  ∀ (i m : ℕ) (rest : List α), m ≤ most →
    run {} i ((xs ++ rest).take m) =
      if m < xs.length then .ok none else .ok (some (i, i + xs.length - 1))

/-- Something between the two braces of an object. -/
theorem span_of_passes (hfirst : Symbol.brace first = .opening)
    (hx : ∀ k, Passes (inside k 1 false false) (most - 1) xs)
    (hlast : Symbol.brace last = .closing) : Span most (first :: (xs ++ [last])) := by
  intro i m rest hm
  have hlead : Leads {} i (inside i 1 false false) most (first :: xs) :=
    (leads_singleton (hfirst ▸ step_first)).append (hx i (i + 1))
  have hlen : (first :: (xs ++ [last])).length = xs.length + 2 := by simp
  have hsplit : first :: (xs ++ [last]) ++ rest = first :: xs ++ last :: rest := by simp
  rw [hsplit, hlead m _ hm, hlen, List.length_cons]
  rcases Nat.lt_trichotomy m (xs.length + 1) with hlt | rfl | hgt
  · rw [if_pos hlt, if_pos (by omega)]
  · rw [if_neg (by omega), if_pos (by omega), Nat.sub_self]
    rfl
  · obtain ⟨d, rfl⟩ := Nat.exists_eq_add_of_lt hgt
    have hd : xs.length + 1 + d + 1 - (xs.length + 1) = d + 1 := by omega
    have hend : i + (xs.length + 2) - 1 = i + (xs.length + 1) := by omega
    rw [if_neg (by omega), if_neg (by omega), hd, hend, List.take_succ_cons,
      run_cons_of_found (hlast ▸ step_last)]

namespace Span

/-- **An object is found where it begins first**, whatever follows. -/
theorem object_append {front : List α} (hf : ∀ x ∈ front, Symbol.brace x ≠ .opening)
    (hx : Span most xs) (hmost : xs.length ≤ most) (rest : List α) :
    object (front ++ xs ++ rest) = .ok (some (front.length, front.length + xs.length - 1)) := by
  have hrun := hx front.length xs.length [] hmost
  rw [List.append_nil, List.take_length, if_neg (Nat.lt_irrefl _)] at hrun
  rw [List.append_assoc, object, run_append_left hf, Nat.zero_add]
  exact run_append_of_some hrun rest

/-- A scanned object is cut at its last brace, whatever follows it. -/
theorem object_self_append (hx : Span most xs) (hmost : xs.length ≤ most) (rest : List α) :
    object (xs ++ rest) = .ok (some (0, xs.length - 1)) := by
  have hnil : ∀ x ∈ ([] : List α), Symbol.brace x ≠ .opening := fun _ h => nomatch h
  simpa using hx.object_append hnil hmost rest

/-- As long as the object has not ended nothing is found. -/
theorem object_eq_none {front part : List α} (hf : ∀ x ∈ front, Symbol.brace x ≠ .opening)
    (hx : Span most xs) (hpart : part <+: xs) (hne : part ≠ xs) (hmost : part.length ≤ most) :
    object (front ++ part) = .ok none := by
  have hlt : part.length < xs.length :=
    lt_of_le_of_ne hpart.length_le fun hlen => hne (hpart.eq_of_length hlen)
  have hrun := hx front.length part.length [] hmost
  rw [List.append_nil, if_pos hlt, ← List.prefix_iff_eq_take.1 hpart] at hrun
  rw [object, run_append_left hf, Nat.zero_add, hrun]

/-- A text begins with one object at most. -/
theorem eq_of_append_eq {as bs : List α} (hx : Span most xs) (hy : Span most ys) (hxs : xs ≠ [])
    (hys : ys ≠ []) (hxm : xs.length ≤ most) (hym : ys.length ≤ most) (h : xs ++ as = ys ++ bs) :
    xs = ys := by
  have hfound := hx.object_self_append hxm as
  rw [h, hy.object_self_append hym bs] at hfound
  have hpx := List.length_pos_iff.2 hxs
  have hpy := List.length_pos_iff.2 hys
  have hlen : xs.length = ys.length := by
    simp only [Except.ok.injEq, Option.some.injEq, Prod.mk.injEq] at hfound
    omega
  exact (List.append_inj h hlen).1

end Span

end Archivist.Scan
