import Archivist.Embedding.Flight
import Mathlib.Data.Nat.Notation
import Mathlib.Tactic.ByContra
import Mathlib.Tactic.SplitIfs

/-!
# Fleets

Lookups that share a cache are numbered, and a `Fleet` has each of them at the position of its
number as long as it is under way. What one of them does changes one position, so all that is
counted over a fleet changes by what that position counted before and counts afterwards
(`Fleet.countIf_set`).
-/

namespace Archivist

namespace Flight

/-- The cell that a lookup is in. -/
def cell? (f : Flight) : Option ℕ :=
  match f.phase with
  | .arriving | .missed => none
  | .boarding n | .admitted n | .queuing n | .asking n => some n

/-- Whether a lookup waits for a cell. -/
def boards (n : ℕ) (f : Flight) : Bool :=
  match f.phase with
  | .boarding m => m = n
  | _ => false

/-- Whether it is the turn of a lookup to fill a cell. -/
def holds (n : ℕ) (f : Flight) : Bool :=
  match f.phase with
  | .admitted m | .queuing m | .asking m => m = n
  | _ => false

/-- Whether a lookup waits for a provider permit. -/
def isQueuing (f : Flight) : Bool :=
  match f.phase with
  | .queuing _ => true
  | _ => false

/-- Whether a lookup has asked the provider. -/
def isAsking (f : Flight) : Bool :=
  match f.phase with
  | .asking _ => true
  | _ => false

variable {f : Flight} {n : ℕ}

/-- Who fills a cell is in it. -/
theorem cell?_of_holds (h : f.holds n = true) : f.cell? = some n := by
  cases hp : f.phase <;> simp [holds, hp] at h <;> simp [cell?, hp, h]

/-- Who waits for a cell is in it. -/
theorem cell?_of_boards (h : f.boards n = true) : f.cell? = some n := by
  cases hp : f.phase <;> simp [boards, hp] at h
  simp [cell?, hp, h]

/-- Whose turn it is does not wait for it. -/
theorem boards_of_holds (h : f.holds n = true) : f.boards n = false := by
  cases hp : f.phase <;> simp [holds, hp] at h <;> simp [boards, hp]

/-- Who has asked the provider fills a cell. -/
theorem exists_of_isAsking (h : f.isAsking = true) : ∃ n, f.phase = .asking n := by
  cases hp : f.phase <;> simp [isAsking, hp] at h
  exact ⟨_, rfl⟩

end Flight

/-- Lookups under way, each at the position of its number. -/
abbrev Fleet : Type := List (Option Flight)

namespace Fleet

variable {fs : Fleet} {i j : ℕ} {x y : Option Flight} {p : Flight → Bool}

/-- The lookup with a number, if it is under way. -/
def flight? (fs : Fleet) (i : ℕ) : Option Flight := fs[i]?.join

/-- The number of lookups with a property. -/
def countIf (p : Flight → Bool) (fs : Fleet) : ℕ := fs.countP (·.any p)

/-- The lookup with a number is under way and has a property. -/
def Has (p : Flight → Bool) (fs : Fleet) (i : ℕ) : Prop := (fs.flight? i).any p = true

/-- No lookup is under way. -/
def Idle (fs : Fleet) : Prop := ∀ i, fs.flight? i = none

/-- A lookup under way stands at its place. -/
theorem getElem?_of_flight? {f : Flight} (h : fs.flight? i = some f) : fs[i]? = some (some f) :=
  Option.join_eq_some_iff.1 h

/-- The lookup at a place is what stands there. -/
theorem flight?_of_getElem? (h : fs[i]? = some x) : fs.flight? i = x := by
  rw [flight?, h, Option.join_some]

/-- A lookup under way is in the fleet. -/
theorem mem_of_flight? {f : Flight} (h : fs.flight? i = some f) : some f ∈ fs :=
  List.mem_of_getElem? (getElem?_of_flight? h)

/-- Whoever is in the fleet has a number. -/
theorem exists_of_mem {f : Flight} (h : some f ∈ fs) : ∃ i, fs.flight? i = some f := by
  obtain ⟨i, hi⟩ := List.mem_iff_getElem?.1 h
  exact ⟨i, flight?_of_getElem? hi⟩

/-- One lookup is exchanged for another, and the others stay. -/
theorem flight?_set (h : fs[i]? = some x) (y : Option Flight) (j : ℕ) :
    flight? (fs.set i y) j = if j = i then y else fs.flight? j := by
  obtain ⟨hlt, -⟩ := List.getElem?_eq_some_iff.1 h
  by_cases hj : j = i
  · subst hj
    rw [if_pos rfl, flight?, List.getElem?_set_self hlt, Option.join_some]
  · rw [if_neg hj, flight?, List.getElem?_set_ne (Ne.symm hj), ← flight?]

/-- The lookups of two fleets, those of the second numbered on. -/
theorem flight?_append (fs gs : Fleet) (j : ℕ) :
    flight? (fs ++ gs) j = if j < fs.length then fs.flight? j else gs.flight? (j - fs.length) := by
  rw [flight?, List.getElem?_append]
  split <;> rfl

/-- Positions without a lookup do not matter. -/
theorem flight?_append_none (fs : Fleet) (j : ℕ) : flight? (fs ++ [none]) j = fs.flight? j := by
  rw [flight?_append]
  split
  · rfl
  · rename_i hlt
    have hend : fs.flight? j = none := by
      rw [flight?, List.getElem?_eq_none (Nat.le_of_not_lt hlt), Option.join_none]
    rw [hend]
    cases j - fs.length <;> rfl

/-- A new lookup takes the place behind all others. -/
theorem append_some (fs : Fleet) (f : Flight) :
    fs ++ [some f] = List.set (fs ++ [none]) fs.length (some f) := by
  rw [List.set_append_right _ _ (Nat.le_refl _), Nat.sub_self, List.set_cons_zero]

/-- A place that is added is free. -/
theorem getElem?_append_none (fs : Fleet) : (fs ++ [none])[fs.length]? = some none := by
  rw [List.getElem?_append_right (Nat.le_refl _), Nat.sub_self, List.getElem?_cons_zero]

/-- Lookups of two fleets are counted together. -/
@[simp] theorem countIf_append (p : Flight → Bool) (fs gs : Fleet) :
    countIf p (fs ++ gs) = fs.countIf p + gs.countIf p := List.countP_append

/-- One lookup counts if it has the property. -/
theorem countIf_singleton (p : Flight → Bool) (x : Option Flight) :
    countIf p [x] = (x.any p).toNat := by
  cases hx : x.any p <;> simp [countIf, hx]

/-- A lookup by itself. -/
theorem eq_of_flight?_singleton {f : Flight} (h : flight? [x] i = some f) : i = 0 ∧ x = some f := by
  cases i with
  | zero => exact ⟨rfl, h⟩
  | succ i => cases h

/-- One lookup does not count without the property. -/
theorem countIf_singleton_of_not {f : Flight} (h : p f = false) : countIf p [some f] = 0 := by
  rw [countIf_singleton, Option.any_some, h, Bool.toNat_false]

/-- **What one position counts is exchanged**, and nothing else. -/
theorem countIf_set (p : Flight → Bool) (h : fs[i]? = some x) (y : Option Flight) :
    countIf p (fs.set i y) + (x.any p).toNat = fs.countIf p + (y.any p).toNat := by
  obtain ⟨hlt, rfl⟩ := List.getElem?_eq_some_iff.1 h
  have hcount : (fs[i].any p).toNat ≤ fs.countP (·.any p) := by
    cases hp : fs[i].any p with
    | false => exact Nat.zero_le _
    | true => exact List.countP_pos_iff.2 ⟨fs[i], List.getElem_mem hlt, hp⟩
  have hset := List.countP_set (p := fun o : Option Flight => o.any p) (a := y) hlt
  rw [countIf, countIf, hset]
  cases hp : fs[i].any p <;> cases hq : y.any p <;> rw [hp] at hcount <;>
    simp only [Bool.toNat_true, Bool.toNat_false] at hcount ⊢ <;> simp <;> omega

/-- The number stays if the lookups that are exchanged agree about the property. -/
theorem countIf_set_of_eq (h : fs[i]? = some x) (heq : x.any p = y.any p) :
    countIf p (fs.set i y) = fs.countIf p := by
  have := countIf_set p h y
  rw [heq] at this
  exact Nat.add_right_cancel this

/-- The number goes up by one with a lookup that gets the property. -/
theorem countIf_set_enter (h : fs[i]? = some x) (hx : x.any p = false) (hy : y.any p = true) :
    countIf p (fs.set i y) = fs.countIf p + 1 := by
  have := countIf_set p h y
  rwa [hx, hy] at this

/-- The number goes down by one with a lookup that has had the property. -/
theorem countIf_set_leave (h : fs[i]? = some x) (hx : x.any p = true) (hy : y.any p = false) :
    fs.countIf p = countIf p (fs.set i y) + 1 := by
  have := countIf_set p h y
  rw [hx, hy] at this
  exact this.symm

/-- One lookup with the property is enough to count. -/
theorem countIf_pos {f : Flight} (h : fs.flight? i = some f) (hp : p f = true) :
    0 < fs.countIf p :=
  List.countP_pos_iff.2 ⟨some f, mem_of_flight? h, hp⟩

/-- If any are counted there is one with the property. -/
theorem exists_of_countIf_pos (h : 0 < fs.countIf p) :
    ∃ i f, fs.flight? i = some f ∧ p f = true := by
  obtain ⟨x, hx, hp⟩ := List.countP_pos_iff.1 h
  obtain ⟨f, rfl, hf⟩ := (Option.any_eq_true _ _).1 hp
  obtain ⟨i, hi⟩ := exists_of_mem hx
  exact ⟨i, f, hi, hf⟩

/-- None is counted if none has the property. -/
theorem countIf_eq_zero_iff :
    fs.countIf p = 0 ↔ ∀ i f, fs.flight? i = some f → p f = false := by
  refine ⟨fun hzero i f hi => Bool.eq_false_iff.2 fun hf => ?_, fun hnone => ?_⟩
  · exact Nat.ne_of_gt (countIf_pos hi hf) hzero
  · by_contra hne
    obtain ⟨i, f, hi, hf⟩ := exists_of_countIf_pos (Nat.pos_of_ne_zero hne)
    rw [hnone i f hi] at hf
    cases hf

/-- Where nobody is under way, nobody is counted. -/
theorem countIf_eq_zero_of_idle (h : fs.Idle) (p : Flight → Bool) : fs.countIf p = 0 :=
  countIf_eq_zero_iff.2 fun i f hi => by
    rw [h i] at hi
    cases hi

/-- Who has one of two properties has the first or the second. -/
theorem countIf_or_le (fs : Fleet) (p q : Flight → Bool) :
    fs.countIf (fun f => p f || q f) ≤ fs.countIf p + fs.countIf q := by
  induction fs with
  | nil => exact Nat.le_refl 0
  | cons o rest ih =>
      simp only [countIf, List.countP_cons] at ih ⊢
      cases o with
      | none => simpa using ih
      | some f => cases hp : p f <;> cases hq : q f <;> simp [hp, hq] <;> omega

/-- Who are counted by several counts of one at most are not more than these counts. -/
theorem countIf_le_length {q : ℕ → Flight → Bool} {ns : List ℕ}
    (h : ∀ i f, fs.flight? i = some f → p f = true → ∃ n ∈ ns, q n f = true)
    (hone : ∀ n, fs.countIf (q n) ≤ 1) : fs.countIf p ≤ ns.length := by
  induction ns generalizing p with
  | nil =>
      by_contra hne
      obtain ⟨i, f, hi, hf⟩ := exists_of_countIf_pos (Nat.lt_of_not_le hne)
      obtain ⟨n, hn, -⟩ := h i f hi hf
      cases hn
  | cons n rest ih =>
      have hrest := ih (p := fun f => p f && !q n f) fun i f hi hf => by
        simp only [Bool.and_eq_true, Bool.not_eq_true'] at hf
        obtain ⟨m, hm, hq⟩ := h i f hi hf.1
        rcases List.mem_cons.1 hm with rfl | hm
        · rw [hf.2] at hq
          cases hq
        · exact ⟨m, hm, hq⟩
      have hsplit : fs.countIf p ≤ fs.countIf (q n) + fs.countIf fun f => p f && !q n f := by
        refine Nat.le_trans ?_ (countIf_or_le fs (q n) _)
        refine List.countP_mono_left fun o _ ho => ?_
        obtain ⟨f, rfl, hf⟩ := (Option.any_eq_true _ _).1 ho
        simp [hf]
      have := hone n
      rw [List.length_cons]
      omega

/-! ### Single lookups -/

/-- A lookup under way has its properties. -/
theorem has_of_flight? {f : Flight} (h : fs.flight? i = some f) (hp : p f = true) : fs.Has p i := by
  rwa [Has, h]

/-- Who has a property is under way. -/
theorem Has.exists (h : fs.Has p i) : ∃ f, fs.flight? i = some f ∧ p f = true :=
  (Option.any_eq_true _ _).1 h

/-- Where a lookup is by itself, nobody does what it does not do. -/
theorem not_has_singleton {f : Flight} (h : p f = false) (i : ℕ) : ¬ Has p [some f] i := by
  intro hi
  obtain ⟨g, hg, hp⟩ := hi.exists
  cases (eq_of_flight?_singleton hg).2
  rw [h] at hp
  cases hp

/-- A lookup keeps its property, or never had it. -/
theorem has_set_of_eq (h : fs[i]? = some x) (heq : x.any p = y.any p) (j : ℕ) :
    Has p (fs.set i y) j ↔ fs.Has p j := by
  rw [Has, Has, flight?_set h]
  split_ifs with hj
  · rw [hj, flight?_of_getElem? h, heq]
  · rfl

/-- A lookup takes on a property. -/
theorem has_set_enter (h : fs[i]? = some x) (hy : y.any p = true) (j : ℕ) :
    Has p (fs.set i y) j ↔ fs.Has p j ∨ j = i := by
  rw [Has, Has, flight?_set h]
  split_ifs with hj
  · simp only [hy, hj, or_true]
  · simp only [hj, or_false]

/-- A lookup loses a property. -/
theorem has_set_leave (h : fs[i]? = some x) (hy : y.any p = false) (j : ℕ) :
    Has p (fs.set i y) j ↔ fs.Has p j ∧ j ≠ i := by
  rw [Has, Has, flight?_set h]
  split_ifs with hj
  · simp [hy, hj]
  · simp [hj]

end Fleet

end Archivist
