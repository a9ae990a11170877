import Archivist.Json.Shape
import Mathlib.Data.List.Nodup
import Mathlib.Data.Nat.Notation
import Mathlib.Data.String.Basic

/-!
# Records

The members of an object stand under their own keys or under other names of a slot. Once each is
given the key of its slot (`Shape.named`), reading an object is simple: it is a record if every
value passes the check of its slot, no slot has two values and no required slot is without one.

A member that is filled in under a key without other names changes what is read for this key and
nothing else. If the slot has other names, the member may stand there already, and then the object
is a record no longer.

## Main results

* `Shape.gather_eq_ok_iff`: which objects are records.
* `Shape.gather_insert`: a member under a plain key can always be filled in.
* `Shape.gather_erase`: a member that may be missing can be taken out.
* `Shape.gather_insert_repeated`: a member cannot be filled in beside one of another name.
-/

namespace Archivist

/-- What is done in two steps comes out if both do. -/
theorem bind_eq_ok_iff {ε α β : Type} {x : Except ε α} {f : α → Except ε β} {b : β} :
    x >>= f = .ok b ↔ ∃ a, x = .ok a ∧ f a = .ok b := by
  cases x with
  | error e => exact iff_of_false nofun fun ⟨a, h, _⟩ => nomatch h
  | ok a => exact ⟨fun h => ⟨a, rfl, h⟩, fun ⟨_, h, h'⟩ => by cases h; exact h'⟩

/-- What comes out of a list was made from one of its elements. -/
theorem exists_of_mapM {ε α β : Type} {f : α → Except ε β} {xs : List α} {ys : List β}
    (h : xs.mapM f = .ok ys) {y : β} (hy : y ∈ ys) : ∃ x ∈ xs, f x = .ok y := by
  induction xs generalizing ys with
  | nil =>
      cases h
      cases hy
  | cons x xs ih =>
      rw [List.mapM_cons] at h
      obtain ⟨y', hy', h⟩ := bind_eq_ok_iff.1 h
      obtain ⟨ys', hys', ⟨⟩⟩ := bind_eq_ok_iff.1 h
      rcases List.mem_cons.1 hy with rfl | hy
      · exact ⟨x, List.mem_cons_self, hy'⟩
      · obtain ⟨x', hx', hfx'⟩ := ih hys' hy
        exact ⟨x', List.mem_cons_of_mem _ hx', hfx'⟩

namespace Members

variable {key : String} {v : Json} {ms : Members}

/-- A key that is inserted has the value that is inserted. -/
theorem get?_insert (key other : String) (v : Json) (ms : Members) :
    (ms.insert key v).get? other = if key = other then some v else ms.get? other := by
  induction ms with
  | nil => rfl
  | cons m ms ih =>
      obtain ⟨k, x⟩ := m
      simp only [insert]
      split_ifs with hlt heq
      all_goals grind [get?]

/-- A key that is taken out is gone, and no other. -/
theorem get?_erase (key other : String) (ms : Members) :
    (ms.erase key).get? other = if key = other then none else ms.get? other := by
  induction ms with
  | nil => exact (ite_self _).symm
  | cons m ms ih =>
      obtain ⟨k, x⟩ := m
      simp only [erase, List.filter_cons] at ih ⊢
      split_ifs <;> grind [get?]

/-- A value that is found is there under its key. -/
theorem mem_of_get? (h : ms.get? key = some v) : (key, v) ∈ ms := by
  induction ms with
  | nil => cases h
  | cons m ms ih =>
      obtain ⟨k, x⟩ := m
      rw [get?] at h
      split at h
      · rename_i heq
        cases h
        exact heq ▸ List.mem_cons_self
      · exact List.mem_cons_of_mem _ (ih h)

/-- The members with a key set to a value, or without the key. -/
def assign (key : String) (v : Option Json) (ms : Members) : Members :=
  v.elim (ms.erase key) fun v => ms.insert key v

/-- `ms'` gives a key this value, if there is one, and every other key what `ms` gives it. -/
structure Updated (key : String) (v : Option Json) (ms ms' : Members) : Prop where
  self : ms'.get? key = v
  other : ∀ k ≠ key, ms'.get? k = ms.get? k

/-- What inserting does. -/
theorem updated_insert (key : String) (v : Json) (ms : Members) :
    Updated key (some v) ms (ms.insert key v) where
  self := by rw [get?_insert, if_pos rfl]
  other := fun k hk => by rw [get?_insert, if_neg hk.symm]

/-- What taking out does. -/
theorem updated_erase (key : String) (ms : Members) : Updated key none ms (ms.erase key) where
  self := by rw [get?_erase, if_pos rfl]
  other := fun k hk => by rw [get?_erase, if_neg hk.symm]

/-- A key without a value is not there. -/
theorem get?_eq_none_iff : ms.get? key = none ↔ key ∉ ms.map Prod.fst := by
  induction ms with
  | nil => simp [get?]
  | cons m ms ih =>
      obtain ⟨k, x⟩ := m
      rw [get?]
      split <;> grind

/-- The members are sorted by key, so no key is there twice. -/
def Sorted (ms : Members) : Prop := List.Pairwise (fun a b => a.1 < b.1) ms

instance : DecidablePred Sorted := fun ms =>
  inferInstanceAs (Decidable (List.Pairwise (fun a b => a.1 < b.1) ms))

/-- Nothing is taken out if there is nothing. -/
theorem erase_eq_self (h : key ∉ ms.map Prod.fst) : ms.erase key = ms := by
  refine List.filter_eq_self.2 fun m hm => ?_
  have hne : m.1 ≠ key := fun heq => h (heq ▸ List.mem_map_of_mem hm)
  simpa using hne

/-- To set a key in sorted members is to replace what is there under this key. -/
theorem Sorted.insert_perm (h : ms.Sorted) (key : String) (v : Json) :
    (ms.insert key v).Perm ((key, v) :: ms.erase key) := by
  induction ms with
  | nil => exact .refl _
  | cons m ms ih =>
      obtain ⟨k, x⟩ := m
      obtain ⟨hfirst, hrest⟩ := List.pairwise_cons.1 h
      have hbehind : ∀ {k' : String}, k' ≤ k → k' ∉ ms.map Prod.fst := by
        intro k' hle hmem
        obtain ⟨m, hm, rfl⟩ := List.mem_map.1 hmem
        exact absurd (hfirst m hm) (not_lt.2 hle)
      simp only [Members.insert]
      split_ifs with hlt heq
      · have hself : Members.erase key ((k, x) :: ms) = (k, x) :: ms :=
          erase_eq_self (by simpa using ⟨hlt.ne, by simpa using hbehind hlt.le⟩)
        rw [hself]
      · subst heq
        have hself : Members.erase key ((key, x) :: ms) = ms := by
          have hms := erase_eq_self (hbehind le_rfl)
          simpa [erase] using hms
        rw [hself]
      · have hself : Members.erase key ((k, x) :: ms) = (k, x) :: Members.erase key ms := by
          simp [erase, Ne.symm heq]
        rw [hself]
        exact ((ih hrest).cons _).trans (.swap _ _ _)

/-- An insertion adds nothing but what is inserted. -/
theorem mem_insert {m : String × Json} (h : m ∈ ms.insert key v) : m = (key, v) ∨ m ∈ ms := by
  induction ms with
  | nil => exact .inl (List.mem_singleton.1 h)
  | cons m' ms ih =>
      obtain ⟨k, x⟩ := m'
      simp only [Members.insert] at h
      split_ifs at h <;> grind

/-- An insertion keeps members in order. -/
theorem Sorted.insert (h : ms.Sorted) (key : String) (v : Json) : (ms.insert key v).Sorted := by
  induction ms with
  | nil => exact List.pairwise_singleton _ _
  | cons m ms ih =>
      obtain ⟨k, x⟩ := m
      obtain ⟨hfirst, hrest⟩ := List.pairwise_cons.1 h
      simp only [Members.insert]
      split_ifs with hlt heq
      · refine List.pairwise_cons.2 ⟨fun m hm => ?_, h⟩
        rcases List.mem_cons.1 hm with rfl | hm
        · exact hlt
        · exact hlt.trans (hfirst m hm)
      · exact List.pairwise_cons.2 ⟨fun m hm => heq ▸ hfirst m hm, hrest⟩
      · refine List.pairwise_cons.2 ⟨fun m hm => ?_, ih hrest⟩
        rcases mem_insert hm with rfl | hm
        · exact lt_of_le_of_ne (not_lt.1 hlt) (Ne.symm heq)
        · exact hfirst m hm

/-- So does filling in or taking out. -/
theorem Sorted.assign (h : ms.Sorted) (key : String) (v : Option Json) :
    (ms.assign key v).Sorted := by
  cases v with
  | none => exact List.Pairwise.filter _ h
  | some v => exact h.insert key v

/-- What a text stands for has its members sorted. -/
theorem sorted_canonicalMembers (ms done : Members) (h : done.Sorted) :
    (Json.canonicalMembers ms done).Sorted := by
  induction ms generalizing done with
  | nil => rwa [Json.canonicalMembers]
  | cons m ms ih =>
      obtain ⟨k, x⟩ := m
      rw [Json.canonicalMembers]
      exact ih _ (h.insert k _)

end Members

namespace Shape

variable {shape : Shape} {slot : Slot} {done out ms : Members} {v : Json}

/-- The members that belong to a slot, each under the key of its slot. -/
def named (shape : Shape) (ms : Members) : Members :=
  ms.filterMap fun m => (shape.slot? m.1).map fun slot => (slot.key, m.2)

/-- Every member passes the check of its slot. -/
def Checks (shape : Shape) (ms : Members) : Prop :=
  ∀ m ∈ ms, ∀ slot, shape.slot? m.1 = some slot → slot.check m.2 = .ok ()

/-- A member that has no slot is passed over. -/
theorem named_cons_none {m : String × Json} (h : shape.slot? m.1 = none) (ms : Members) :
    shape.named (m :: ms) = shape.named ms := by
  simp [named, h]

/-- A member that has a slot is taken under the key of the slot. -/
theorem named_cons_some {m : String × Json} (h : shape.slot? m.1 = some slot) (ms : Members) :
    shape.named (m :: ms) = (slot.key, m.2) :: shape.named ms := by
  simp [named, h]

/-- Members are checked one by one. -/
theorem checks_cons {m : String × Json} :
    shape.Checks (m :: ms) ↔
      (∀ slot, shape.slot? m.1 = some slot → slot.check m.2 = .ok ()) ∧ shape.Checks ms :=
  List.forall_mem_cons

/-- A key that has been read is not read again. -/
theorem visit_cons_of_mem {m : String × Json} (h : shape.slot? m.1 = some slot)
    (hk : slot.key ∈ done.map Prod.fst) :
    shape.visit done (m :: ms) = .error (.repeated slot.key) := by
  have hsome : (done.get? slot.key).isSome := by
    rw [Option.isSome_iff_ne_none]
    exact fun hnone => Members.get?_eq_none_iff.1 hnone hk
  simp only [visit, h]
  rw [if_pos hsome]

/-- A member is visited: it is checked and kept unless its key has been read. -/
theorem visit_cons_of_not_mem {m : String × Json} (h : shape.slot? m.1 = some slot)
    (hk : slot.key ∉ done.map Prod.fst) :
    shape.visit done (m :: ms) =
      slot.check m.2 >>= fun _ => shape.visit (done ++ [(slot.key, m.2)]) ms := by
  simp only [visit, h, Members.get?_eq_none_iff.2 hk]
  rfl

/-- **Members are read if they pass their checks and no slot has two of them.** -/
theorem visit_eq_ok_iff (hdone : (done.map Prod.fst).Nodup) :
    shape.visit done ms = .ok out ↔ shape.Checks ms ∧
      ((done ++ shape.named ms).map Prod.fst).Nodup ∧ out = done ++ shape.named ms := by
  induction ms generalizing done with
  | nil =>
      have hnil : shape.named [] = [] := rfl
      simp [visit, Checks, hnil, hdone, eq_comm]
  | cons m ms ih =>
      rw [checks_cons]
      cases hs : shape.slot? m.1 with
      | none =>
          rw [named_cons_none hs, visit, hs]
          simpa using ih hdone
      | some slot =>
          rw [named_cons_some hs]
          by_cases hk : slot.key ∈ done.map Prod.fst
          · rw [visit_cons_of_mem hs hk]
            refine iff_of_false nofun fun h => ?_
            rw [List.map_append, List.map_cons, List.nodup_append] at h
            exact h.2.1.2.2 _ hk _ List.mem_cons_self rfl
          · have hdone' : ((done ++ [(slot.key, m.2)]).map Prod.fst).Nodup := by
              rw [List.map_append, List.map_singleton]
              exact (List.perm_append_singleton _ _).nodup_iff.2 (List.nodup_cons.2 ⟨hk, hdone⟩)
            rw [visit_cons_of_not_mem hs hk]
            cases hc : slot.check m.2 with
            | error e => simp [hc, bind, Except.bind]
            | ok u =>
                have hnext := ih hdone'
                rw [List.append_assoc, List.singleton_append] at hnext
                simpa [hc, bind, Except.bind] using hnext

/-- A visit succeeds if all members pass their checks and no key is read twice. -/
theorem visit_nil_eq_ok_iff : shape.visit [] ms = .ok out ↔ shape.Checks ms ∧
    ((shape.named ms).map Prod.fst).Nodup ∧ out = shape.named ms :=
  visit_eq_ok_iff List.nodup_nil

/-- If every member passes its check, reading fails only over a slot that has two. -/
theorem visit_eq_error {m : Mismatch} (hms : shape.Checks ms) (h : shape.visit done ms = .error m) :
    ∃ k, m = .repeated k ∧ 1 < ((done ++ shape.named ms).map Prod.fst).count k := by
  induction ms generalizing done with
  | nil => cases h
  | cons m' ms ih =>
      obtain ⟨hfirst, hrest⟩ := checks_cons.1 hms
      cases hs : shape.slot? m'.1 with
      | none =>
          rw [visit, hs] at h
          rw [named_cons_none hs]
          exact ih hrest h
      | some slot =>
          rw [named_cons_some hs]
          by_cases hk : slot.key ∈ done.map Prod.fst
          · rw [visit_cons_of_mem hs hk] at h
            cases h
            refine ⟨slot.key, rfl, ?_⟩
            have hpos := List.count_pos_iff.2 hk
            rw [List.map_append, List.map_cons, List.count_append, List.count_cons_self]
            omega
          · rw [visit_cons_of_not_mem hs hk, hfirst slot hs] at h
            obtain ⟨k, hm, hcount⟩ := ih hrest h
            refine ⟨k, hm, ?_⟩
            rwa [List.append_assoc, List.singleton_append] at hcount

/-! ### Objects -/

/-- Refuses members among which a required one is missing. -/
def require (done : Members) (slot : Slot) : Except Mismatch (ForInStep PUnit) := do
  if !slot.optional && (Members.get? slot.key done).isNone then
    throw (.missing slot.key)
  pure (.yield PUnit.unit)

/-- Gathering is a visit, and then a search for what is missing. -/
theorem gather_obj (shape : Shape) (ms : Members) :
    shape.gather (.obj ms) = shape.visit [] ms >>= fun done =>
      forIn shape.slots PUnit.unit (fun slot _ => require done slot) >>= fun _ => .ok done := rfl

/-- What is there or need not be is not missing. -/
theorem require_eq_ok (h : slot.optional = false → slot.key ∈ done.map Prod.fst) :
    require done slot = .ok (.yield PUnit.unit) := by
  rw [require, if_neg]
  · rfl
  · rw [Bool.and_eq_true, Bool.not_eq_true', Option.isNone_iff_eq_none, Members.get?_eq_none_iff]
    exact fun hmissing => hmissing.2 (h hmissing.1)

/-- What has to be there and is not is missing. -/
theorem require_eq_error (hslot : slot.optional = false) (h : slot.key ∉ done.map Prod.fst) :
    require done slot = .error (.missing slot.key) := by
  rw [require, if_pos]
  · rfl
  · rw [Bool.and_eq_true, Bool.not_eq_true', Option.isNone_iff_eq_none, Members.get?_eq_none_iff]
    exact ⟨hslot, h⟩

/-- Nothing is refused if and only if nothing is missing. -/
theorem forIn_require_eq_ok_iff (slots : List Slot) (done : Members) :
    forIn slots PUnit.unit (fun slot _ => require done slot) = .ok PUnit.unit ↔
      ∀ slot ∈ slots, slot.optional = false → slot.key ∈ done.map Prod.fst := by
  induction slots with
  | nil => exact iff_of_true rfl (List.forall_mem_nil _)
  | cons slot slots ih =>
      rw [List.forall_mem_cons, List.forIn_cons, ← ih]
      by_cases h : slot.optional = false → slot.key ∈ done.map Prod.fst
      · rw [require_eq_ok h]
        exact (and_iff_right h).symm
      · obtain ⟨hslot, hkey⟩ := Classical.not_imp.1 h
        rw [require_eq_error hslot hkey]
        exact iff_of_false nofun fun hall => h hall.1

/-- **An object is a record** if its members pass their checks, no slot has two of them and no
required slot has none. -/
theorem gather_eq_ok_iff :
    shape.gather (.obj ms) = .ok out ↔ shape.Checks ms ∧
      ((shape.named ms).map Prod.fst).Nodup ∧
      (∀ slot ∈ shape.slots, slot.optional = false → slot.key ∈ (shape.named ms).map Prod.fst) ∧
      out = shape.named ms := by
  rw [gather_obj, bind_eq_ok_iff]
  constructor
  · rintro ⟨done, hvisit, h⟩
    obtain ⟨⟨⟩, hrequire, ⟨⟩⟩ := bind_eq_ok_iff.1 h
    obtain ⟨hchecks, hnodup, rfl⟩ := visit_nil_eq_ok_iff.1 hvisit
    exact ⟨hchecks, hnodup, (forIn_require_eq_ok_iff _ _).1 hrequire, rfl⟩
  · rintro ⟨hchecks, hnodup, hrequire, rfl⟩
    refine ⟨_, visit_nil_eq_ok_iff.2 ⟨hchecks, hnodup, rfl⟩, ?_⟩
    exact bind_eq_ok_iff.2 ⟨_, (forIn_require_eq_ok_iff _ _).2 hrequire, rfl⟩

/-! ### Filling in a member -/

/-- The slot is known by its key alone. -/
structure Plain (shape : Shape) (slot : Slot) : Prop where
  slot?_eq : shape.slot? slot.key = some slot
  eq_key : ∀ k s, shape.slot? k = some s → s.key = slot.key → k = slot.key

/-- A member that passes the check of its slot may be inserted. -/
theorem Checks.insert {key : String} (h : shape.Checks ms) (hkey : shape.slot? key = some slot)
    (hv : slot.check v = .ok ()) : shape.Checks (ms.insert key v) := by
  intro m hm s hs
  rcases Members.mem_insert hm with rfl | hm
  · rw [hkey] at hs
    cases hs
    exact hv
  · exact h m hm s hs

/-- The members under their own keys, with one that is set. -/
theorem named_insert_perm {key : String} (h : ms.Sorted) (hkey : shape.slot? key = some slot)
    (v : Json) :
    (shape.named (ms.insert key v)).Perm ((slot.key, v) :: shape.named (ms.erase key)) := by
  have hperm := (h.insert_perm key v).filterMap fun m =>
    (shape.slot? m.1).map fun slot => (slot.key, m.2)
  rwa [← named, ← named, named_cons_some hkey] at hperm

/-- What is read under a plain key is what stands there. -/
theorem Plain.get?_named (h : shape.Plain slot) (ms : Members) :
    (shape.named ms).get? slot.key = ms.get? slot.key := by
  induction ms with
  | nil => rfl
  | cons m ms ih =>
      obtain ⟨k, x⟩ := m
      rw [Members.get?]
      cases hs : shape.slot? k with
      | none =>
          have hne : k ≠ slot.key := by
            rintro rfl
            exact nomatch hs.symm.trans h.slot?_eq
          rw [named_cons_none hs, if_neg hne, ih]
      | some s =>
          rw [named_cons_some hs, Members.get?]
          by_cases hk : k = slot.key
          · subst hk
            cases hs.symm.trans h.slot?_eq
            rw [if_pos rfl, if_pos rfl]
          · rw [if_neg hk, if_neg fun heq => hk (h.eq_key k s hs heq), ih]

/-- A member that is set changes nothing that is read under the keys of other slots. -/
theorem get?_named_insert_of_ne {key k : String} (hkey : shape.slot? key = some slot)
    (hne : slot.key ≠ k) (v : Json) (ms : Members) :
    (shape.named (ms.insert key v)).get? k = (shape.named ms).get? k := by
  have hskip : ∀ (v : Json) (ms : Members),
      (shape.named ((key, v) :: ms)).get? k = (shape.named ms).get? k := fun v ms => by
    rw [named_cons_some hkey, Members.get?, if_neg hne]
  induction ms with
  | nil => exact hskip v []
  | cons m ms ih =>
      obtain ⟨k', x⟩ := m
      rw [Members.insert]
      split_ifs with hlt heq
      · exact hskip v _
      · rw [← heq, hskip, hskip]
      · cases hs : shape.slot? k' with
        | none => rw [named_cons_none hs, named_cons_none hs, ih]
        | some s => rw [named_cons_some hs, named_cons_some hs, Members.get?, Members.get?, ih]

/-- A member that is set under a plain key changes what is read under this key alone. -/
theorem Plain.updated_named (h : shape.Plain slot) (v : Json) (ms : Members) :
    Members.Updated slot.key (some v) (shape.named ms) (shape.named (ms.insert slot.key v)) where
  self := by rw [h.get?_named, (Members.updated_insert slot.key v ms).self]
  other := fun _ hk => get?_named_insert_of_ne h.slot?_eq hk.symm v ms

/-- **A member under a plain key can always be filled in**, also in place of another, and changes
what is read under this key alone. -/
theorem gather_insert (hms : ms.Sorted) (hslot : shape.Plain slot) (hv : slot.check v = .ok ())
    (h : shape.gather (.obj ms) = .ok out) :
    ∃ out', shape.gather (.obj (ms.insert slot.key v)) = .ok out' ∧
      Members.Updated slot.key (some v) out out' := by
  obtain ⟨hchecks, hnodup, hrequired, rfl⟩ := gather_eq_ok_iff.1 h
  refine ⟨_, gather_eq_ok_iff.2 ⟨hchecks.insert hslot.slot?_eq hv, ?_, ?_, rfl⟩,
    hslot.updated_named v ms⟩
  · have hother : slot.key ∉ (shape.named (ms.erase slot.key)).map Prod.fst := by
      rw [← Members.get?_eq_none_iff, hslot.get?_named, Members.get?_eq_none_iff]
      simp [Members.erase]
    have hrest : ((shape.named (ms.erase slot.key)).map Prod.fst).Nodup :=
      hnodup.sublist ((List.filter_sublist.filterMap _).map _)
    exact ((named_insert_perm hms hslot.slot?_eq v).map _).nodup_iff.2
      (List.nodup_cons.2 ⟨hother, hrest⟩)
  · intro s hs hoptional
    have hsome : ∀ {ms : Members}, s.key ∈ ms.map Prod.fst ↔ ms.get? s.key ≠ none :=
      Iff.symm (Members.get?_eq_none_iff.not.trans not_not)
    rw [hsome]
    by_cases hkey : slot.key = s.key
    · rw [← hkey, (hslot.updated_named v ms).self]
      exact Option.some_ne_none v
    · rw [get?_named_insert_of_ne hslot.slot?_eq hkey]
      exact hsome.1 (hrequired s hs hoptional)

/-- What is under a plain key is what has the key of its slot. -/
theorem Plain.named_erase (h : shape.Plain slot) (ms : Members) :
    shape.named (ms.erase slot.key) = (shape.named ms).erase slot.key := by
  induction ms with
  | nil => rfl
  | cons m ms ih =>
      obtain ⟨k, x⟩ := m
      have hcons : Members.erase slot.key ((k, x) :: ms) =
          if k = slot.key then Members.erase slot.key ms
          else (k, x) :: Members.erase slot.key ms := by
        by_cases hk : k = slot.key <;> simp [Members.erase, hk]
      rw [hcons]
      cases hs : shape.slot? k with
      | none =>
          have hne : k ≠ slot.key := by
            rintro rfl
            exact nomatch hs.symm.trans h.slot?_eq
          rw [if_neg hne, named_cons_none hs, named_cons_none hs, ih]
      | some s =>
          rw [named_cons_some hs]
          by_cases hk : k = slot.key
          · subst hk
            cases hs.symm.trans h.slot?_eq
            rw [if_pos rfl, ih]
            simp [Members.erase]
          · have hne : s.key ≠ slot.key := fun heq => hk (h.eq_key k s hs heq)
            rw [if_neg hk, named_cons_some hs, ih]
            simp [Members.erase, hne]

/-- **A member that may be missing can be taken out**, and nothing else that is read changes. -/
theorem gather_erase (hslot : shape.Plain slot)
    (hoptional : ∀ s ∈ shape.slots, s.key = slot.key → s.optional = true)
    (h : shape.gather (.obj ms) = .ok out) :
    ∃ out', shape.gather (.obj (ms.erase slot.key)) = .ok out' ∧
      Members.Updated slot.key none out out' := by
  obtain ⟨hchecks, hnodup, hrequired, rfl⟩ := gather_eq_ok_iff.1 h
  have hupdated := Members.updated_erase slot.key (shape.named ms)
  refine ⟨(shape.named ms).erase slot.key, gather_eq_ok_iff.2 ⟨?_, ?_, ?_, ?_⟩, hupdated⟩
  · exact fun m hm => hchecks m (List.mem_of_mem_filter hm)
  · rw [hslot.named_erase]
    exact hnodup.sublist (List.filter_sublist.map _)
  · intro s hs hrequire
    have hne : s.key ≠ slot.key := fun heq =>
      Bool.false_ne_true (hrequire.symm.trans (hoptional s hs heq))
    have hgiven := hrequired s hs hrequire
    rw [← not_not (a := s.key ∈ _), ← Members.get?_eq_none_iff] at hgiven ⊢
    rwa [hslot.named_erase, hupdated.other _ hne]
  · exact (hslot.named_erase ms).symm

/-- A member under a plain key can be set and, if it may be missing, taken out. -/
theorem gather_assign {v : Option Json} (hms : ms.Sorted) (hslot : shape.Plain slot)
    (hoptional : ∀ s ∈ shape.slots, s.key = slot.key → s.optional = true)
    (hv : ∀ x, v = some x → slot.check x = .ok ()) (h : shape.gather (.obj ms) = .ok out) :
    ∃ out', shape.gather (.obj (ms.assign slot.key v)) = .ok out' ∧
      Members.Updated slot.key v out out' := by
  cases v with
  | none => exact gather_erase hslot hoptional h
  | some x => exact gather_insert hms hslot (hv x rfl) h

/-- **A member cannot be filled in beside one of another name** for the same slot. -/
theorem gather_insert_repeated {key : String} (hms : ms.Sorted)
    (hslot : shape.slot? key = some slot) (hkey : slot.key = key)
    (hv : slot.check v = .ok ()) (h : shape.gather (.obj ms) = .ok out)
    (hmissing : ms.get? key = none) (hgiven : out.get? key ≠ none) :
    shape.gather (.obj (ms.insert key v)) = .error (.repeated key) := by
  obtain ⟨hchecks, hnodup, hrequired, rfl⟩ := gather_eq_ok_iff.1 h
  have hkeys : ((shape.named (ms.insert key v)).map Prod.fst).Perm
      (key :: (shape.named ms).map Prod.fst) := by
    have hperm := (named_insert_perm hms hslot v).map Prod.fst
    rwa [Members.erase_eq_self (Members.get?_eq_none_iff.1 hmissing), List.map_cons, hkey] at hperm
  have hmem : key ∈ (shape.named ms).map Prod.fst := by
    by_contra hnot
    exact hgiven (Members.get?_eq_none_iff.2 hnot)
  rw [gather_obj]
  cases hvisit : shape.visit [] (ms.insert key v) with
  | ok done =>
      obtain ⟨-, hnodup', -⟩ := visit_nil_eq_ok_iff.1 hvisit
      exact absurd hmem (List.nodup_cons.1 (hkeys.nodup_iff.1 hnodup')).1
  | error m =>
      obtain ⟨k, rfl, hcount⟩ := visit_eq_error (hchecks.insert hslot hv) hvisit
      have hone := List.nodup_iff_count_le_one.1 hnodup k
      rw [List.nil_append, hkeys.count_eq, List.count_cons] at hcount
      by_cases hk : key = k
      · rw [hk]
        rfl
      · rw [if_neg (by simpa using hk)] at hcount
        omega

end Shape

end Archivist
