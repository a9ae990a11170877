import Archivist.Proofs.Embedding.Move
import Mathlib.Data.List.Nodup
import Mathlib.Data.List.Perm.Basic

/-!
# Entries of a Cache

The entries of a cache are a list with the one used last in front. What the operations of a cache
make of this list is said here once: looking up a key takes its entry out, and puts it in front if
it is good; remembering an embedding puts a new entry in front and cuts the list off at the
capacity; purging leaves entries out.

`Cache.Keeps c P` says that there are no more entries than there is room for, one for a key at most,
and that each of them is as `P` says. Whatever happens to a cache, it keeps what holds of all the
entries that are made (`Cache.Keeps.lookUp`, `Cache.Keeps.remember`, `Cache.Keeps.purge`).
-/

namespace Archivist.Cache

variable {c c' : Cache} {now : ℕ} {key : String} {v : Embedding}

/-- The entries of all other keys. -/
def others (c : Cache) (key : String) : List (String × CacheEntry) := c.entries.filter (·.1 ≠ key)

/-- The entries of other keys are among the entries. -/
theorem others_sublist (c : Cache) (key : String) : (c.others key).Sublist c.entries :=
  List.filter_sublist

/-- The entries of other keys do not have this key. -/
theorem not_mem_others (c : Cache) (key : String) : key ∉ (c.others key).map (·.1) := by
  simp [others]

/-- Taking entries of a key out twice is taking them out. -/
theorem others_of_entries_eq (h : c'.entries = c.others key) : c'.others key = c.others key := by
  rw [others, h, others, List.filter_filter]
  simp

/-- The entry of a key is one of the entries. -/
theorem mem_of_find? {e : CacheEntry} (h : c.find? key = some e) : (key, e) ∈ c.entries := by
  obtain ⟨⟨k, e⟩, hfind, rfl⟩ := Option.map_eq_some_iff.1 h
  have hk : k = key := by simpa using List.find?_some hfind
  exact hk ▸ List.mem_of_find?_eq_some hfind

/-- If a key has no entry, the others are all. -/
theorem others_eq_self (h : key ∉ c.entries.map (·.1)) : c.others key = c.entries := by
  refine List.filter_eq_self.2 fun p hp => ?_
  simpa using fun heq => h (List.mem_map.2 ⟨p, hp, heq⟩)

/-- If no entry is found, the others are all. -/
theorem others_of_find?_eq_none (h : c.find? key = none) : c.others key = c.entries := by
  rw [find?, Option.map_eq_none_iff] at h
  refine others_eq_self fun hmem => ?_
  obtain ⟨p, hp, rfl⟩ := List.mem_map.1 hmem
  simpa using List.find?_eq_none.1 h p hp

/-- Without a good entry, a key has none afterwards. -/
theorem entries_of_lookUp_none (h : c.lookUp now key = (none, c')) :
    c'.entries = c.others key := by
  simp only [lookUp] at h
  split at h
  · rename_i hnone
    cases h
    exact (others_of_find?_eq_none (c := c) hnone).symm
  · split at h <;> cases h
    rfl

/-- A good entry is the one used last afterwards. -/
theorem exists_of_lookUp_some (h : c.lookUp now key = (some v, c')) :
    ∃ e, (key, e) ∈ c.entries ∧ e.vector = v ∧ now - e.createdAt < c.limits.lifetime ∧
      c'.entries = (key, e) :: c.others key := by
  simp only [lookUp] at h
  split at h
  · cases h
  · rename_i e he
    split at h <;> cases h
    rename_i hexpired
    refine ⟨e, mem_of_find? (c := c) he, rfl, ?_, rfl⟩
    simpa [isExpired] using hexpired

/-- Remembering an embedding cuts off what there is no room for. -/
theorem entries_remember (h : c.entries.length ≤ c.room) (now : ℕ) (key : String) (v : Embedding) :
    (c.remember now key v).entries =
      ((key, { textHash := key, vector := v, createdAt := now }) :: c.others key).take c.room := by
  have hothers := (c.others_sublist key).length_le
  rw [others] at hothers
  simp only [remember, others]
  split
  · rename_i hlt
    rw [List.length_cons] at hlt
    have hlength : (c.entries.filter (·.1 ≠ key)).length = c.room := by omega
    rw [List.dropLast_eq_take, List.length_cons, Nat.add_sub_cancel, hlength]
  · rename_i hle
    exact (List.take_of_length_le (Nat.le_of_not_lt hle)).symm

/-- Without a good entry, those that a key has are expired. -/
theorem expired_of_lookUp_none (hnodup : (c.entries.map (·.1)).Nodup)
    (h : c.lookUp now key = (none, c')) {e : CacheEntry} (he : (key, e) ∈ c.entries) :
    c.limits.lifetime ≤ now - e.createdAt := by
  simp only [lookUp] at h
  split at h
  · rename_i hnone
    have hmem := List.mem_map_of_mem (f := Prod.fst) he
    rw [← others_of_find?_eq_none (c := c) hnone] at hmem
    exact absurd hmem (c.not_mem_others key)
  · rename_i e' he'
    split at h
    · rename_i hexpired
      have heq := List.inj_on_of_nodup_map hnodup he (mem_of_find? (c := c) he') rfl
      cases heq
      exact of_decide_eq_true hexpired
    · cases h

/-- With an answer an embedding is remembered, or nothing. -/
theorem entries_land {f : Flight} {n : ℕ} {reply result : Landing}
    (h : f.land now n reply c = (result, c')) :
    c'.entries = match Flight.outcome reply with
      | .ok (some v) => (c.remember now f.key v).entries
      | _ => c.entries := by
  simp only [Flight.land, Prod.mk.injEq] at h
  obtain ⟨-, rfl⟩ := h
  rcases Flight.outcome reply with e | _ | v <;> rfl

/-- A purge makes no entries and keeps their order. -/
theorem entries_purge (c : Cache) (now : ℕ) : (c.purge now).2.entries.Sublist c.entries :=
  List.filter_sublist

/-- At most as many entries as there is room for, one for a key, each as `P` says. -/
structure Keeps (c : Cache) (P : String → CacheEntry → Prop) : Prop where
  length_le : c.entries.length ≤ c.room
  nodup : (c.entries.map (·.1)).Nodup
  entry : ∀ k e, (k, e) ∈ c.entries → P k e

namespace Keeps

variable {P P' : String → CacheEntry → Prop}

/-- A cache that has not been used keeps nothing. -/
theorem fresh (limits : CacheLimits) (P : String → CacheEntry → Prop) :
    (Cache.fresh limits).Keeps P :=
  ⟨Nat.zero_le _, List.nodup_nil, nofun⟩

theorem mono (h : c.Keeps P) (hP : ∀ k e, P k e → P' k e) : c.Keeps P' :=
  ⟨h.length_le, h.nodup, fun k e he => hP k e (h.entry k e he)⟩

/-- Entries may go. -/
theorem of_sublist (h : c.Keeps P) (hlimits : c'.limits = c.limits)
    (hentries : c'.entries.Sublist c.entries) : c'.Keeps P where
  length_le := by
    have := h.length_le
    have := hentries.length_le
    simp only [room, hlimits] at *
    omega
  nodup := h.nodup.sublist (hentries.map _)
  entry := fun k e he => h.entry k e (hentries.subset he)

/-- A key has one entry. -/
theorem eq_of_mem {e e' : CacheEntry} (h : c.Keeps P) (he : (key, e) ∈ c.entries)
    (he' : (key, e') ∈ c.entries) : e = e' :=
  congrArg Prod.snd (List.inj_on_of_nodup_map h.nodup he he' rfl)

/-- A cache has its entry of a key in front afterwards, or none. -/
theorem lookUp {o : Option Embedding} (h : c.Keeps P) (hl : c.lookUp now key = (o, c')) :
    c'.Keeps P := by
  have hlimits : c'.limits = c.limits := by
    obtain ⟨es, ev, rfl⟩ := exists_of_lookUp hl
    rfl
  cases o with
  | none =>
      refine h.of_sublist hlimits ?_
      rw [entries_of_lookUp_none hl]
      exact c.others_sublist key
  | some v =>
      obtain ⟨e, he, -, -, hentries⟩ := exists_of_lookUp_some hl
      have hlt : (c.others key).length < c.entries.length := by
        refine List.length_filter_lt_length_iff_exists.2 ⟨(key, e), he, ?_⟩
        simp
      refine ⟨?_, ?_, fun k e' he' => ?_⟩
      · have := h.length_le
        simp only [room, hlimits, hentries, List.length_cons] at *
        omega
      · rw [hentries]
        exact (h.nodup.sublist ((c.others_sublist key).map _)).cons (c.not_mem_others key)
      · rw [hentries, List.mem_cons] at he'
        rcases he' with heq | he'
        · cases heq
          exact h.entry key e he
        · exact h.entry k e' ((c.others_sublist key).subset he')

/-- A new entry is kept if it is as it should be. -/
theorem remember (h : c.Keeps P) (hP : P key { textHash := key, vector := v, createdAt := now }) :
    (c.remember now key v).Keeps P := by
  have hlimits : (c.remember now key v).limits = c.limits := by
    obtain ⟨es, ev, hr⟩ := exists_of_remember c now key v
    rw [hr]
  have hentries := entries_remember h.length_le now key v
  refine ⟨?_, ?_, fun k e he => ?_⟩
  · rw [hentries, room, room, hlimits]
    exact List.length_take_le _ _
  · rw [hentries, List.map_take]
    refine List.Nodup.sublist (List.take_sublist _ _) ?_
    exact (h.nodup.sublist ((c.others_sublist key).map _)).cons (c.not_mem_others key)
  · rw [hentries] at he
    rcases List.mem_cons.1 (List.mem_of_mem_take he) with heq | he
    · cases heq
      exact hP
    · exact h.entry k e ((c.others_sublist key).subset he)

/-- A purge keeps a cache in order. -/
theorem purge (h : c.Keeps P) (now : ℕ) : (c.purge now).2.Keeps P :=
  h.of_sublist rfl (entries_purge c now)

/-- So does emptying it. -/
theorem invalidate (h : c.Keeps P) : c.invalidate.Keeps P :=
  h.of_sublist rfl (List.nil_sublist _)

/-- Cells, permits and counters do not matter. -/
theorem congr (h : c.Keeps P) (hlimits : c'.limits = c.limits) (hentries : c'.entries = c.entries) :
    c'.Keeps P :=
  h.of_sublist hlimits (hentries ▸ List.Sublist.refl _)

end Keeps

end Archivist.Cache
