import Archivist.Proofs.Embedding.Balance

/-!
# Why Entries Go

An entry stays in a cache unless there is a reason for it to go (`Cache.Loses`): there is no room
for it beside an entry of another key and it is the one used longest ago, it is too old, a newer
embedding takes its place, or the cache is emptied. Nothing else that happens at a cache takes an
entry away, in particular no failure of a lookup (`Traffic.Step.stays`).
-/

namespace Archivist

namespace Cache

variable {c c' : Cache} {now : ℕ} {key k : String} {e : CacheEntry} {P : String → CacheEntry → Prop}

/-- Why an entry is no longer there. -/
inductive Loses (c : Cache) (now : ℕ) (key : String) (e : CacheEntry) (c' : Cache) : Prop where
  /-- The cache is full and another key gets an entry; this one was used longest ago. -/
  | full (k : String) (e' : CacheEntry) (hfull : c.entries.length = c.room)
      (hlast : c.entries.getLast? = some (key, e)) (hnew : k ∉ c.entries.map (·.1))
      (hentries : c'.entries = (k, e') :: c.entries.dropLast)
  | expired (h : c.limits.lifetime ≤ now - e.createdAt)
  | renewed (v : Embedding)
      (h : c'.entries.head? = some (key, { textHash := key, vector := v, createdAt := now }))
  | emptied (h : c' = c.invalidate)

/-- Looking up a key takes away nothing but what is too old. -/
theorem stays_of_lookUp {o : Option Embedding} (hk : c.Keeps P) (he : (key, e) ∈ c.entries)
    (h : c.lookUp now k = (o, c')) :
    (key, e) ∈ c'.entries ∨ c.limits.lifetime ≤ now - e.createdAt := by
  have hother : key ≠ k → (key, e) ∈ c.others k := fun hne =>
    List.mem_filter.2 ⟨he, by simpa using hne⟩
  cases o with
  | none =>
      rw [entries_of_lookUp_none h]
      by_cases hkey : key = k
      · subst hkey
        exact .inr (expired_of_lookUp_none hk.nodup h he)
      · exact .inl (hother hkey)
  | some v =>
      obtain ⟨e', he', -, -, hentries⟩ := exists_of_lookUp_some h
      rw [hentries]
      by_cases hkey : key = k
      · subst hkey
        rw [hk.eq_of_mem he he']
        exact .inl List.mem_cons_self
      · exact .inl (List.mem_cons_of_mem _ (hother hkey))

/-- A new entry takes the place of another one of its key, or of the one used longest ago. -/
theorem stays_of_remember {v : Embedding} (hk : c.Keeps P) (he : (key, e) ∈ c.entries)
    (h : c'.entries = (c.remember now k v).entries) :
    (key, e) ∈ c'.entries ∨ c.Loses now key e c' := by
  rw [entries_remember hk.length_le] at h
  have hroom : 0 < c.room := Nat.le_max_right _ _
  obtain ⟨n, hn⟩ : ∃ n, c.room = n + 1 := Nat.exists_eq_add_one.2 hroom
  rw [hn, List.take_succ_cons] at h
  by_cases hkey : key = k
  · subst hkey
    exact .inr (.renewed v (by rw [h, List.head?_cons]))
  · have hmem : (key, e) ∈ c.others k := List.mem_filter.2 ⟨he, by simpa using hkey⟩
    by_cases hstays : (key, e) ∈ (c.others k).take n
    · exact .inl (h ▸ List.mem_cons_of_mem _ hstays)
    · -- All entries are of other keys then, and this one is the last of them.
      have hlong : n < (c.others k).length := by
        by_contra hle
        rw [List.take_of_length_le (Nat.le_of_not_lt hle)] at hstays
        exact hstays hmem
      have hle := (c.others_sublist k).length_le
      have hothers : c.others k = c.entries :=
        (c.others_sublist k).eq_of_length_le (by have := hk.length_le; omega)
      have hlength : c.entries.length = c.room := by
        have := hk.length_le
        rw [hothers] at hlong
        omega
      rw [hothers] at hstays h
      have hdrop : c.entries.take n = c.entries.dropLast := by
        rw [List.dropLast_eq_take, hlength, hn, Nat.add_sub_cancel]
      rw [hdrop] at hstays h
      have hne : c.entries ≠ [] := List.ne_nil_of_mem he
      have hlast : c.entries.getLast? = some (key, e) := by
        rw [List.getLast?_eq_some_getLast hne]
        rw [← List.dropLast_append_getLast hne, List.mem_append] at he
        exact congrArg some (List.mem_singleton.1 (he.resolve_left hstays)).symm
      refine .inr (.full k _ hlength hlast ?_ h)
      rw [← hothers]
      exact c.not_mem_others k

end Cache

namespace Flight

variable {now me : ℕ} {f : Flight} {c : Cache} {key : String} {e : CacheEntry}
  {P : String → CacheEntry → Prop}

/-- What a lookup does without the provider takes away nothing but what is too old. -/
theorem Moves.stays {m : Move} (hm : f.Moves now me c m) (hk : c.Keeps P)
    (he : (key, e) ∈ c.entries) :
    m.After fun c' => (key, e) ∈ c'.entries ∨ c.limits.lifetime ≤ now - e.createdAt := by
  have hboards : ∀ {n provider m}, f.Boards now n { c with provider } m →
      m.After fun c' => (key, e) ∈ c'.entries ∨ c.limits.lifetime ≤ now - e.createdAt := by
    intro n provider m hb
    have hk' : Cache.Keeps { c with provider } P := hk.congr rfl rfl
    cases hb with
    | hit v c₁ hl | ask c₁ hl =>
        have hstays := Cache.stays_of_lookUp hk' he hl
        exact hstays
  cases hm with
  | blank | share | turn | queue => exact .inl he
  | hit _ _ v c₁ hl | miss _ _ c₁ hl =>
      have hstays := Cache.stays_of_lookUp hk he hl
      exact hstays
  | find _ n c₁ ho | enter _ n c₁ ho | join _ n c₁ ho =>
      obtain ⟨pending, cells, rfl⟩ := Cache.exists_of_openCell ho
      exact .inl he
  | board _ _ _ _ hb | permit _ _ _ _ hb => exact hboards hb

/-- Who is dropped changes no entry. -/
theorem entries_abandon (me : ℕ) (f : Flight) (c : Cache) :
    (f.abandon me c).entries = c.entries := by
  rw [abandon]
  split <;> rfl

end Flight

namespace Traffic

variable {s s' : Traffic} {sign : Sign} {key : String} {e : CacheEntry}
  {P : String → CacheEntry → Prop}

/-- **An entry stays unless there is a reason for it to go**, whatever happens. -/
theorem Step.stays (hs : s.Step sign s') (hk : s.cache.Keeps P) (he : (key, e) ∈ s.cache.entries) :
    (key, e) ∈ s'.cache.entries ∨ s.cache.Loses s.now key e s'.cache := by
  cases hs with
  | began | waited => exact .inl he
  | batched hl =>
      have hbatch := Batch.lookUp_induct (I := fun c => c.Keeps P ∧
        c.limits = s.cache.limits ∧
          ((key, e) ∈ c.entries ∨ s.cache.limits.lifetime ≤ s.now - e.createdAt))
        (by
          rintro c c' k o ⟨hk, hlimits, he⟩ hl
          refine ⟨hk.lookUp hl, ?_, ?_⟩
          · obtain ⟨es, ev, rfl⟩ := Cache.exists_of_lookUp hl
            exact hlimits
          · rcases he with he | hold
            · exact hlimits ▸ Cache.stays_of_lookUp hk he hl
            · exact .inr hold)
        (fun ⟨hk, hlimits, he⟩ => ⟨hk.congr rfl rfl, hlimits, he⟩) hl ⟨hk, rfl, .inl he⟩
      exact hbatch.2.2.imp_right .expired
  | moved hi hm | served hi hm =>
      exact ((Flight.moves_of_step hm nofun).stays hk he).imp_right .expired
  | answered reply hi hphase hl =>
      have hentries := Cache.entries_land hl
      split at hentries
      · exact Cache.stays_of_remember hk he hentries
      · exact .inl (hentries ▸ he)
  | dropped hi =>
      rw [Flight.entries_abandon]
      exact .inl he
  | purged =>
      cases hold : s.cache.isExpired s.now e with
      | true => exact .inr (.expired (of_decide_eq_true hold))
      | false => exact .inl (List.mem_filter.2 ⟨he, by simp [hold]⟩)
  | invalidated => exact .inr (.emptied rfl)

/-- What the provider gives is in front of all entries at first. -/
theorem Step.fetched {i : ℕ} {text : String} {reply result : Landing} {company : Bool}
    {v : Embedding} (hs : s.Step (.answered i text reply result company) s')
    (ha : s.cache.Attends s.fleet) (hk : s.cache.Keeps P)
    (hv : Flight.outcome reply = .ok (some v)) :
    s'.cache.entries.head? = some (Digest.ofText text,
      { textHash := Digest.ofText text, vector := v, createdAt := s.now }) := by
  cases hs with
  | answered reply hi hphase hl =>
      have hentries := Cache.entries_land hl
      have hroom : 0 < s.cache.room := Nat.le_max_right _ _
      obtain ⟨n, hn⟩ : ∃ n, s.cache.room = n + 1 := Nat.exists_eq_add_one.2 hroom
      simp only [hv] at hentries
      rw [Cache.entries_remember hk.length_le, ha.key_eq hi, hn, List.take_succ_cons] at hentries
      rw [hentries, List.head?_cons]

end Traffic

end Archivist
