import Archivist.Proofs.Embedding.Slots
import Archivist.Proofs.Embedding.Traffic
import Mathlib.Data.Set.Function

/-!
# What Is in a Cache, and What Its Counters Say

However lookups, purges and resets follow each other, a cache holds no more entries than it has room
for, and none that the provider has not made; as many misses are counted as calls, and there are no
more calls at a time than there may be. If all lookups are single ones and run to their ends, each
of them is counted once, as a hit or as a miss, unless its text is blank.

## Main results

* `Traffic.Step.keeps`: an entry is made when the provider answers, and at no other time.
* `Traffic.Step.balances`: a lookup is counted at the step with which it asks the provider, or with
  which it is served without.
* `Traffic.Run.inOrder`: all of the above, at every moment of every run.
-/

namespace Archivist

namespace Flight

variable {now me n : ℕ} {f : Flight} {c c' : Cache} {P : String → CacheEntry → Prop}

/-! ### Entries -/

/-- A lookup that leaves changes no entry. -/
theorem keeps_depart (h : c.Keeps P) (f : Flight) (n : ℕ) (filler : Bool) (result : Landing) :
    (f.depart n filler result c).Keeps P := by
  cases filler <;> cases result <;> exact h.congr rfl rfl

/-- A lookup that is dropped changes no entry. -/
theorem keeps_abandon (h : c.Keeps P) (me : ℕ) (f : Flight) : (f.abandon me c).Keeps P := by
  rw [abandon]
  split <;> exact h.congr rfl rfl

/-- With a permit in hand a lookup makes no entry. -/
theorem Boards.keeps {m : Move} (h : c.Keeps P) (hb : f.Boards now n c m) :
    m.After (·.Keeps P) := by
  cases hb with
  | hit v c₁ hl =>
      exact keeps_depart (c := { c₁.countHit with provider := c₁.provider.release })
        ((h.lookUp hl).congr rfl rfl) f n true _
  | ask c₁ hl => exact (h.lookUp hl).congr rfl rfl

/-- A lookup makes no entry before it is answered. -/
theorem Moves.keeps {m : Move} (h : c.Keeps P) (hm : f.Moves now me c m) : m.After (·.Keeps P) := by
  have hopened : ∀ {n c₁}, c.openCell f.key = (n, c₁) → c₁.Keeps P := fun {n c₁} ho => by
    rw [Cache.openCell] at ho
    split at ho <;> cases ho <;> exact h.congr rfl rfl
  cases hm with
  | blank => exact h
  | hit _ _ v c₁ hl => exact (h.lookUp hl).congr rfl rfl
  | miss _ _ c₁ hl => exact h.lookUp hl
  | find _ n c₁ ho v _ => exact keeps_depart (hopened ho) f n false _
  | enter _ n c₁ ho | join _ n c₁ ho => exact (hopened ho).congr rfl rfl
  | share n _ v _ => exact keeps_depart h f n false _
  | turn | queue => exact h.congr rfl rfl
  | board n _ provider _ hb | permit n _ provider _ hb =>
      exact Boards.keeps (c := { c with provider }) (h.congr rfl rfl) hb

/-- An answer with an embedding makes an entry. -/
theorem keeps_land {reply result : Landing} (h : c.Keeps P)
    (hl : f.land now n reply c = (result, c'))
    (hP : ∀ v, outcome reply = .ok (some v) →
      P f.key { textHash := f.key, vector := v, createdAt := now }) : c'.Keeps P := by
  simp only [land, Prod.mk.injEq] at hl
  obtain ⟨-, rfl⟩ := hl
  refine keeps_depart ?_ f n true _
  split
  · rename_i v hv
    exact (h.remember (hP v hv)).congr rfl rfl
  · exact h.congr rfl rfl

end Flight

namespace Batch

/-- The first look of a batch makes no entry. -/
theorem keeps_lookUp {P : String → CacheEntry → Prop} {now : ℕ} {c c' : Cache}
    {texts : List String} {slots : List BatchSlot} (h : c.Keeps P)
    (hl : lookUp now c texts = (slots, c')) : c'.Keeps P :=
  lookUp_induct (I := (·.Keeps P)) Cache.Keeps.lookUp (fun h => h.congr rfl rfl) hl h

end Batch

namespace Flight

variable {now me n : ℕ} {f : Flight} {c c' : Cache}

/-! ### Counters -/

/-- Whether a lookup is yet to be counted. -/
def isUncounted (f : Flight) : Bool := !Text.blank f.text && !f.isAsking

/-- Only lookups that have not looked yet may be of blank texts. -/
def IsSolid (f : Flight) : Prop := f.phase = .arriving ∨ Text.blank f.text = false

/-- A move counts a miss if it asks the provider, and a hit if it has a result for a text. -/
def Move.Counts (f : Flight) (c : Cache) : Move → Prop
  | .wait => True
  | .go phase c' => c'.hits = c.hits ∧
      c'.misses = c.misses + (isAsking { f with phase }).toNat ∧
      c'.providerCalls = c.providerCalls + (isAsking { f with phase }).toNat
  | .land _ c' => (f.IsSolid → c'.hits = c.hits + f.isUncounted.toNat) ∧
      c'.misses = c.misses ∧ c'.providerCalls = c.providerCalls

/-- With a permit in hand a lookup is counted, as a hit or as a miss. -/
theorem Boards.counts {m : Move} (hf : f.IsSolid → f.isUncounted = true) (hb : f.Boards now n c m) :
    m.Counts f c := by
  cases hb with
  | hit v c₁ hl =>
      obtain ⟨es, ev, rfl⟩ := Cache.exists_of_lookUp hl
      exact ⟨fun hsolid => by rw [hf hsolid]; rfl, rfl, rfl⟩
  | ask c₁ hl =>
      obtain ⟨es, ev, rfl⟩ := Cache.exists_of_lookUp hl
      exact ⟨rfl, rfl, rfl⟩

/-- Who has asked the provider waits for the answer. -/
theorem Moves.isAsking_eq_false {m : Move} (hm : f.Moves now me c m) : f.isAsking = false := by
  cases hm <;> simp [isAsking, *]

/-- Who goes on is past the first look. -/
theorem Moves.solid {m : Move} (hsolid : f.IsSolid) (hm : f.Moves now me c m) {phase : Phase}
    {c' : Cache} (hgo : m = .go phase c') : Text.blank f.text = false := by
  cases hm with
  | blank => cases hgo
  | hit => cases hgo
  | miss _ hblank => exact hblank
  | find hphase | enter hphase | join hphase | share _ hphase | turn _ hphase
  | board _ hphase | queue _ hphase | permit _ hphase =>
      exact hsolid.resolve_left (by simp [hphase])

/-- **A lookup is counted when it asks the provider, or when it is served without.** -/
theorem Moves.counts {m : Move} (hm : f.Moves now me c m) : m.Counts f c := by
  -- Past the first look, and before the provider is asked.
  have hout : f.phase ≠ .arriving → f.IsSolid → f.isUncounted = true := fun hne hsolid => by
    rw [isUncounted, hsolid.resolve_left hne, hm.isAsking_eq_false]
    rfl
  cases hm with
  | blank hphase hblank =>
      exact ⟨fun _ => by rw [isUncounted, hblank]; rfl, rfl, rfl⟩
  | hit hphase hblank v c₁ hl =>
      obtain ⟨es, ev, rfl⟩ := Cache.exists_of_lookUp hl
      refine ⟨fun _ => ?_, rfl, rfl⟩
      rw [isUncounted, hblank, isAsking, hphase]
      rfl
  | miss hphase hblank c₁ hl =>
      obtain ⟨es, ev, rfl⟩ := Cache.exists_of_lookUp hl
      exact ⟨rfl, rfl, rfl⟩
  | find hphase n c₁ hopen v hv =>
      obtain ⟨pending, cells, rfl⟩ := Cache.exists_of_openCell hopen
      exact ⟨fun hsolid => by rw [hout (by simp [hphase]) hsolid]; rfl, rfl, rfl⟩
  | enter hphase n c₁ hopen | join hphase n c₁ hopen =>
      obtain ⟨pending, cells, rfl⟩ := Cache.exists_of_openCell hopen
      exact ⟨rfl, rfl, rfl⟩
  | share n hphase v hv =>
      exact ⟨fun hsolid => by rw [hout (by simp [hphase]) hsolid]; rfl, rfl, rfl⟩
  | turn | queue => exact ⟨rfl, rfl, rfl⟩
  | board n hphase provider hgate hb | permit n hphase provider hgate hb =>
      exact Boards.counts (c := { c with provider }) (hout (by simp [hphase])) hb

/-- An answer changes no counter. -/
theorem counters_land {reply result : Landing} (h : f.land now n reply c = (result, c')) :
    c'.hits = c.hits ∧ c'.misses = c.misses ∧ c'.providerCalls = c.providerCalls := by
  obtain ⟨-, es, ev, rfl⟩ := exists_of_land h
  cases outcome reply <;> exact ⟨rfl, rfl, rfl⟩

/-- A lookup that is dropped changes no counter. -/
theorem counters_abandon (me : ℕ) (f : Flight) (c : Cache) :
    (f.abandon me c).hits = c.hits ∧ (f.abandon me c).misses = c.misses ∧
      (f.abandon me c).providerCalls = c.providerCalls := by
  rw [abandon]
  split <;> exact ⟨rfl, rfl, rfl⟩

end Flight

namespace Batch

/-- No text that a batch sends a lookup on for is blank. -/
theorem blank_of_mem_openTexts {now : ℕ} {c c' : Cache} {texts : List String}
    {slots : List BatchSlot} {text : String} (h : lookUp now c texts = (slots, c'))
    (htext : text ∈ openTexts slots) : Text.blank text = false := by
  have hslots : slots = texts.map (slot now c) := by rw [← lookUp_fst, h]
  exact (isMissing_of_mem_openTexts (hslots ▸ htext)).2.1

/-- The first look of a batch counts hits only. -/
theorem counters_lookUp {now : ℕ} {c c' : Cache} {texts : List String} {slots : List BatchSlot}
    (h : lookUp now c texts = (slots, c')) :
    c'.misses = c.misses ∧ c'.providerCalls = c.providerCalls := by
  obtain ⟨started, entries, evictions, hits, rfl⟩ := exists_of_lookUp h
  exact ⟨rfl, rfl⟩

end Batch

namespace Traffic

variable {s s' : Traffic} {sign : Sign} {trace : List (ℕ × Sign)} {limits : CacheLimits}
  {now places : ℕ} {P P' : String → CacheEntry → Prop}

/-- **An entry is made when the provider answers, and at no other time.** -/
theorem Step.keeps (hs : s.Step sign s') (ha : s.cache.Attends s.fleet) (h : s.cache.Keeps P)
    (hmono : ∀ k e, P k e → P' k e)
    (hnew : ∀ i text v result company, sign = .answered i text (.ok (some v)) result company →
      v ≠ [] → P' (Digest.ofText text)
        { textHash := Digest.ofText text, vector := v, createdAt := s.now }) :
    s'.cache.Keeps P' := by
  cases hs with
  | began => exact h.mono hmono
  | batched hl => exact Batch.keeps_lookUp (h.mono hmono) hl
  | moved hi hm | served hi hm => exact (Flight.moves_of_step hm nofun).keeps (h.mono hmono)
  | @answered i n f result c reply hi _ hl =>
      refine Flight.keeps_land (h.mono hmono) hl fun v hv => ?_
      obtain ⟨rfl, hne⟩ := Flight.eq_of_outcome hv
      rw [ha.key_eq hi]
      exact hnew i f.text v _ _ rfl hne
  | dropped hi => exact Flight.keeps_abandon (h.mono hmono) _ _
  | purged => exact (h.mono hmono).purge _
  | invalidated => exact (h.mono hmono).invalidate
  | waited _ => exact h.mono hmono

/-! ### The balance -/

/-- A call of the provider for each miss. -/
theorem Step.misses_eq (hs : s.Step sign s') (h : s.cache.misses = s.cache.providerCalls) :
    s'.cache.misses = s'.cache.providerCalls := by
  cases hs with
  | began => exact h
  | batched hl =>
      obtain ⟨hmisses, hcalls⟩ := Batch.counters_lookUp hl
      exact hmisses.trans (h.trans hcalls.symm)
  | moved hi hm | served hi hm =>
      obtain ⟨-, hmisses, hcalls⟩ := (Flight.moves_of_step hm nofun).counts
      rw [hmisses, hcalls, h]
  | answered reply hi hphase hl =>
      obtain ⟨-, hmisses, hcalls⟩ := Flight.counters_land hl
      exact hmisses.trans (h.trans hcalls.symm)
  | dropped hi =>
      obtain ⟨-, hmisses, hcalls⟩ := Flight.counters_abandon _ _ s.cache
      exact hmisses.trans (h.trans hcalls.symm)
  | purged => exact h
  | invalidated => rfl
  | waited _ => exact h

/-- A lookup of a text that is not blank begins. -/
def Sign.isGet : Sign → Bool
  | .began _ text => !Text.blank text
  | _ => false

/-- How many lookups of texts that are not blank have begun. -/
def gets (trace : List (ℕ × Sign)) : ℕ := trace.countP (·.2.isGet)

/-- What has been counted, and what is yet to be. -/
def balance (s : Traffic) : ℕ :=
  s.cache.hits + s.cache.misses + s.fleet.countIf Flight.isUncounted

/-- Past the first look there are no lookups of blank texts. -/
theorem Step.solid (hs : s.Step sign s') (h : ∀ i f, s.fleet.flight? i = some f → f.IsSolid) :
    ∀ i f, s'.fleet.flight? i = some f → f.IsSolid := by
  have hset : ∀ {i x y}, s.fleet[i]? = some x → (∀ g, y = some g → g.IsSolid) →
      ∀ j f, Fleet.flight? (s.fleet.set i y) j = some f → f.IsSolid := by
    intro i x y hi hy j f hj
    rw [Fleet.flight?_set hi] at hj
    split_ifs at hj
    · exact hy f hj
    · exact h j f hj
  cases hs with
  | began text hi =>
      refine hset hi ?_
      rintro g ⟨⟩
      exact .inl rfl
  | @batched texts slots c hl =>
      intro i f hi
      rw [Fleet.flight?_append] at hi
      split_ifs at hi
      · exact h i f hi
      · obtain ⟨text, htext, hf⟩ := List.mem_map.1 (Fleet.mem_of_flight? hi)
        cases hf
        exact .inr (Batch.blank_of_mem_openTexts hl htext)
  | moved hi hm =>
      have hblank := (Flight.moves_of_step hm nofun).solid (h _ _ hi) rfl
      refine hset (Fleet.getElem?_of_flight? hi) ?_
      rintro g ⟨⟩
      exact .inr hblank
  | served hi | answered _ hi | dropped hi => exact hset (Fleet.getElem?_of_flight? hi) nofun
  | purged | waited | invalidated => exact h

/-- **A lookup that begins is counted, or yet to be counted, at all times.** -/
theorem Step.balances (hs : s.Step sign s') (hsingle : sign.isSingle = true)
    (hsolid : ∀ i f, s.fleet.flight? i = some f → f.IsSolid) :
    s'.balance = s.balance + sign.isGet.toNat := by
  -- The lookup at one place is exchanged.
  have hcount : ∀ {i x}, s.fleet[i]? = some x → ∀ y,
      Fleet.countIf Flight.isUncounted (s.fleet.set i y) + (x.any Flight.isUncounted).toNat =
        s.fleet.countIf Flight.isUncounted + (y.any Flight.isUncounted).toNat :=
    fun hi y => Fleet.countIf_set _ hi y
  cases hs with
  | began text hi =>
      have hstart : (Flight.start text).isUncounted = !Text.blank text := Bool.and_true _
      have hset := hcount hi (some (Flight.start text))
      rw [Option.any_none, Option.any_some, hstart, Bool.toNat_false, Nat.add_zero] at hset
      simp only [balance, Sign.isGet, hset, Nat.add_assoc]
  | batched => cases hsingle
  | @moved i f phase c hi hm =>
      have hmoves := Flight.moves_of_step hm nofun
      obtain ⟨hhits, hmisses, -⟩ := hmoves.counts
      have hblank := hmoves.solid (hsolid i f hi) rfl
      have hbefore : f.isUncounted = true := by
        rw [Flight.isUncounted, hblank, hmoves.isAsking_eq_false]
        rfl
      have hafter : Flight.isUncounted { f with phase } = !Flight.isAsking { f with phase } := by
        rw [Flight.isUncounted, hblank, Bool.not_false, Bool.true_and]
      have hset := hcount (Fleet.getElem?_of_flight? hi) (some { f with phase })
      rw [Option.any_some, Option.any_some, hbefore, hafter] at hset
      simp only [balance, Sign.isGet, hhits, hmisses]
      cases hasks : Flight.isAsking { f with phase } <;> rw [hasks] at hset <;>
        simp only [Bool.not_true, Bool.not_false, Bool.toNat_true, Bool.toNat_false] at hset ⊢ <;>
        omega
  | @served i f result c hi hm =>
      obtain ⟨hhits, hmisses, -⟩ := (Flight.moves_of_step hm nofun).counts
      have hset := hcount (Fleet.getElem?_of_flight? hi) none
      rw [Option.any_some, Option.any_none, Bool.toNat_false, Nat.add_zero] at hset
      simp only [balance, Sign.isGet, hhits (hsolid i f hi), hmisses, Bool.toNat_false]
      omega
  | @answered i n f result c reply hi hphase hl =>
      obtain ⟨hhits, hmisses, -⟩ := Flight.counters_land hl
      have hasks : f.isUncounted = false := by simp [Flight.isUncounted, Flight.isAsking, hphase]
      have hset := hcount (Fleet.getElem?_of_flight? hi) none
      rw [Option.any_some, Option.any_none, hasks, Bool.toNat_false, Nat.add_zero, Nat.add_zero]
        at hset
      rw [balance, balance, hhits, hmisses, hset]
      rfl
  | dropped => cases hsingle
  | purged | waited => rfl
  | invalidated => cases hsingle

/-! ### Runs -/

/-- The texts that are looked up. -/
def Sign.texts : Sign → List String
  | .began _ text | .served _ text _ | .answered _ text .. => [text]
  | .batched texts => texts
  | _ => []

/-- The texts that have been looked up. -/
def texts (trace : List (ℕ × Sign)) : Set String := { text | ∃ p ∈ trace, text ∈ p.2.texts }

/-- The provider has given this embedding for a text. -/
def Provided (trace : List (ℕ × Sign)) (text : String) (v : Embedding) : Prop :=
  ∃ t i result company, (t, Sign.answered i text (.ok (some v)) result company) ∈ trace

/-- A cache as it should be. -/
structure InOrder (limits : CacheLimits) (trace : List (ℕ × Sign)) (s : Traffic) : Prop where
  length_le : s.cache.entries.length ≤ max 1 limits.capacity
  nodup : (s.cache.entries.map (·.1)).Nodup
  textHash_eq : ∀ k e, (k, e) ∈ s.cache.entries → e.textHash = k
  vector_ne_nil : ∀ k e, (k, e) ∈ s.cache.entries → e.vector ≠ []
  /-- An embedding has come from the provider, for a text with this digest. -/
  provided : ∀ k e, (k, e) ∈ s.cache.entries →
    ∃ text, Digest.ofText text = k ∧ Provided trace text e.vector
  /-- It is for every such text, if no two of those that have been looked up have one digest. -/
  provided_of_injOn : Set.InjOn Digest.ofText (texts trace) → ∀ k e, (k, e) ∈ s.cache.entries →
    ∀ text ∈ texts trace, Digest.ofText text = k → Provided trace text e.vector
  misses_eq : s.cache.misses = s.cache.providerCalls
  calls_le : s.fleet.countIf Flight.isAsking ≤ max 1 limits.maxInFlight
  /-- If lookups were single ones and have all run to their ends, each has been counted. -/
  counted : (∀ p ∈ trace, p.2.isSingle = true) → s.fleet.Idle →
    s.cache.hits + s.cache.misses = gets trace

/-- There is a call of the provider for each miss at all times. -/
theorem Run.misses_eq (hr : (fresh limits now places).Run trace s) :
    s.cache.misses = s.cache.providerCalls := by
  induction hr with
  | refl => rfl
  | step _ hs ih => exact hs.misses_eq ih

/-- What an entry is like: it has its own key, and an embedding that the provider has given. -/
def Genuine (trace : List (ℕ × Sign)) (key : String) (e : CacheEntry) : Prop :=
  e.textHash = key ∧ e.vector ≠ [] ∧ ∃ text, Digest.ofText text = key ∧ Provided trace text e.vector

/-- Every entry is one that the provider has given, at all times. -/
theorem Run.keeps (hr : (fresh limits now places).Run trace s) : s.cache.Keeps (Genuine trace) := by
  induction hr with
  | refl => exact .fresh limits _
  | @step s s' trace sign hr hs ih =>
      refine hs.keeps hr.attends ih ?_ ?_
      · rintro k e ⟨hhash, hne, text, hkey, t, i, result, company, hmem⟩
        exact ⟨hhash, hne, text, hkey, t, i, result, company, List.mem_cons_of_mem _ hmem⟩
      · rintro i text v result company rfl hne
        exact ⟨rfl, hne, text, rfl, s.now, i, result, company, List.mem_cons_self⟩

/-- Whoever has begun has been counted, or is yet to be. -/
theorem Run.balances (hr : (fresh limits now places).Run trace s)
    (hsingle : ∀ p ∈ trace, p.2.isSingle = true) :
    (∀ i f, s.fleet.flight? i = some f → f.IsSolid) ∧ s.balance = gets trace := by
  induction hr with
  | refl =>
      have hidle := idle_fresh limits now places
      refine ⟨fun i f hi => ?_, ?_⟩
      · rw [hidle i] at hi
        cases hi
      · rw [balance, Fleet.countIf_eq_zero_of_idle hidle]
        rfl
  | @step s s' trace sign hr hs ih =>
      obtain ⟨hsolid, hbalance⟩ := ih fun p hp => hsingle p (List.mem_cons_of_mem _ hp)
      have hsign : sign.isSingle = true := hsingle _ List.mem_cons_self
      refine ⟨hs.solid hsolid, ?_⟩
      rw [hs.balances hsign hsolid, hbalance, gets, gets, List.countP_cons]
      cases sign.isGet <;> simp

/-- **A cache is in order at all times**, whatever its lookups do and the provider answers. -/
theorem Run.inOrder (hr : (fresh limits now places).Run trace s) : s.InOrder limits trace where
  length_le := by
    have hlength := hr.keeps.length_le
    rwa [Cache.room, hr.limits_eq, Nat.max_comm] at hlength
  nodup := hr.keeps.nodup
  textHash_eq := fun k e he => (hr.keeps.entry k e he).1
  vector_ne_nil := fun k e he => (hr.keeps.entry k e he).2.1
  provided := fun k e he => (hr.keeps.entry k e he).2.2
  provided_of_injOn := fun hinj k e he text htext hkey => by
    obtain ⟨-, -, text', hkey', t, i, result, company, hmem⟩ := hr.keeps.entry k e he
    have htext' : text' ∈ texts trace := ⟨_, hmem, List.mem_singleton_self _⟩
    rw [hinj htext htext' (hkey.trans hkey'.symm)]
    exact ⟨t, i, result, company, hmem⟩
  misses_eq := hr.misses_eq
  calls_le := by
    have hcalls := hr.attends.provider.held_le
    rwa [hr.limits_eq, Nat.max_comm] at hcalls
  counted := fun hsingle hidle => by
    have hbalance := (hr.balances hsingle).2
    rwa [balance, Fleet.countIf_eq_zero_of_idle hidle, Nat.add_zero] at hbalance

/-- One lookup waits while another one asks, the cache is purged, and the answer is for both of
them. -/
theorem inOrder_of_shared : ∃ trace s, (fresh ⟨1, 1, 1⟩ 0 2).Run trace s ∧
    (0, .purged) ∈ trace ∧ (0, .answered 0 "橋梁" (.ok (some [1])) (.ok (some [1])) true) ∈ trace ∧
    (∀ p ∈ trace, p.2.isSingle = true) ∧ s.fleet.Idle ∧ s.cache.entries ≠ [] ∧
    s.cache.hits = 1 ∧ s.cache.misses = 1 ∧ s.InOrder ⟨1, 1, 1⟩ trace := by
  have hblank : Text.blank "橋梁" = false := by decide
  have h : (fresh ⟨1, 1, 1⟩ 0 2).Run [] _ := .refl
  have h := h.ask (m := 0) (i := 0) rfl hblank rfl rfl rfl
  have h := h.join (i := 1) (n := 0) rfl hblank rfl rfl rfl rfl
  have h := h.step (.purged _)
  have h := h.step (.answered (i := 0) (n := 0) (.ok (some [1])) rfl rfl rfl)
  have h := h.step (.served (i := 1) rfl rfl)
  refine ⟨_, _, h, by simp, List.mem_cons_of_mem _ List.mem_cons_self, ?_, ?_, ?_, ?_, ?_,
    h.inOrder⟩
  · simp [Sign.isSingle]
  · rintro (_ | _ | i) <;> rfl
  · exact List.cons_ne_nil _ _
  · rfl
  · rfl

end Traffic

end Archivist
