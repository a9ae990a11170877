import Archivist.Proofs.Embedding.Attends

/-!
# Traffic at a Cache

A cache is used by many lookups at a time, single ones and batches of them. `Traffic` is a cache
with the time and the lookups under way, `Traffic.Step` is what can happen next: a lookup begins,
goes on, is answered by the provider or is dropped where it stands; the cache is purged or emptied;
time passes. In between two steps of one lookup any other may take any number of steps, and the
provider may answer whenever and whatever it wants. A step is what a lookup does between two points
at which it can be suspended. Lookups take turns at such points only, so nothing comes between the
parts of a step: where a call is made and counted as a miss, there is no moment with one and not the
other.

`Traffic.Run` is a run of steps with a trace of what has happened. In every run from a cache that
has not been used the cache attends to its lookups (`Traffic.Run.attends`).
-/

namespace Archivist

/-- Whether lookups other than number `me` are in a cell. -/
def Fleet.company (fs : Fleet) (me n : ℕ) : Bool :=
  List.any (fs.set me none) (·.any (·.cell? = some n))

/-- A cache in use. -/
structure Traffic where
  now : ℕ
  cache : Cache
  /-- The lookups under way, each at its place. -/
  fleet : Fleet

namespace Traffic

/-- What happens at a cache. Lookups are known by their places. -/
inductive Sign where
  | began (me : ℕ) (text : String)
  | batched (texts : List String)
  | moved (me : ℕ)
  /-- A lookup has its outcome without a provider call of its own. -/
  | served (me : ℕ) (text : String) (result : Landing)
  /-- The provider answers a lookup, which has its outcome now; others are in its cell or not. -/
  | answered (me : ℕ) (text : String) (reply result : Landing) (company : Bool)
  | dropped (me : ℕ)
  | purged
  | invalidated
  | waited

/-- What happens as long as lookups are single ones, none is dropped and the cache is not
emptied. -/
def Sign.isSingle : Sign → Bool
  | .batched _ | .dropped _ | .invalidated => false
  | _ => true

/-- A cache that has not been used, and places for lookups. -/
def fresh (limits : CacheLimits) (now places : ℕ) : Traffic :=
  { now, cache := .fresh limits, fleet := List.replicate places none }

/-- The lookups that a batch sends on after its first look. -/
def batchFleet (slots : List BatchSlot) : Fleet :=
  (Batch.openTexts slots).map fun text => some { Flight.start text with phase := .missed }

/-- What can happen next. -/
inductive Step : Traffic → Sign → Traffic → Prop where
  | began {s : Traffic} {i : ℕ} (text : String) (hi : s.fleet[i]? = some none) :
      Step s (.began i text) { s with fleet := s.fleet.set i (some (Flight.start text)) }
  /-- A batch looks up all its texts at once and sends a lookup on for each that was not found. -/
  | batched {s : Traffic} {texts : List String} {slots : List BatchSlot} {c : Cache}
      (h : Batch.lookUp s.now s.cache texts = (slots, c)) :
      Step s (.batched texts) { s with cache := c, fleet := s.fleet ++ batchFleet slots }
  | moved {s : Traffic} {i : ℕ} {f : Flight} {p : Phase} {c : Cache}
      (hi : s.fleet.flight? i = some f) (h : f.step s.now i s.cache = .go p c) :
      Step s (.moved i)
        { s with cache := c, fleet := s.fleet.set i (some { f with phase := p }) }
  | served {s : Traffic} {i : ℕ} {f : Flight} {result : Landing} {c : Cache}
      (hi : s.fleet.flight? i = some f) (h : f.step s.now i s.cache = .land result c) :
      Step s (.served i f.text result) { s with cache := c, fleet := s.fleet.set i none }
  | answered {s : Traffic} {i n : ℕ} {f : Flight} {result : Landing} {c : Cache} (reply : Landing)
      (hi : s.fleet.flight? i = some f) (hphase : f.phase = .asking n)
      (h : f.land s.now n reply s.cache = (result, c)) :
      Step s (.answered i f.text reply result (s.fleet.company i n))
        { s with cache := c, fleet := s.fleet.set i none }
  | dropped {s : Traffic} {i : ℕ} {f : Flight} (hi : s.fleet.flight? i = some f) :
      Step s (.dropped i) { s with cache := f.abandon i s.cache, fleet := s.fleet.set i none }
  | purged (s : Traffic) : Step s .purged { s with cache := (s.cache.purge s.now).2 }
  | invalidated (s : Traffic) : Step s .invalidated { s with cache := s.cache.invalidate }
  /-- The clock never goes back. -/
  | waited {s : Traffic} {t : ℕ} (h : s.now ≤ t) : Step s .waited { s with now := t }

/-- A run of steps, with what has happened and when, the latest first. -/
inductive Run (start : Traffic) : List (ℕ × Sign) → Traffic → Prop where
  | refl : Run start [] start
  | step {s s' : Traffic} {trace : List (ℕ × Sign)} {sign : Sign} (h : Run start trace s)
      (hs : s.Step sign s') : Run start ((s.now, sign) :: trace) s'

variable {s s' : Traffic} {sign : Sign} {trace : List (ℕ × Sign)} {limits : CacheLimits}
  {now places : ℕ}

/-- Nobody is under way at a cache that has not been used. -/
theorem idle_fresh (limits : CacheLimits) (now places : ℕ) :
    (fresh limits now places).fleet.Idle := by
  intro i
  rw [Fleet.flight?, fresh, List.getElem?_replicate]
  split <;> rfl

/-- A step before a run. -/
theorem Run.head {s₁ s₂ : Traffic} (hs : s.Step sign s₁) (hr : s₁.Run trace s₂) :
    s.Run (trace ++ [(s.now, sign)]) s₂ := by
  induction hr with
  | refl => exact .step .refl hs
  | step _ hs' ih => exact ih.step hs'

theorem Run.trans {start s₁ : Traffic} {trace₁ : List (ℕ × Sign)} (h : start.Run trace₁ s₁)
    (hr : s₁.Run trace s) : start.Run (trace ++ trace₁) s := by
  induction hr with
  | refl => exact h
  | step _ hs ih => exact ih.step hs

/-- The clock never goes back. -/
theorem Step.now_le (hs : s.Step sign s') : s.now ≤ s'.now := by
  cases hs with
  | waited h => exact h
  | _ => exact Nat.le_refl _

/-- The clock never goes back in a run. -/
theorem Run.now_le {start : Traffic} (hr : start.Run trace s) : start.now ≤ s.now := by
  induction hr with
  | refl => exact Nat.le_refl _
  | step _ hs ih => exact Nat.le_trans ih hs.now_le

/-! ### Lookups and their cells -/

/-- Lookups that have missed join the others. -/
theorem attends_append_missed {c : Cache} {fs : Fleet} (h : c.Attends fs) (texts : List String) :
    c.Attends (fs ++ texts.map fun text => some { Flight.start text with phase := .missed }) := by
  induction texts generalizing fs with
  | nil => rwa [List.map_nil, List.append_nil]
  | cons text rest ih =>
      rw [List.map_cons, List.append_cons, Fleet.append_some]
      refine ih (h.append_none.exchange (Fleet.getElem?_append_none fs) rfl ?_)
      rintro g ⟨⟩
      exact ⟨rfl, rfl⟩

/-- Places for lookups may be added. -/
theorem attends_replicate {c : Cache} (h : c.Attends []) (n : ℕ) :
    c.Attends (List.replicate n none) := by
  induction n with
  | zero => exact h
  | succ n ih =>
      rw [List.replicate_succ']
      exact ih.append_none

/-- Whatever happens, the cache attends to those who are under way then. -/
theorem Step.attends (hs : s.Step sign s') (h : s.cache.Attends s.fleet) :
    s'.cache.Attends s'.fleet := by
  cases hs with
  | began text hi =>
      refine h.exchange hi rfl ?_
      rintro g ⟨⟩
      exact ⟨rfl, rfl⟩
  | batched hl =>
      obtain ⟨started, entries, evictions, hits, rfl⟩ := Batch.exists_of_lookUp hl
      have hc : Cache.Attends { s.cache with started, entries, evictions, hits } s.fleet :=
        h.congr rfl rfl rfl rfl
      exact attends_append_missed hc _
  | moved hi hm => exact h.step_go hi hm
  | served hi hm => exact h.step_land hi hm
  | answered reply hi hphase hl => exact h.land hi hphase hl
  | dropped hi => exact h.abandon hi
  | purged => exact h.congr rfl rfl rfl rfl
  | invalidated => exact h.congr rfl rfl rfl rfl
  | waited _ => exact h

/-- **A cache attends to its lookups at all times.** -/
theorem Run.attends (hr : (fresh limits now places).Run trace s) : s.cache.Attends s.fleet := by
  induction hr with
  | refl => exact attends_replicate (Cache.attends_fresh limits) places
  | step _ hs ih => exact hs.attends ih

/-! ### Limits -/

/-- No step changes the limits. -/
theorem Step.limits_eq (hs : s.Step sign s') : s'.cache.limits = s.cache.limits := by
  cases hs with
  | began | purged | invalidated | waited => rfl
  | batched hl =>
      obtain ⟨started, entries, evictions, hits, rfl⟩ := Batch.exists_of_lookUp hl
      rfl
  | moved hi hm | served hi hm => exact (Flight.moves_of_step hm nofun).limits_eq
  | answered reply hi hphase hl =>
      obtain ⟨-, es, ev, rfl⟩ := Flight.exists_of_land hl
      exact Flight.limits_depart _ _ _ _ _
  | dropped hi => exact Flight.limits_abandon _ _ _

/-- Neither does a run. -/
theorem Run.limits_eq (hr : (fresh limits now places).Run trace s) : s.cache.limits = limits := by
  induction hr with
  | refl => rfl
  | step _ hs ih => exact hs.limits_eq.trans ih

/-- With an empty cache and a permit free, a lookup of a text that has no cell asks the provider. -/
theorem Run.ask {start : Traffic} {c : Cache} {fs : Fleet} {i m : ℕ} {text : String}
    (hr : start.Run trace ⟨now, c, fs⟩) (hi : fs[i]? = some none)
    (hblank : Text.blank text = false) (hentries : c.entries = [])
    (hnew : c.pending.find? (·.1 = Digest.ofText text) = none)
    (hfree : c.provider.free = m + 1) :
    start.Run
      ((now, .moved i) :: (now, .moved i) :: (now, .moved i) :: (now, .began i text) :: trace)
      ⟨now, { c with
        started := true, pending := (Digest.ofText text, c.cells.length) :: c.pending,
        cells := c.cells ++ [{ gate := { free := 0 } }],
        provider := { c.provider with free := m },
        misses := c.misses + 1, providerCalls := c.providerCalls + 1 },
      fs.set i (some { Flight.start text with phase := .asking c.cells.length })⟩ := by
  have hset : ∀ x y : Option Flight, List.set (List.set fs i x) i y = fs.set i y := fun _ _ =>
    List.set_set _
  have hflight : ∀ x, Fleet.flight? (fs.set i x) i = x := fun x => by
    rw [Fleet.flight?_set hi, if_pos rfl]
  have hopen : Cache.openCell { c with started := true } (Digest.ofText text) =
      (c.cells.length, { c with
        started := true, pending := (Digest.ofText text, c.cells.length) :: c.pending,
        cells := c.cells ++ [{}] }) := by
    simp only [Cache.openCell, hnew]
  have hcells : (c.cells ++ [({} : Cell)]).modify c.cells.length
      (fun x => { x with gate := { free := 0 } }) =
        c.cells ++ [{ gate := { free := 0 } }] := by
    simp [List.modify_eq_take_cons_drop]
  -- The lookup misses, is let into a new cell and has a permit at once.
  have h := hr.step (.began text hi)
  have h := h.step (.moved (p := .missed) (c := { c with started := true }) (hflight _) (by
    simp [Flight.step, Flight.start, hblank, Cache.lookUp, Cache.find?, hentries]))
  simp only [hset] at h
  have h := h.step (.moved (p := .admitted c.cells.length)
    (c := { c with
      started := true, pending := (Digest.ofText text, c.cells.length) :: c.pending,
      cells := c.cells ++ [{ gate := { free := 0 } }] }) (hflight _) (by
    simpa [Flight.step, Flight.start, hopen, Cache.cell, Gate.enter, Cache.updateCell]
      using hcells))
  simp only [hset] at h
  have h := h.step (.moved (p := .asking c.cells.length)
    (c := { c with
      started := true, pending := (Digest.ofText text, c.cells.length) :: c.pending,
      cells := c.cells ++ [{ gate := { free := 0 } }],
      provider := { c.provider with free := m },
      misses := c.misses + 1, providerCalls := c.providerCalls + 1 }) (hflight _) (by
    simp [Flight.step, Flight.start, Gate.enter, hfree, Flight.board, Cache.lookUp, Cache.find?,
      hentries]))
  simpa only [hset] using h

/-- A lookup of a text that somebody else is asking the provider for waits in the cell of the
text. -/
theorem Run.join {start : Traffic} {c : Cache} {fs : Fleet} {i n : ℕ} {text : String}
    {pending : List (String × ℕ)}
    (hr : start.Run trace ⟨now, c, fs⟩) (hi : fs[i]? = some none)
    (hblank : Text.blank text = false) (hentries : c.entries = [])
    (hopen : c.pending = (Digest.ofText text, n) :: pending)
    (hvalue : (c.cell n).value = none) (htaken : (c.cell n).gate.free = 0) :
    start.Run ((now, .moved i) :: (now, .moved i) :: (now, .began i text) :: trace)
      ⟨now, Cache.updateCell { c with started := true } n fun x =>
        { x with gate := { (c.cell n).gate with waiting := (c.cell n).gate.waiting ++ [i] } },
      fs.set i (some { Flight.start text with phase := .boarding n })⟩ := by
  have hset : ∀ x y : Option Flight, List.set (List.set fs i x) i y = fs.set i y := fun _ _ =>
    List.set_set _
  have hflight : ∀ x, Fleet.flight? (fs.set i x) i = x := fun x => by
    rw [Fleet.flight?_set hi, if_pos rfl]
  have hcell : Cache.openCell { c with started := true } (Digest.ofText text) =
      (n, { c with started := true }) := by
    simp [Cache.openCell, hopen]
  have hgate : (c.cell n).gate.enter i =
      (false, { (c.cell n).gate with waiting := (c.cell n).gate.waiting ++ [i] }) := by
    simp [Gate.enter, htaken]
  have h := hr.step (.began text hi)
  have h := h.step (.moved (p := .missed) (c := { c with started := true }) (hflight _) (by
    simp [Flight.step, Flight.start, hblank, Cache.lookUp, Cache.find?, hentries]))
  simp only [hset] at h
  have h := h.step (.moved (p := .boarding n) (hflight _) (by
    simp only [Flight.step, Flight.start, hcell]
    rw [show Cache.cell { c with started := true } n = c.cell n from rfl, hvalue, hgate]
    rfl))
  simpa only [hset] using h

end Traffic

end Archivist
