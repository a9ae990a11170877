import Archivist.Embedding.Batch
import Archivist.Proofs.Embedding.Fleet
import Mathlib.Data.Nat.Notation
import Mathlib.Tactic.SplitIfs

/-!
# What Lookups Do

`Flight.step` computes a step of a lookup. `Flight.Moves` says what a step can be, with a
constructor for everything that a lookup can do, and is what statements about steps are shown by
cases on (`Flight.moves_or_waits`).

Looking into the cache and remembering an embedding change the entries and nothing that lookups
share (`Cache.exists_of_lookUp`, `Cache.exists_of_remember`); opening a cell changes nothing else
(`Cache.exists_of_openCell`).
-/

namespace Archivist

namespace Cache

variable {c c' : Cache} {now : ℕ} {key : String}

/-- Looking up a key changes entries only. -/
theorem exists_of_lookUp {o : Option Embedding} (h : c.lookUp now key = (o, c')) :
    ∃ entries evictions, c' = { c with started := true, entries, evictions } := by
  simp only [lookUp] at h
  split at h
  · cases h
    exact ⟨c.entries, c.evictions, rfl⟩
  · split at h <;> cases h <;> exact ⟨_, _, rfl⟩

/-- Remembering an embedding changes entries only. -/
theorem exists_of_remember (c : Cache) (now : ℕ) (key : String) (v : Embedding) :
    ∃ entries evictions, c.remember now key v = { c with entries, evictions } := by
  simp only [remember]
  split <;> exact ⟨_, _, rfl⟩

/-- Opening a cell changes cells only. -/
theorem exists_of_openCell {n : ℕ} (h : c.openCell key = (n, c')) :
    ∃ pending cells, c' = { c with pending, cells } := by
  rw [openCell] at h
  split at h <;> cases h
  · exact ⟨c.pending, c.cells, rfl⟩
  · exact ⟨_, _, rfl⟩

end Cache

/-- What looking up a key and counting a hit preserve, the first look of a batch preserves. -/
theorem Batch.lookUp_induct {I : Cache → Prop} {now : ℕ}
    (hlook : ∀ {c c' : Cache} {key o}, I c → c.lookUp now key = (o, c') → I c')
    (hhit : ∀ {c : Cache}, I c → I c.countHit) {c c' : Cache} {texts : List String}
    {slots : List BatchSlot} (h : lookUp now c texts = (slots, c')) (hc : I c) : I c' := by
  induction texts generalizing c slots with
  | nil =>
      cases h
      exact hc
  | cons text rest ih =>
      rw [lookUp] at h
      split at h
      · rcases hrest : lookUp now c rest with ⟨slots', c''⟩
        rw [hrest] at h
        cases h
        exact ih hrest hc
      · rcases hl : c.lookUp now (Digest.ofText text) with ⟨_ | v, c₁⟩ <;> rw [hl] at h
        · rcases hrest : lookUp now c₁ rest with ⟨slots', c''⟩
          simp only [hrest] at h
          cases h
          exact ih hrest (hlook hc hl)
        · rcases hrest : lookUp now c₁.countHit rest with ⟨slots', c''⟩
          simp only [hrest] at h
          cases h
          exact ih hrest (hhit (hlook hc hl))

/-- The first look of a batch changes entries and counts hits. -/
theorem Batch.exists_of_lookUp {now : ℕ} {c c' : Cache} {texts : List String}
    {slots : List BatchSlot} (h : lookUp now c texts = (slots, c')) :
    ∃ started entries evictions hits, c' = { c with started, entries, evictions, hits } := by
  refine lookUp_induct (I := fun c' => ∃ started entries evictions hits,
    c' = { c with started, entries, evictions, hits }) ?_ ?_ h ⟨_, _, _, _, rfl⟩
  · rintro c₁ c₂ key o ⟨_, _, _, _, rfl⟩ hl
    obtain ⟨es, ev, rfl⟩ := Cache.exists_of_lookUp hl
    exact ⟨_, _, _, _, rfl⟩
  · rintro c₁ ⟨_, _, _, _, rfl⟩
    exact ⟨_, _, _, _, rfl⟩

namespace Flight

variable {now me n : ℕ} {f : Flight} {c : Cache}

/-- An embedding comes from the provider as it is, and is not empty. -/
theorem eq_of_outcome {reply : Landing} {v : Embedding} (h : outcome reply = .ok (some v)) :
    reply = .ok (some v) ∧ v ≠ [] := by
  cases reply with
  | error e => cases h
  | ok o =>
      obtain ⟨rfl, hv⟩ := Option.filter_eq_some_iff.1 (Except.ok.inj h)
      exact ⟨rfl, by simpa using hv⟩

/-- What a lookup does with a permit in hand. -/
inductive Boards (now : ℕ) (f : Flight) (n : ℕ) (c : Cache) : Move → Prop where
  /-- An earlier lookup has filled the cache. -/
  | hit (v : Embedding) (c₁ : Cache) (h : c.lookUp now f.key = (some v, c₁)) :
      Boards now f n c (.land (.ok (some v)) (f.depart n true (.ok (some v))
        { c₁.countHit with provider := c₁.provider.release }))
  /-- The provider is asked. -/
  | ask (c₁ : Cache) (h : c.lookUp now f.key = (none, c₁)) :
      Boards now f n c (.go (.asking n)
        { c₁ with misses := c₁.misses + 1, providerCalls := c₁.providerCalls + 1 })

/-- What an answer changes: entries, the permit, and what a lookup changes that leaves. -/
theorem exists_of_land {n : ℕ} {reply result : Landing} {c' : Cache}
    (h : f.land now n reply c = (result, c')) :
    result = outcome reply ∧ ∃ entries evictions,
      c' = f.depart n true (outcome reply)
        { c with entries, evictions, provider := c.provider.release } := by
  simp only [land, Prod.mk.injEq] at h
  obtain ⟨rfl, rfl⟩ := h
  refine ⟨rfl, ?_⟩
  split
  · rename_i v hv
    obtain ⟨entries, evictions, hr⟩ := Cache.exists_of_remember c now f.key v
    exact ⟨entries, evictions, by rw [hr, hv]⟩
  · exact ⟨c.entries, c.evictions, rfl⟩

/-- What a lookup does with a permit in hand is one of two things. -/
theorem boards_board (now : ℕ) (f : Flight) (n : ℕ) (c : Cache) :
    f.Boards now n c (f.board now n c) := by
  rw [board]
  rcases h : c.lookUp now f.key with ⟨v | v, c₁⟩
  · exact .ask c₁ h
  · exact .hit v c₁ h

/-- What a lookup can do. -/
inductive Moves (now me : ℕ) (f : Flight) (c : Cache) : Move → Prop where
  | blank (hphase : f.phase = .arriving) (hblank : Text.blank f.text = true) :
      Moves now me f c (.land (.ok none) c)
  | hit (hphase : f.phase = .arriving) (hblank : Text.blank f.text = false) (v : Embedding)
      (c₁ : Cache) (h : c.lookUp now f.key = (some v, c₁)) :
      Moves now me f c (.land (.ok (some v)) c₁.countHit)
  | miss (hphase : f.phase = .arriving) (hblank : Text.blank f.text = false) (c₁ : Cache)
      (h : c.lookUp now f.key = (none, c₁)) : Moves now me f c (.go .missed c₁)
  /-- The cell of the text has a value already. -/
  | find (hphase : f.phase = .missed) (n : ℕ) (c₁ : Cache) (hopen : c.openCell f.key = (n, c₁))
      (v : Option Embedding) (hv : (c₁.cell n).value = some v) :
      Moves now me f c (.land (.ok v) (f.depart n false (.ok v) c₁))
  /-- The cell of the text is free. -/
  | enter (hphase : f.phase = .missed) (n : ℕ) (c₁ : Cache) (hopen : c.openCell f.key = (n, c₁))
      (hv : (c₁.cell n).value = none) (gate : Gate)
      (hgate : (c₁.cell n).gate.enter me = (true, gate)) :
      Moves now me f c (.go (.admitted n) (c₁.updateCell n fun x => { x with gate }))
  /-- Another lookup fills the cell of the text. -/
  | join (hphase : f.phase = .missed) (n : ℕ) (c₁ : Cache) (hopen : c.openCell f.key = (n, c₁))
      (hv : (c₁.cell n).value = none) (gate : Gate)
      (hgate : (c₁.cell n).gate.enter me = (false, gate)) :
      Moves now me f c (.go (.boarding n) (c₁.updateCell n fun x => { x with gate }))
  /-- The cell has been filled. -/
  | share (n : ℕ) (hphase : f.phase = .boarding n) (v : Option Embedding)
      (hv : (c.cell n).value = some v) :
      Moves now me f c (.land (.ok v) (f.depart n false (.ok v) c))
  /-- It has become the turn of the lookup to fill the cell. -/
  | turn (n : ℕ) (hphase : f.phase = .boarding n) (hv : (c.cell n).value = none) (gate : Gate)
      (hgate : (c.cell n).gate.pickUp me = some gate) :
      Moves now me f c (.go (.admitted n) (c.updateCell n fun x => { x with gate }))
  /-- There is a permit. -/
  | board (n : ℕ) (hphase : f.phase = .admitted n) (provider : Gate)
      (hgate : c.provider.enter me = (true, provider)) {m : Move}
      (h : f.Boards now n { c with provider } m) : Moves now me f c m
  /-- There is no permit. -/
  | queue (n : ℕ) (hphase : f.phase = .admitted n) (provider : Gate)
      (hgate : c.provider.enter me = (false, provider)) :
      Moves now me f c (.go (.queuing n) { c with provider })
  /-- A permit has been given to the lookup. -/
  | permit (n : ℕ) (hphase : f.phase = .queuing n) (provider : Gate)
      (hgate : c.provider.pickUp me = some provider) {m : Move}
      (h : f.Boards now n { c with provider } m) : Moves now me f c m

/-- What a lookup waits for. -/
inductive Waits (me : ℕ) (f : Flight) (c : Cache) : Prop where
  | turn (n : ℕ) (hphase : f.phase = .boarding n) (hv : (c.cell n).value = none)
      (hgate : (c.cell n).gate.pickUp me = none)
  | permit (n : ℕ) (hphase : f.phase = .queuing n) (hgate : c.provider.pickUp me = none)
  | answer (n : ℕ) (hphase : f.phase = .asking n)

/-- **A step is one of the things that a lookup can do**, or there is something to wait for. -/
theorem moves_or_waits (now me : ℕ) (f : Flight) (c : Cache) :
    (f.step now me c = .wait ∧ f.Waits me c) ∨ f.Moves now me c (f.step now me c) := by
  rw [step]
  split
  · rename_i hphase
    split
    · rename_i hblank
      exact .inr (.blank hphase hblank)
    · rename_i hblank
      have hblank' := Bool.eq_false_iff.2 hblank
      rcases hl : c.lookUp now f.key with ⟨v | v, c₁⟩
      · exact .inr (.miss hphase hblank' c₁ hl)
      · exact .inr (.hit hphase hblank' v c₁ hl)
  · rename_i hphase
    rcases ho : c.openCell f.key with ⟨n, c₁⟩
    cases hv : (c₁.cell n).value with
    | some v =>
        simp only [hv]
        exact .inr (.find hphase n c₁ ho v hv)
    | none =>
        rcases hg : (c₁.cell n).gate.enter me with ⟨_ | _, gate⟩ <;> simp only [hv, hg]
        · exact .inr (.join hphase n c₁ ho hv gate hg)
        · exact .inr (.enter hphase n c₁ ho hv gate hg)
  · rename_i n hphase
    cases hv : (c.cell n).value with
    | some v => exact .inr (.share n hphase v hv)
    | none =>
        cases hg : (c.cell n).gate.pickUp me with
        | none => exact .inl ⟨rfl, .turn n hphase hv hg⟩
        | some gate => exact .inr (.turn n hphase hv gate hg)
  · rename_i n hphase
    rcases hg : c.provider.enter me with ⟨_ | _, provider⟩
    · exact .inr (.queue n hphase provider hg)
    · exact .inr (.board n hphase provider hg (boards_board _ _ _ _))
  · rename_i n hphase
    cases hg : c.provider.pickUp me with
    | none => exact .inl ⟨rfl, .permit n hphase hg⟩
    | some provider => exact .inr (.permit n hphase provider hg (boards_board _ _ _ _))
  · rename_i n hphase
    exact .inl ⟨rfl, .answer n hphase⟩

/-- A lookup that can go on makes one of the moves that are listed. -/
theorem moves_of_step {m : Move} (h : f.step now me c = m) (hm : m ≠ .wait) :
    f.Moves now me c m := by
  subst h
  rcases moves_or_waits now me f c with ⟨hw, -⟩ | hmoves
  · exact absurd hw hm
  · exact hmoves

/-- The cache after a move. -/
def Move.After (p : Cache → Prop) : Move → Prop
  | .wait => True
  | .go _ c | .land _ c => p c

/-! ### Limits -/

/-- Leaving a cell does not change the limits. -/
theorem limits_depart (f : Flight) (n : ℕ) (filler : Bool) (result : Landing) (c : Cache) :
    (f.depart n filler result c).limits = c.limits := by
  cases filler <;> cases result <;> rfl

/-- Being dropped does not change the limits. -/
theorem limits_abandon (me : ℕ) (f : Flight) (c : Cache) : (f.abandon me c).limits = c.limits := by
  rw [abandon]
  split <;> rfl

/-- No move changes a limit. -/
theorem Moves.limits_eq {m : Move} (hm : f.Moves now me c m) :
    m.After fun c' => c'.limits = c.limits := by
  have hboards : ∀ {n provider m}, f.Boards now n { c with provider } m →
      m.After fun c' => c'.limits = c.limits := fun {n provider m} hb => by
    cases hb with
    | hit v c₁ hl | ask c₁ hl =>
        obtain ⟨es, ev, rfl⟩ := Cache.exists_of_lookUp hl
        rfl
  cases hm with
  | blank | turn | queue => rfl
  | hit _ _ v c₁ hl | miss _ _ c₁ hl =>
      obtain ⟨es, ev, rfl⟩ := Cache.exists_of_lookUp hl
      rfl
  | find _ n c₁ ho | enter _ n c₁ ho | join _ n c₁ ho =>
      obtain ⟨pending, cells, rfl⟩ := Cache.exists_of_openCell ho
      rfl
  | share => rfl
  | board _ _ _ _ hb | permit _ _ _ _ hb => exact hboards hb

end Flight

/-! ### Cells

A cell is open as long as it is found under its key, and has a value from the moment on at which it
is filled. What becomes of cells when one is changed or opened, and when a lookup leaves or is
dropped, is said here once.
-/

namespace Cache

variable {c c' : Cache} {key : String} {n : ℕ}

/-- An update concerns one cell. -/
theorem cell_updateCell (h : n < c.cells.length) (g : Cell → Cell) (m : ℕ) :
    (c.updateCell n g).cell m = if m = n then g (c.cell n) else c.cell m := by
  simp only [cell, updateCell, List.getD_eq_getElem?_getD, List.getElem?_modify]
  by_cases hm : m = n
  · subst hm
    rw [if_pos rfl, List.getElem?_eq_getElem h]
    simp
  · rw [if_neg hm]
    simp only [if_neg (Ne.symm hm), id_map']

/-- Changing a cell makes none. -/
@[simp] theorem length_updateCell (c : Cache) (n : ℕ) (g : Cell → Cell) :
    (c.updateCell n g).cells.length = c.cells.length :=
  List.length_modify ..

/-- What becomes of the gate of a cell does not matter to its value. -/
theorem value_updateGate (c : Cache) (n m : ℕ) (g : Cell → Gate) :
    ((c.updateCell n fun x => { x with gate := g x }).cell m).value = (c.cell m).value := by
  simp only [cell, updateCell, List.getD_eq_getElem?_getD, List.getElem?_modify]
  cases c.cells[m]? with
  | none => rfl
  | some x =>
      rw [Option.map_eq_map, Option.map_some, Option.getD_some]
      split <;> rfl

/-- Opening a cell changes none that there are. -/
theorem cell_openCell (h : c.openCell key = (n, c')) (m : ℕ) : c'.cell m = c.cell m := by
  rw [openCell] at h
  split at h <;> cases h
  · rfl
  · simp only [cell, List.getD_eq_getElem?_getD, List.getElem?_append]
    split
    · rfl
    · rename_i hlt
      rw [List.getElem?_eq_none (Nat.le_of_not_lt hlt)]
      cases m - c.cells.length <;> rfl

/-- Opening a cell closes none. -/
theorem pending_subset_openCell (h : c.openCell key = (n, c')) : c.pending ⊆ c'.pending := by
  rw [openCell] at h
  split at h <;> cases h
  · exact List.Subset.refl _
  · exact List.subset_cons_self _ _

/-- Opening a cell opens no other. -/
theorem mem_or_eq_of_openCell {p : String × ℕ} (h : c.openCell key = (n, c'))
    (hp : p ∈ c'.pending) : p ∈ c.pending ∨ p = (key, n) := by
  rw [openCell] at h
  split at h <;> cases h
  · exact .inl hp
  · exact (List.mem_cons.1 hp).symm

end Cache

namespace Flight

variable {n : ℕ} {f : Flight} {c : Cache}

/-! ### Lookups that leave -/

/-- A lookup that leaves closes its cell. -/
theorem pending_depart (f : Flight) (n : ℕ) (filler : Bool) (result : Landing) (c : Cache) :
    (f.depart n filler result c).pending = c.pending.filter (· ≠ (f.key, n)) := by
  cases filler <;> cases result <;> rfl

/-- A lookup that has only waited for its cell changes none. -/
theorem cell_depart (f : Flight) (n m : ℕ) (result : Landing) (c : Cache) :
    (f.depart n false result c).cell m = c.cell m := by
  cases result <;> rfl

/-- A lookup that fills its cell gives it a value. -/
theorem value_depart_ok (hn : n < c.cells.length) (f : Flight) (v : Option Embedding) (m : ℕ) :
    ((f.depart n true (.ok v) c).cell m).value = if m = n then some v else (c.cell m).value := by
  have hcell : (f.depart n true (.ok v) c).cell m =
      (c.updateCell n fun x => { x with value := some v }).cell m := rfl
  rw [hcell, Cache.cell_updateCell hn]
  split <;> rfl

/-- A lookup that fails to fill its cell changes no value. -/
theorem value_depart_error (f : Flight) (n : ℕ) (e : Failure) (c : Cache) (m : ℕ) :
    ((f.depart n true (.error e) c).cell m).value = (c.cell m).value :=
  c.value_updateGate n m fun x => x.gate.release

/-- A lookup that has tried to fill its cell has filled it with what it came to, if at all. -/
theorem value_depart {result : Landing} {m : ℕ} {v : Option Embedding}
    (h : ((f.depart n true result c).cell m).value = some v) :
    (c.cell m).value = some v ∨ (m = n ∧ result = .ok v) := by
  cases result with
  | error e => exact .inl (by rwa [value_depart_error] at h)
  | ok w =>
      by_cases hn : n < c.cells.length
      · rw [value_depart_ok hn] at h
        split at h
        · rename_i hm
          exact .inr ⟨hm, congrArg Except.ok (Option.some.inj h)⟩
        · exact .inl h
      · have hcells : (c.updateCell n fun x => { x with value := some w }).cells = c.cells :=
          List.modify_eq_self (Nat.le_of_not_lt hn)
        have hcell : (f.depart n true (.ok w) c).cell m =
            (c.updateCell n fun x => { x with value := some w }).cell m := rfl
        rw [hcell, Cache.cell, hcells] at h
        exact .inl h

/-- A lookup that is dropped closes no cell. -/
theorem pending_abandon (me : ℕ) (f : Flight) (c : Cache) :
    (f.abandon me c).pending = c.pending := by
  rw [abandon]
  split <;> rfl

/-- A lookup that is dropped changes no value. -/
theorem value_abandon (me : ℕ) (f : Flight) (c : Cache) (m : ℕ) :
    ((f.abandon me c).cell m).value = (c.cell m).value := by
  rw [abandon]
  split
  · rfl
  · rfl
  · exact Cache.value_updateGate _ _ _ _
  · exact Cache.value_updateGate _ _ _ _
  · exact Cache.value_updateGate { c with provider := c.provider.leave me } _ _ _
  · exact Cache.value_updateGate { c with provider := c.provider.release } _ _ _

end Flight

end Archivist
