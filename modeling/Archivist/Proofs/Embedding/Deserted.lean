import Archivist.Proofs.Embedding.Traffic
import Mathlib.Data.List.Perm.Subperm

/-!
# Cells Left Behind

A lookup that leaves with an outcome, a failure too, closes its cell. One that is dropped has no
outcome and closes nothing: if nobody else is in its cell, the cell stays open and is deserted until
its text is looked up again. A lookup whose provider call panics is dropped as well.

Nothing else deserts a cell, and a deserted one is as good as new, so lookups cannot tell. It does
take up room: as long as their texts do not come up again there can be as many deserted cells as
lookups have been dropped.

## Main results

* `Traffic.Run.deserted_spec`: an open cell has a lookup of its key in it or is deserted, and there
  are at most as many deserted cells as lookups have been dropped.
* `Traffic.exists_deserted`: there can be as many.
-/

namespace Archivist

namespace Cache

variable {c c' : Cache} {fs : Fleet} {i n now : ℕ} {f : Flight} {key : String}
  {x y : Option Flight} {p : String × ℕ}

/-- The open cells that no lookup is in. -/
def deserted (c : Cache) (fs : Fleet) : List (String × ℕ) :=
  c.pending.filter fun (_, n) => fs.countIf (·.cell? = some n) = 0

/-- A cell is deserted if it is open and nobody is in it. -/
theorem mem_deserted_iff : p ∈ c.deserted fs ↔
    p ∈ c.pending ∧ ∀ i f, fs.flight? i = some f → f.cell? ≠ some p.2 := by
  rw [deserted, List.mem_filter, decide_eq_true_iff, Fleet.countIf_eq_zero_iff]
  simp only [decide_eq_false_iff_not, ne_eq]

/-- In an open cell that is not deserted there is somebody. -/
theorem exists_of_not_mem_deserted (hopen : p ∈ c.pending) (hp : p ∉ c.deserted fs) :
    ∃ i f, fs.flight? i = some f ∧ f.cell? = some p.2 := by
  by_contra hnobody
  exact hp (mem_deserted_iff.2 ⟨hopen, fun i f hi hf => hnobody ⟨i, f, hi, hf⟩⟩)

/-- If nobody is under way, all open cells are deserted. -/
theorem deserted_of_idle (c : Cache) (h : fs.Idle) : c.deserted fs = c.pending := by
  refine List.filter_eq_self.2 fun p _ => ?_
  simp [Fleet.countIf_eq_zero_of_idle h]

/-! ### Lookups and deserted cells -/

/-- What one lookup does deserts no cell, unless the lookup leaves an open cell or opens one and
does not get into it. -/
theorem deserted_set_subset (hi : fs[i]? = some x)
    (h : ∀ p ∈ c'.pending, y.bind Flight.cell? ≠ some p.2 →
      p ∈ c.pending ∧ x.bind Flight.cell? ≠ some p.2) :
    c'.deserted (fs.set i y) ⊆ c.deserted fs := by
  intro p hp
  obtain ⟨hopen, hnobody⟩ := mem_deserted_iff.1 hp
  have hflight := Fleet.flight?_set hi y
  have hy : y.bind Flight.cell? ≠ some p.2 := fun heq => by
    obtain ⟨g, rfl, hg⟩ := Option.bind_eq_some_iff.1 heq
    exact hnobody i g (by rw [hflight, if_pos rfl]) hg
  obtain ⟨hopen', hx⟩ := h p hopen hy
  refine mem_deserted_iff.2 ⟨hopen', fun j g hj => ?_⟩
  by_cases hji : j = i
  · rw [hji, Fleet.flight?_of_getElem? hi] at hj
    rwa [hj] at hx
  · exact hnobody j g (by rw [hflight, if_neg hji, hj])

/-- More lookups desert no cell. -/
theorem deserted_append_subset (c : Cache) (fs gs : Fleet) :
    c.deserted (fs ++ gs) ⊆ c.deserted fs := by
  intro p hp
  obtain ⟨hopen, hnobody⟩ := mem_deserted_iff.1 hp
  refine mem_deserted_iff.2 ⟨hopen, fun j g hj => hnobody j g ?_⟩
  obtain ⟨hlt, -⟩ := List.getElem?_eq_some_iff.1 (Fleet.getElem?_of_flight? hj)
  rw [Fleet.flight?_append, if_pos hlt, hj]

/-- A lookup goes on where it is. -/
theorem deserted_stay {phase : Phase} (hi : fs.flight? i = some f)
    (hpending : c'.pending = c.pending) (hcell : f.cell? = Flight.cell? { f with phase }) :
    c'.deserted (fs.set i (some { f with phase })) ⊆ c.deserted fs := by
  refine deserted_set_subset (Fleet.getElem?_of_flight? hi) fun p hp hy => ⟨hpending ▸ hp, ?_⟩
  rw [Option.bind_some] at hy ⊢
  rwa [hcell]

/-- A lookup gets into the open cell of its key. -/
theorem deserted_enter {phase : Phase} (hi : fs.flight? i = some f) (hf : f.cell? = none)
    (hopen : c.openCell f.key = (n, c')) (hcell : Flight.cell? { f with phase } = some n)
    (g : Cell → Cell) :
    (c'.updateCell n g).deserted (fs.set i (some { f with phase })) ⊆ c.deserted fs := by
  refine deserted_set_subset (Fleet.getElem?_of_flight? hi) fun p hp hy => ⟨?_, ?_⟩
  · refine (mem_or_eq_of_openCell hopen hp).resolve_right fun heq => hy ?_
    rw [heq, Option.bind_some, hcell]
  · rw [Option.bind_some, hf]
    nofun

/-- A lookup leaves its cell and closes it. -/
theorem deserted_depart (ha : c.Attends fs) (hi : fs.flight? i = some f) (hf : f.cell? = some n)
    (hpending : c'.pending = c.pending) (filler : Bool) (result : Landing) :
    (f.depart n filler result c').deserted (fs.set i none) ⊆ c.deserted fs := by
  refine deserted_set_subset (Fleet.getElem?_of_flight? hi) fun p hp _ => ?_
  rw [Flight.pending_depart, hpending] at hp
  refine ⟨List.mem_of_mem_filter hp, fun heq => ?_⟩
  rw [Option.bind_some, hf, Option.some.injEq] at heq
  exact ha.not_mem_closeCell hi hf p.1 (heq ▸ hp)

/-- A lookup in an open cell is of its key. -/
theorem Attends.key_eq_of_mem_pending (ha : c.Attends fs) (hi : fs.flight? i = some f)
    (hf : f.cell? = some n) (hopen : (key, n) ∈ c.pending) : f.key = key := by
  obtain ⟨owner, hl⟩ := ha.listed
  rw [← (hl.pending key n hopen).1, hl.owner_eq i f n hi hf]

/-- A lookup that is dropped deserts its own cell at most. -/
theorem deserted_abandon (ha : c.Attends fs) (hi : fs.flight? i = some f) :
    (f.abandon i c).deserted (fs.set i none) ⊆
      (f.cell?.map fun n => (f.key, n)).toList ++ c.deserted fs := by
  intro p hp
  obtain ⟨hopen, hnobody⟩ := mem_deserted_iff.1 hp
  rw [Flight.pending_abandon] at hopen
  by_cases hf : f.cell? = some p.2
  · have hkey : f.key = p.1 := ha.key_eq_of_mem_pending hi hf hopen
    exact List.mem_append_left _ (by simp [hf, hkey])
  · refine List.mem_append_right _ (mem_deserted_iff.2 ⟨hopen, fun j g hj => ?_⟩)
    by_cases hji : j = i
    · rw [hji, hi] at hj
      cases hj
      exact hf
    · exact hnobody j g (by rw [Fleet.flight?_set (Fleet.getElem?_of_flight? hi), if_neg hji, hj])

/-- After a move of a lookup no more cells are deserted than before. -/
def DesertsNone (c : Cache) (fs : Fleet) (i : ℕ) (f : Flight) : Flight.Move → Prop
  | .go phase c' => c'.deserted (fs.set i (some { f with phase })) ⊆ c.deserted fs
  | .land _ c' => c'.deserted (fs.set i none) ⊆ c.deserted fs
  | .wait => False

/-- With a permit in hand a lookup leaves no cell open that it was alone in. -/
theorem desertsNone_of_boards {m : Flight.Move} {provider : Gate} (ha : c.Attends fs)
    (hi : fs.flight? i = some f) (hf : f.cell? = some n)
    (hb : f.Boards now n { c with provider } m) : c.DesertsNone fs i f m := by
  cases hb with
  | ask c₁ hl =>
      obtain ⟨es, ev, rfl⟩ := exists_of_lookUp hl
      exact deserted_stay hi rfl hf
  | hit v c₁ hl =>
      obtain ⟨es, ev, rfl⟩ := exists_of_lookUp hl
      refine deserted_depart ha hi hf ?_ true _
      rfl

/-- Lookups that are neither answered nor dropped desert no cell. -/
theorem desertsNone_of_moves {m : Flight.Move} (ha : c.Attends fs) (hi : fs.flight? i = some f)
    (hm : f.Moves now i c m) : c.DesertsNone fs i f m := by
  -- A lookup that leaves before it gets into a cell.
  have houtside : ∀ {c' : Cache}, f.phase = .arriving → c'.pending = c.pending →
      c'.deserted (fs.set i none) ⊆ c.deserted fs := fun {c'} hphase hpending =>
    deserted_set_subset (Fleet.getElem?_of_flight? hi) fun p hp _ =>
      ⟨hpending ▸ hp, by simp [Flight.cell?, hphase]⟩
  cases hm with
  | blank hphase => exact houtside hphase rfl
  | hit hphase _ v c₁ hl =>
      obtain ⟨es, ev, rfl⟩ := exists_of_lookUp hl
      exact houtside hphase rfl
  | miss hphase _ c₁ hl =>
      obtain ⟨es, ev, rfl⟩ := exists_of_lookUp hl
      exact deserted_stay hi rfl (by simp [Flight.cell?, hphase])
  | find hphase n c₁ hopen v hv =>
      obtain ⟨hc, hmem⟩ := ha.openCell hopen
      rw [(hc.of_mem_pending hmem).2] at hv
      cases hv
  | enter hphase n c₁ hopen hv gate hgate | join hphase n c₁ hopen hv gate hgate =>
      exact deserted_enter hi (by simp [Flight.cell?, hphase]) hopen rfl _
  | share n hphase v hv =>
      exact deserted_depart ha hi (by simp [Flight.cell?, hphase]) rfl false _
  | turn n hphase hv gate hgate =>
      exact deserted_stay hi rfl (by simp [Flight.cell?, hphase])
  | board n hphase provider hgate hb | permit n hphase provider hgate hb =>
      exact desertsNone_of_boards ha hi (by simp [Flight.cell?, hphase]) hb
  | queue n hphase provider hgate =>
      exact deserted_stay hi rfl (by simp [Flight.cell?, hphase])

/-! ### How many there are -/

/-- No cell is open twice. -/
theorem nodup_pending (ha : c.Attends fs) : c.pending.Nodup := by
  obtain ⟨owner, hl⟩ := ha.listed
  exact hl.nodup.of_map

/-- Open cells with lookups in them are not more than these lookups. -/
theorem length_le_of_attended {ps : List (String × ℕ)} (ha : c.Attends fs) (hnodup : ps.Nodup)
    (hopen : ps ⊆ c.pending)
    (hin : ∀ p ∈ ps, ∃ i f, fs.flight? i = some f ∧ f.cell? = some p.2) :
    ps.length ≤ fs.countIf (·.cell?.isSome) := by
  obtain ⟨owner, hl⟩ := ha.listed
  have howner : ∀ p ∈ ps, owner p.2 = p.1 := fun p hp => (hl.pending p.1 p.2 (hopen hp)).1
  -- Open cells have different numbers, and each of these is the number of a lookup's cell.
  have hnumbers : (ps.map (·.2)).Nodup := hnodup.map_on fun p hp q hq heq =>
    Prod.ext (by rw [← howner p hp, ← howner q hq, heq]) heq
  have hsubset : ps.map (·.2) ⊆ fs.filterMap (·.bind Flight.cell?) := by
    intro n hn
    obtain ⟨p, hp, rfl⟩ := List.mem_map.1 hn
    obtain ⟨i, f, hi, hf⟩ := hin p hp
    exact List.mem_filterMap.2 ⟨some f, Fleet.mem_of_flight? hi, hf⟩
  calc ps.length = (ps.map (·.2)).length := (List.length_map _).symm
    _ ≤ (fs.filterMap (·.bind Flight.cell?)).length := (hnumbers.subperm hsubset).length_le
    _ = fs.countIf (·.cell?.isSome) := by
      rw [List.length_filterMap_eq_countP]
      refine List.countP_congr fun o _ => ?_
      cases o <;> rfl

/-- Open cells that are not deserted have a lookup each. -/
theorem length_pending_le (ha : c.Attends fs) :
    c.pending.length ≤ fs.countIf (·.cell?.isSome) + (c.deserted fs).length := by
  have hsplit := List.length_eq_length_filter_add (l := c.pending)
    fun (_, n) => fs.countIf (·.cell? = some n) = 0
  rw [← deserted, Nat.add_comm] at hsplit
  rw [hsplit]
  refine Nat.add_le_add_right (length_le_of_attended ha ((nodup_pending ha).filter _)
    (List.filter_subset_self _) fun p hp => ?_) _
  obtain ⟨hopen, hattended⟩ := List.mem_filter.1 hp
  refine exists_of_not_mem_deserted hopen fun hdeserted => ?_
  rw [(List.mem_filter.1 hdeserted).2] at hattended
  cases hattended

/-- A deserted cell is as good as new. -/
theorem cell_of_mem_deserted (ha : c.Attends fs) (h : (key, n) ∈ c.deserted fs) :
    c.cell n = {} := by
  obtain ⟨hopen, hnobody⟩ := mem_deserted_iff.1 h
  have hvalue : (c.cell n).value = none := (ha.of_mem_pending hopen).2
  have hheld : fs.countIf (Flight.holds n) = 0 :=
    Fleet.countIf_eq_zero_iff.2 fun i f hi =>
      Bool.eq_false_iff.2 fun hf => hnobody i f hi (Flight.cell?_of_holds hf)
  have hgate : (c.cell n).gate = { free := 1 } := by
    have hserves := (ha.cells n).gate hvalue
    rw [hheld] at hserves
    refine hserves.eq_of_nobody fun i hi => ?_
    obtain ⟨f, hi, hf⟩ := hi.exists
    exact hnobody i f hi (Flight.cell?_of_boards hf)
  cases hcell : c.cell n with
  | mk value gate =>
      rw [hcell] at hvalue hgate
      rw [show value = none from hvalue, show gate = { free := 1 } from hgate]

end Cache

namespace Traffic

variable {s s' : Traffic} {sign : Sign} {trace : List (ℕ × Sign)} {limits : CacheLimits}
  {now places : ℕ}

/-- A lookup has been dropped. -/
def Sign.isDrop : Sign → Bool
  | .dropped _ => true
  | _ => false

/-- How many lookups have been dropped. -/
def drops (trace : List (ℕ × Sign)) : ℕ := trace.countP (·.2.isDrop)

/-- Drops are counted one by one. -/
theorem drops_cons (t : ℕ) (sign : Sign) (trace : List (ℕ × Sign)) :
    drops ((t, sign) :: trace) = drops trace + sign.isDrop.toNat := by
  rw [drops, List.countP_cons, ← drops]
  cases sign.isDrop <;> rfl

/-- **Whoever is dropped deserts one cell at most, and nothing else deserts any.** -/
theorem Step.deserted_subset (hs : s.Step sign s') (ha : s.cache.Attends s.fleet) :
    ∃ left : List (String × ℕ), left.length ≤ sign.isDrop.toNat ∧
      s'.cache.deserted s'.fleet ⊆ left ++ s.cache.deserted s.fleet := by
  cases hs with
  | began text hi =>
      exact ⟨[], Nat.zero_le _, Cache.deserted_set_subset hi fun p hp _ => ⟨hp, nofun⟩⟩
  | batched hl =>
      obtain ⟨started, entries, evictions, hits, rfl⟩ := Batch.exists_of_lookUp hl
      exact ⟨[], Nat.zero_le _, Cache.deserted_append_subset s.cache _ _⟩
  | moved hi hm | served hi hm =>
      exact ⟨[], Nat.zero_le _, Cache.desertsNone_of_moves ha hi (Flight.moves_of_step hm nofun)⟩
  | answered reply hi hphase hl =>
      obtain ⟨-, entries, evictions, rfl⟩ := Flight.exists_of_land hl
      refine ⟨[], Nat.zero_le _, Cache.deserted_depart ha hi ?_ ?_ true _⟩
      · simp [Flight.cell?, hphase]
      · rfl
  | dropped hi =>
      refine ⟨_, ?_, Cache.deserted_abandon ha hi⟩
      exact Option.length_toList_le
  | purged | invalidated | waited _ => exact ⟨[], Nat.zero_le _, List.Subset.refl _⟩

/-- There are at most as many deserted cells as lookups have been dropped. -/
theorem Run.length_deserted_le (hr : (fresh limits now places).Run trace s) :
    (s.cache.deserted s.fleet).length ≤ drops trace := by
  induction hr with
  | refl => exact Nat.le_refl _
  | @step s s' trace sign hr hs ih =>
      obtain ⟨left, hleft, hsubset⟩ := hs.deserted_subset hr.attends
      have hnodup := (Cache.nodup_pending (hr.step hs).attends).filter
        fun p => s'.fleet.countIf (·.cell? = some p.2) = 0
      have hlength := (hnodup.subperm hsubset).length_le
      rw [← Cache.deserted, List.length_append] at hlength
      rw [drops_cons]
      omega

/-- **An open cell has a lookup of its key in it or is deserted**, and there are at most as many
deserted cells as lookups have been dropped. As long as none has been, every open cell belongs to a
lookup under way. A deserted cell is as good as new, and the next lookup of its key gets into it. -/
theorem Run.deserted_spec (hr : (fresh limits now places).Run trace s) :
    (∀ key n, (key, n) ∈ s.cache.pending → (key, n) ∈ s.cache.deserted s.fleet ∨
      ∃ i f, s.fleet.flight? i = some f ∧ f.key = key ∧ f.cell? = some n) ∧
    (s.cache.deserted s.fleet).length ≤ drops trace ∧
    s.cache.pending.length ≤ s.fleet.countIf (·.cell?.isSome) + drops trace ∧
    ∀ key n, (key, n) ∈ s.cache.deserted s.fleet →
      s.cache.cell n = {} ∧ s.cache.openCell key = (n, s.cache) := by
  have ha := hr.attends
  refine ⟨fun key n hopen => ?_, hr.length_deserted_le, ?_, fun key n hp => ⟨?_, ?_⟩⟩
  · by_cases hp : (key, n) ∈ s.cache.deserted s.fleet
    · exact .inl hp
    · obtain ⟨i, f, hi, hf⟩ := Cache.exists_of_not_mem_deserted hopen hp
      exact .inr ⟨i, f, hi, ha.key_eq_of_mem_pending hi hf hopen, hf⟩
  · exact Nat.le_trans (Cache.length_pending_le ha)
      (Nat.add_le_add_left hr.length_deserted_le _)
  · exact Cache.cell_of_mem_deserted ha hp
  · exact ha.openCell_of_mem (Cache.mem_deserted_iff.1 hp).1

/-- A lookup is dropped while the provider has not answered, and leaves its cell open. -/
theorem Run.ask_drop {start : Traffic} {c : Cache} {m : ℕ} {text : String}
    (hr : start.Run trace ⟨now, c, [none]⟩) (hblank : Text.blank text = false)
    (hentries : c.entries = []) (hprovider : c.provider = { free := m + 1 })
    (hnew : Digest.ofText text ∉ c.pending.map (·.1)) :
    ∃ trace' c', start.Run trace' ⟨now, c', [none]⟩ ∧ drops trace' = drops trace + 1 ∧
      c'.entries = [] ∧ c'.provider = { free := m + 1 } ∧
      c'.pending.map (·.1) = Digest.ofText text :: c.pending.map (·.1) := by
  have hfind : c.pending.find? (·.1 = Digest.ofText text) = none :=
    List.find?_eq_none.2 fun p hp hkey => hnew (List.mem_map.2 ⟨p, hp, of_decide_eq_true hkey⟩)
  have h := hr.ask (m := m) (i := 0) rfl hblank hentries hfind (by rw [hprovider])
  have h := h.step (.dropped (i := 0) rfl)
  refine ⟨_, _, h, ?_, hentries, ?_, ?_⟩
  · simp only [drops_cons]
    rfl
  · simp [Flight.abandon, Flight.yieldCell, Cache.updateCell, Gate.release, hprovider]
  · rw [Flight.pending_abandon]
    rfl

/-- **There can be as many deserted cells as lookups have been dropped.** Texts with different
digests are looked up, and each lookup is dropped while the provider has not answered. -/
theorem exists_deserted (limits : CacheLimits) (now : ℕ) (texts : List String)
    (hblank : ∀ text ∈ texts, Text.blank text = false)
    (hnodup : (texts.map Digest.ofText).Nodup) :
    ∃ trace s, (fresh limits now 1).Run trace s ∧ s.fleet.Idle ∧ drops trace = texts.length ∧
      s.cache.pending.map (·.1) = texts.map Digest.ofText := by
  obtain ⟨m, hm⟩ := Nat.exists_eq_add_of_le' (Nat.le_max_right limits.maxInFlight 1)
  have hrun : ∃ trace c, (fresh limits now 1).Run trace ⟨now, c, [none]⟩ ∧
      drops trace = texts.length ∧ c.entries = [] ∧ c.provider = { free := m + 1 } ∧
      c.pending.map (·.1) = texts.map Digest.ofText := by
    induction texts with
    | nil => exact ⟨[], _, .refl, rfl, rfl, congrArg (Gate.mk · [] []) hm, rfl⟩
    | cons text rest ih =>
        obtain ⟨hnew, hrest⟩ := List.nodup_cons.1 hnodup
        obtain ⟨trace, c, hr, hdrops, hentries, hprovider, hpending⟩ :=
          ih (fun t ht => hblank t (List.mem_cons_of_mem _ ht)) hrest
        obtain ⟨trace', c', hr', hdrops', hentries', hprovider', hpending'⟩ :=
          hr.ask_drop (hblank text List.mem_cons_self) hentries hprovider (hpending ▸ hnew)
        exact ⟨trace', c', hr', hdrops'.trans (congrArg (· + 1) hdrops), hentries', hprovider',
          hpending'.trans (congrArg (_ :: ·) hpending)⟩
  obtain ⟨trace, c, hr, hdrops, -, -, hpending⟩ := hrun
  refine ⟨trace, _, hr, ?_, hdrops, hpending⟩
  rintro (_ | i) <;> rfl

/-- The bound is reached: one lookup has been dropped, and there is one deserted cell. -/
theorem deserted_spec_of_drop : ∃ trace s, (fresh ⟨1, 1, 1⟩ 0 1).Run trace s ∧
    (s.cache.deserted s.fleet).length = 1 ∧ 1 ≤ drops trace := by
  obtain ⟨trace, s, hr, hidle, -, hpending⟩ :=
    exists_deserted ⟨1, 1, 1⟩ 0 ["橋梁"] (by decide) (List.nodup_singleton _)
  have hone : (s.cache.deserted s.fleet).length = 1 := by
    rw [Cache.deserted_of_idle _ hidle, ← List.length_map (·.1), hpending]
    rfl
  exact ⟨trace, s, hr, hone, hone ▸ hr.deserted_spec.2.1⟩

/-- Nobody is under way, and a cell is open. -/
theorem open_cell_left : ∃ trace s, (fresh ⟨1, 1, 1⟩ 0 1).Run trace s ∧ s.fleet.Idle ∧
    s.cache.pending ≠ [] := by
  obtain ⟨trace, s, hr, hidle, -, hpending⟩ :=
    exists_deserted ⟨1, 1, 1⟩ 0 ["橋梁"] (by decide) (List.nodup_singleton _)
  refine ⟨trace, s, hr, hidle, fun hnil => ?_⟩
  rw [hnil] at hpending
  cases hpending

end Traffic

end Archivist
