import Archivist.Proofs.Concurrency.Gate
import Archivist.Proofs.Embedding.Move
import Mathlib.Tactic.SplitIfs

/-!
# Caches and Their Lookups

`Cache.Attends c fs` is what holds between a cache and the lookups under way, whatever they have
done so far and in whatever order. Every cell belongs to one key; a cell that is open has no value
yet; for each cell that has none it is the turn of one lookup at most, and the gate of the cell
knows who waits; the gate of the provider knows who has asked and who is in line.

Whatever a lookup does, the cache attends to those that remain (`Cache.Attends.step_go`,
`Cache.Attends.step_land`, `Cache.Attends.land`, `Cache.Attends.abandon`).
-/

namespace Archivist

/-- A cell without a value lets one lookup at a time try to fill it; nobody tries to fill a cell
that has one. -/
def Cell.Serves (x : Cell) (held : ℕ) (line : ℕ → Prop) : Prop :=
  match x.value with
  | none => x.gate.Serves 1 held line
  | some _ => held = 0

namespace Cell.Serves

variable {x : Cell} {held : ℕ} {line : ℕ → Prop}

/-- A cell without a value serves by its gate. -/
theorem gate (h : x.Serves held line) (hv : x.value = none) : x.gate.Serves 1 held line := by
  rwa [Cell.Serves, hv] at h

/-- A gate serves for its cell as long as that has no value. -/
theorem of_gate (h : x.gate.Serves 1 held line) (hv : x.value = none) : x.Serves held line := by
  rwa [Cell.Serves, hv]

/-- At most one lookup fills a cell. -/
theorem held_le_one (h : x.Serves held line) : held ≤ 1 := by
  rw [Cell.Serves] at h
  split at h
  · exact h.held_le
  · exact Nat.le_trans (Nat.le_of_eq h) (Nat.zero_le 1)

/-- Only a cell without a value is being filled. -/
theorem value_eq_none (h : x.Serves held line) (hheld : 0 < held) : x.value = none := by
  rw [Cell.Serves] at h
  split at h
  · assumption
  · exact absurd h (Nat.pos_iff_ne_zero.1 hheld)

theorem congr {held' : ℕ} {line' : ℕ → Prop} (h : x.Serves held line) (hheld : held = held')
    (hline : ∀ j, line j ↔ line' j) : x.Serves held' line' := by
  rw [Cell.Serves] at h ⊢
  split at h
  · exact h.congr hheld hline
  · exact hheld ▸ h

end Cell.Serves

namespace Cache

variable {c c' : Cache} {fs : Fleet} {owner : ℕ → String} {i n now : ℕ} {f : Flight} {key : String}
  {x y : Option Flight}

/-! ### Cells and keys -/

/-- The cells that lookups are in, and those that are open, are those of their keys. -/
structure Lists (c : Cache) (fs : Fleet) (owner : ℕ → String) : Prop where
  key_eq : ∀ i f, fs.flight? i = some f → f.key = Digest.ofText f.text
  owner_eq : ∀ i f n, fs.flight? i = some f → f.cell? = some n → owner n = f.key
  lt_length : ∀ i f n, fs.flight? i = some f → f.cell? = some n → n < c.cells.length
  /-- An open cell has no value. -/
  pending : ∀ k n, (k, n) ∈ c.pending →
    owner n = k ∧ n < c.cells.length ∧ (c.cell n).value = none
  /-- A key has one open cell at most. -/
  nodup : (c.pending.map (·.1)).Nodup

/-- What holds between a cache and the lookups under way. -/
structure Attends (c : Cache) (fs : Fleet) : Prop where
  listed : ∃ owner, c.Lists fs owner
  cells : ∀ n, (c.cell n).Serves (fs.countIf (Flight.holds n)) (fs.Has (Flight.boards n))
  provider : c.provider.Serves (max c.limits.maxInFlight 1) (fs.countIf Flight.isAsking)
    (fs.Has Flight.isQueuing)

/-- A cache that has not been used attends to nobody. -/
theorem attends_fresh (limits : CacheLimits) : (fresh limits).Attends [] where
  listed := ⟨fun _ => "", nofun, nofun, nofun, nofun, List.nodup_nil⟩
  cells := fun _ => (Gate.Serves.of_free 1).congr rfl fun _ => ⟨False.elim, nofun⟩
  provider := (Gate.Serves.of_free _).congr rfl fun _ => ⟨False.elim, nofun⟩

namespace Attends

/-- The cell of a lookup is one that there is. -/
theorem lt_length (h : c.Attends fs) (hi : fs.flight? i = some f) (hf : f.cell? = some n) :
    n < c.cells.length := by
  obtain ⟨owner, hl⟩ := h.listed
  exact hl.lt_length i f n hi hf

/-- A lookup goes by the digest of its text. -/
theorem key_eq (h : c.Attends fs) (hi : fs.flight? i = some f) : f.key = Digest.ofText f.text := by
  obtain ⟨owner, hl⟩ := h.listed
  exact hl.key_eq i f hi

/-- Lookups in the same cell are of the same key. -/
theorem key_eq_of_cell {j : ℕ} {g : Flight} (h : c.Attends fs) (hi : fs.flight? i = some f)
    (hj : fs.flight? j = some g) (hf : f.cell? = some n) (hg : g.cell? = some n) :
    f.key = g.key := by
  obtain ⟨owner, hl⟩ := h.listed
  rw [← hl.owner_eq i f n hi hf, hl.owner_eq j g n hj hg]

/-- A cell that is being filled has no value. -/
theorem value_eq_none (h : c.Attends fs) (hi : fs.flight? i = some f) (hf : f.holds n = true) :
    (c.cell n).value = none :=
  (h.cells n).value_eq_none (Fleet.countIf_pos hi hf)

/-! ### Changes -/

/-- Entries and counters do not matter. -/
theorem congr (h : c.Attends fs) (hlimits : c'.limits = c.limits)
    (hpending : c'.pending = c.pending)
    (hcells : c'.cells = c.cells) (hprovider : c'.provider = c.provider) : c'.Attends fs := by
  have hcell : ∀ m, c'.cell m = c.cell m := fun m => by rw [cell, cell, hcells]
  obtain ⟨owner, hl⟩ := h.listed
  refine ⟨⟨owner, hl.key_eq, hl.owner_eq, ?_, ?_, ?_⟩, fun m => ?_, ?_⟩
  · rw [hcells]
    exact hl.lt_length
  · intro k m hm
    rw [hcell, hcells]
    exact hl.pending k m (hpending ▸ hm)
  · rw [hpending]
    exact hl.nodup
  · rw [hcell]
    exact h.cells m
  · rw [hprovider, hlimits]
    exact h.provider

/-- A cell does not mind what happens outside of it. -/
theorem cell_of_outside {m : ℕ} (h : c.Attends fs) (hi : fs[i]? = some x)
    (hx : x.bind Flight.cell? ≠ some m) (hy : y.bind Flight.cell? ≠ some m) :
    (c.cell m).Serves (Fleet.countIf (Flight.holds m) (fs.set i y))
      (Fleet.Has (Flight.boards m) (fs.set i y)) := by
  have houtside : ∀ {z : Option Flight}, z.bind Flight.cell? ≠ some m →
      z.any (Flight.holds m) = false ∧ z.any (Flight.boards m) = false := by
    rintro (_ | g) hz
    · exact ⟨rfl, rfl⟩
    · exact ⟨Bool.eq_false_iff.2 fun hg => hz (Flight.cell?_of_holds hg),
        Bool.eq_false_iff.2 fun hg => hz (Flight.cell?_of_boards hg)⟩
  obtain ⟨hxholds, hxboards⟩ := houtside hx
  obtain ⟨hyholds, hyboards⟩ := houtside hy
  refine (h.cells m).congr ?_ fun j => ?_
  · rw [Fleet.countIf_set_of_eq hi (hxholds.trans hyholds.symm)]
  · rw [Fleet.has_set_of_eq hi (hxboards.trans hyboards.symm)]

/-- The provider does not mind what those do who neither have asked nor are in line. -/
theorem provider_of_outside (h : c.Attends fs) (hi : fs[i]? = some x)
    (hasks : x.any Flight.isAsking = y.any Flight.isAsking)
    (hqueues : x.any Flight.isQueuing = y.any Flight.isQueuing) :
    c.provider.Serves (max c.limits.maxInFlight 1) (Fleet.countIf Flight.isAsking (fs.set i y))
      (Fleet.Has Flight.isQueuing (fs.set i y)) := by
  refine h.provider.congr ?_ fun j => ?_
  · rw [Fleet.countIf_set_of_eq hi hasks]
  · rw [Fleet.has_set_of_eq hi hqueues]

/-- **What happens in one cell and at the provider leaves a cache that attends to its lookups**, if
that cell and the provider know about it. -/
theorem change (h : c.Attends fs) (hi : fs[i]? = some x)
    (hx : ∀ m, x.bind Flight.cell? = some m → m = n)
    (hy : ∀ g, y = some g → g.key = Digest.ofText g.text ∧ ∀ m, g.cell? = some m → m = n ∧
      ((g.key, n) ∈ c.pending ∨ ∃ f, x = some f ∧ f.cell? = some n ∧ f.key = g.key))
    (hpending : c'.pending.Sublist c.pending) (hlength : c'.cells.length = c.cells.length)
    (hopen : ∀ k, (k, n) ∈ c'.pending → (c'.cell n).value = none)
    (hother : ∀ m, m ≠ n → c'.cell m = c.cell m)
    (hcell : (c'.cell n).Serves (Fleet.countIf (Flight.holds n) (fs.set i y))
      (Fleet.Has (Flight.boards n) (fs.set i y)))
    (hprovider : c'.provider.Serves (max c'.limits.maxInFlight 1)
      (Fleet.countIf Flight.isAsking (fs.set i y)) (Fleet.Has Flight.isQueuing (fs.set i y))) :
    c'.Attends (fs.set i y) := by
  obtain ⟨owner, hl⟩ := h.listed
  -- Who is in a cell was so before, or is the lookup that is put in, which is in the one cell.
  have hin : ∀ j g m, Fleet.flight? (fs.set i y) j = some g → g.cell? = some m →
      owner m = g.key ∧ m < c.cells.length := by
    intro j g m hg hm
    rw [Fleet.flight?_set hi] at hg
    split_ifs at hg
    · obtain ⟨rfl, hp | ⟨f, rfl, hf, hkey⟩⟩ := (hy g hg).2 m hm
      · exact ⟨(hl.pending _ _ hp).1, (hl.pending _ _ hp).2.1⟩
      · have hi' := Fleet.flight?_of_getElem? hi
        exact ⟨(hl.owner_eq i f m hi' hf).trans hkey, hl.lt_length i f m hi' hf⟩
    · exact ⟨hl.owner_eq j g m hg hm, hl.lt_length j g m hg hm⟩
  refine ⟨⟨owner, ?_, fun j g m hg hm => (hin j g m hg hm).1, ?_, ?_, ?_⟩, fun m => ?_, hprovider⟩
  · intro j g hg
    rw [Fleet.flight?_set hi] at hg
    split_ifs at hg
    · exact (hy g hg).1
    · exact hl.key_eq j g hg
  · rw [hlength]
    exact fun j g m hg hm => (hin j g m hg hm).2
  · intro k m hm
    obtain ⟨howner, hlt, hv⟩ := hl.pending k m (hpending.subset hm)
    refine ⟨howner, hlength ▸ hlt, ?_⟩
    by_cases hmn : m = n
    · subst hmn
      exact hopen k hm
    · rw [hother m hmn]
      exact hv
  · exact hl.nodup.sublist (hpending.map _)
  · by_cases hmn : m = n
    · subst hmn
      exact hcell
    · rw [hother m hmn]
      refine h.cell_of_outside hi (fun hm => hmn (hx m hm)) fun hm => hmn ?_
      obtain ⟨g, hg, hgm⟩ := Option.bind_eq_some_iff.1 hm
      exact ((hy g hg).2 m hgm).1

/-! ### Lookups outside of cells -/

/-- Positions without a lookup do not matter. -/
theorem append_none (h : c.Attends fs) : c.Attends (fs ++ [none]) := by
  have hflight := Fleet.flight?_append_none fs
  have hcount : ∀ p, Fleet.countIf p (fs ++ [none]) = fs.countIf p := fun p => by
    rw [Fleet.countIf_append, Fleet.countIf_singleton]
    rfl
  have hhas : ∀ p j, Fleet.Has p (fs ++ [none]) j ↔ fs.Has p j := fun p j => by
    rw [Fleet.Has, hflight, ← Fleet.Has]
  obtain ⟨owner, hl⟩ := h.listed
  refine ⟨⟨owner, ?_, ?_, ?_, hl.pending, hl.nodup⟩, fun m => ?_, ?_⟩
  · simp only [hflight]
    exact hl.key_eq
  · simp only [hflight]
    exact hl.owner_eq
  · simp only [hflight]
    exact hl.lt_length
  · exact (h.cells m).congr (hcount _).symm fun j => (hhas _ j).symm
  · exact h.provider.congr (hcount _).symm fun j => (hhas _ j).symm

/-- If nobody is under way, places do not matter at all. -/
theorem of_idle (h : c.Attends fs) (hidle : fs.Idle) : c.Attends [] := by
  have hcount := Fleet.countIf_eq_zero_of_idle hidle
  have hhas : ∀ p j, fs.Has p j ↔ Fleet.Has p [] j := fun p j => by
    rw [Fleet.Has, hidle j]
    rfl
  have hnone : ∀ i f, Fleet.flight? [] i ≠ some f := fun i f hi => by cases hi
  obtain ⟨owner, hl⟩ := h.listed
  have hlists : c.Lists [] owner :=
    ⟨fun i f hi => absurd hi (hnone i f), fun i f _ hi => absurd hi (hnone i f),
      fun i f _ hi => absurd hi (hnone i f), hl.pending, hl.nodup⟩
  exact ⟨⟨owner, hlists⟩, fun m => (h.cells m).congr (hcount _) (hhas _),
    h.provider.congr (hcount _) (hhas _)⟩

/-- What a lookup does outside of all cells concerns nobody. -/
theorem exchange (h : c.Attends fs) (hi : fs[i]? = some x) (hx : x.bind Flight.cell? = none)
    (hy : ∀ g, y = some g → g.cell? = none ∧ g.key = Digest.ofText g.text) :
    c.Attends (fs.set i y) := by
  have hy' : y.bind Flight.cell? = none := Option.bind_eq_none_iff.2 fun g hg => (hy g hg).1
  have hprovider : ∀ {z : Option Flight}, z.bind Flight.cell? = none →
      z.any Flight.isAsking = false ∧ z.any Flight.isQueuing = false := by
    rintro (_ | g) hz
    · exact ⟨rfl, rfl⟩
    · simp only [Option.bind_some] at hz
      cases hp : g.phase <;> simp [Flight.cell?, hp] at hz <;>
        simp [Flight.isAsking, Flight.isQueuing, hp]
  have hoff : ∀ {z : Option Flight} {m : ℕ}, z.bind Flight.cell? = none →
      z.bind Flight.cell? ≠ some m := fun hz heq => by rw [hz] at heq; cases heq
  refine h.change (n := c.cells.length) hi (fun m hm => absurd hm (hoff hx)) (fun g hg => ?_)
    (.refl _) rfl ?_ (fun _ _ => rfl) (h.cell_of_outside hi (hoff hx) (hoff hy'))
    (h.provider_of_outside hi ((hprovider hx).1.trans (hprovider hy').1.symm)
      ((hprovider hx).2.trans (hprovider hy').2.symm))
  · refine ⟨(hy g hg).2, fun m hm => ?_⟩
    rw [(hy g hg).1] at hm
    cases hm
  · intro k hk
    obtain ⟨owner, hl⟩ := h.listed
    exact (hl.pending k _ hk).2.2

/-! ### Opening and closing cells -/

/-- The cell of a key is open from now on. -/
theorem openCell (h : c.Attends fs) (ho : c.openCell key = (n, c')) :
    c'.Attends fs ∧ (key, n) ∈ c'.pending := by
  have hcell := cell_openCell ho
  rw [Cache.openCell] at ho
  obtain ⟨owner, hl⟩ := h.listed
  split at ho
  · rename_i k m hfind
    cases ho
    have hk : k = key := by simpa using List.find?_some hfind
    exact ⟨h, hk ▸ List.mem_of_find?_eq_some hfind⟩
  · rename_i hfind
    cases ho
    have hnew : key ∉ c.pending.map (·.1) := by
      rw [List.mem_map]
      rintro ⟨⟨k, m⟩, hm, rfl⟩
      simpa using List.find?_eq_none.1 hfind (k, m) hm
    -- Nobody is in the new cell, so it may be given to the key.
    have hold : ∀ m, m < c.cells.length →
        (if m = c.cells.length then key else owner m) = owner m := fun m hm =>
      if_neg (Nat.ne_of_lt hm)
    refine ⟨⟨⟨fun m => if m = c.cells.length then key else owner m, hl.key_eq, ?_, ?_, ?_, ?_⟩,
      fun m => ?_, h.provider⟩, List.mem_cons_self⟩
    · intro j g m hg hm
      rw [← hl.owner_eq j g m hg hm]
      exact hold m (hl.lt_length j g m hg hm)
    · intro j g m hg hm
      have hlt := hl.lt_length j g m hg hm
      simp only [List.length_append, List.length_singleton]
      omega
    · intro k m hm
      rw [hcell]
      rcases List.mem_cons.1 hm with heq | hm
      · cases heq
        refine ⟨if_pos rfl, by simp, ?_⟩
        rw [cell, List.getD_eq_getElem?_getD, List.getElem?_eq_none (Nat.le_refl _)]
        rfl
      · obtain ⟨howner, hlt, hv⟩ := hl.pending k m hm
        refine ⟨(hold m hlt).trans howner, ?_, hv⟩
        simp only [List.length_append, List.length_singleton]
        omega
    · exact hl.nodup.cons hnew
    · rw [hcell]
      exact h.cells m

/-- The open cell of a key is the one that is found. -/
theorem openCell_of_mem (h : c.Attends fs) (hn : (key, n) ∈ c.pending) :
    c.openCell key = (n, c) := by
  rw [Cache.openCell]
  obtain ⟨owner, hl⟩ := h.listed
  cases hfind : c.pending.find? (·.1 = key) with
  | none => simpa using List.find?_eq_none.1 hfind (key, n) hn
  | some p =>
      obtain ⟨k, m⟩ := p
      have hk : k = key := by simpa using List.find?_some hfind
      have hm := List.inj_on_of_nodup_map hl.nodup (List.mem_of_find?_eq_some hfind) hn hk
      cases hm
      rfl

/-- A cell may be closed at any time. -/
theorem closeCell (h : c.Attends fs) (key : String) (n : ℕ) : (c.closeCell key n).Attends fs := by
  obtain ⟨owner, hl⟩ := h.listed
  refine ⟨⟨owner, hl.key_eq, hl.owner_eq, hl.lt_length, fun k m hm => ?_, ?_⟩, h.cells, h.provider⟩
  · exact hl.pending k m (List.mem_of_mem_filter hm)
  · exact hl.nodup.sublist (List.filter_sublist.map _)

/-- A closed cell is not open under another key either. -/
theorem not_mem_closeCell (h : c.Attends fs) (hi : fs.flight? i = some f)
    (hf : f.cell? = some n) (k : String) : (k, n) ∉ (c.closeCell f.key n).pending := by
  obtain ⟨owner, hl⟩ := h.listed
  intro hk
  obtain ⟨hmem, hne⟩ := List.mem_filter.1 hk
  have hkey : k = f.key := by rw [← (hl.pending k n hmem).1, hl.owner_eq i f n hi hf]
  simp [hkey] at hne

/-! ### Lookups in cells -/

section InCells

variable {gate provider : Gate}

/-- The open cell of a key, which has no value. -/
theorem of_mem_pending (h : c.Attends fs) (hopen : (key, n) ∈ c.pending) :
    n < c.cells.length ∧ (c.cell n).value = none := by
  obtain ⟨owner, hl⟩ := h.listed
  exact (hl.pending key n hopen).2

/-- A lookup in a cell, or about to get into it, concerns this cell and the provider. -/
theorem inCell {u : Cell → Cell} (h : c.Attends fs) (hi : fs.flight? i = some f)
    (hlt : n < c.cells.length)
    (hf : f.cell? = some n ∨ f.cell? = none ∧ (f.key, n) ∈ c.pending)
    (hy : ∀ g, y = some g → g.key = f.key ∧ g.text = f.text ∧ g.cell? = some n)
    (hopen : ∀ k, (k, n) ∈ c.pending → (u (c.cell n)).value = none)
    (hcell : (u (c.cell n)).Serves (Fleet.countIf (Flight.holds n) (fs.set i y))
      (Fleet.Has (Flight.boards n) (fs.set i y)))
    (hprovider : provider.Serves (max c.limits.maxInFlight 1)
      (Fleet.countIf Flight.isAsking (fs.set i y)) (Fleet.Has Flight.isQueuing (fs.set i y))) :
    Attends { c.updateCell n u with provider } (fs.set i y) := by
  have hupdate : ∀ m, ({ c.updateCell n u with provider } : Cache).cell m =
      if m = n then u (c.cell n) else c.cell m := cell_updateCell hlt u
  refine h.change (n := n) (Fleet.getElem?_of_flight? hi) (fun m hm => ?_) (fun g hg => ?_)
    (.refl _)
    (length_updateCell ..) (fun k hk => ?_) (fun m hm => ?_) ?_ hprovider
  · rw [Option.bind_some] at hm
    rcases hf with hf | ⟨hf, -⟩ <;> rw [hf] at hm <;> cases hm
    rfl
  · obtain ⟨hkey, htext, hgn⟩ := hy g hg
    refine ⟨by rw [hkey, htext, h.key_eq hi], fun m hm => ?_⟩
    rw [hgn] at hm
    refine ⟨(Option.some.inj hm).symm, ?_⟩
    rcases hf with hf | ⟨-, hopen⟩
    · exact .inr ⟨f, rfl, hf, hkey.symm⟩
    · exact .inl (hkey ▸ hopen)
  · rw [hupdate, if_pos rfl]
    exact hopen k hk
  · rw [hupdate, if_neg hm]
  · rw [hupdate, if_pos rfl]
    exact hcell

/-- It is the turn of a lookup as soon as it gets into the cell. -/
theorem enter (h : c.Attends fs) (hi : fs.flight? i = some f) (hphase : f.phase = .missed)
    (hopen : (f.key, n) ∈ c.pending) (hgate : (c.cell n).gate.enter i = (true, gate)) :
    (c.updateCell n fun x => { x with gate }).Attends
      (fs.set i (some { f with phase := .admitted n })) := by
  obtain ⟨hlt, hv⟩ := h.of_mem_pending hopen
  have hi' := Fleet.getElem?_of_flight? hi
  refine h.inCell hi hlt (.inr ⟨by simp [Flight.cell?, hphase], hopen⟩) ?_ (fun _ _ => hv)
    (.of_gate ((((h.cells n).gate hv).enter_true hgate).congr ?_ fun j => ?_) hv)
    (h.provider_of_outside hi' ?_ ?_)
  · rintro g ⟨⟩
    exact ⟨rfl, rfl, rfl⟩
  · rw [Fleet.countIf_set_enter hi'] <;> simp [Flight.holds, hphase]
  · rw [Fleet.has_set_of_eq hi']
    simp [Flight.boards, hphase]
  · simp [Flight.isAsking, hphase]
  · simp [Flight.isQueuing, hphase]

/-- A lookup gets in line for the cell that another one is filling. -/
theorem join (h : c.Attends fs) (hi : fs.flight? i = some f) (hphase : f.phase = .missed)
    (hopen : (f.key, n) ∈ c.pending) (hgate : (c.cell n).gate.enter i = (false, gate)) :
    (c.updateCell n fun x => { x with gate }).Attends
      (fs.set i (some { f with phase := .boarding n })) := by
  obtain ⟨hlt, hv⟩ := h.of_mem_pending hopen
  have hi' := Fleet.getElem?_of_flight? hi
  have hnew : ¬ fs.Has (Flight.boards n) i := by
    simp [Fleet.Has, hi, Flight.boards, hphase]
  refine h.inCell hi hlt (.inr ⟨by simp [Flight.cell?, hphase], hopen⟩) ?_ (fun _ _ => hv)
    (.of_gate ((((h.cells n).gate hv).enter_false hgate hnew).congr ?_ fun j => ?_) hv)
    (h.provider_of_outside hi' ?_ ?_)
  · rintro g ⟨⟩
    exact ⟨rfl, rfl, rfl⟩
  · rw [Fleet.countIf_set_of_eq hi']
    simp [Flight.holds, hphase]
  · rw [Fleet.has_set_enter hi']
    simp [Flight.boards]
  · simp [Flight.isAsking, hphase]
  · simp [Flight.isQueuing, hphase]

/-- It has become the turn of a lookup. -/
theorem turn (h : c.Attends fs) (hi : fs.flight? i = some f) (hphase : f.phase = .boarding n)
    (hv : (c.cell n).value = none) (hgate : (c.cell n).gate.pickUp i = some gate) :
    (c.updateCell n fun x => { x with gate }).Attends
      (fs.set i (some { f with phase := .admitted n })) := by
  have hf : f.cell? = some n := by simp [Flight.cell?, hphase]
  have hi' := Fleet.getElem?_of_flight? hi
  refine h.inCell hi (h.lt_length hi hf) (.inl hf) ?_ (fun _ _ => hv)
    (.of_gate ((((h.cells n).gate hv).pickUp hgate).congr ?_ fun j => ?_) hv)
    (h.provider_of_outside hi' ?_ ?_)
  · rintro g ⟨⟩
    exact ⟨rfl, rfl, rfl⟩
  · rw [Fleet.countIf_set_enter hi'] <;> simp [Flight.holds, hphase]
  · rw [Fleet.has_set_leave hi']
    simp [Flight.boards]
  · simp [Flight.isAsking, hphase]
  · simp [Flight.isQueuing, hphase]

/-- A lookup whose turn it is concerns the provider only, as long as it stays. -/
theorem toProvider (h : c.Attends fs) (hi : fs.flight? i = some f) (hf : f.holds n = true)
    {g : Flight} (hg : g.holds n = true) (hkey : g.key = f.key) (htext : g.text = f.text)
    (hprovider : provider.Serves (max c.limits.maxInFlight 1)
      (Fleet.countIf Flight.isAsking (fs.set i (some g)))
      (Fleet.Has Flight.isQueuing (fs.set i (some g)))) :
    Attends { c with provider } (fs.set i (some g)) := by
  have hi' := Fleet.getElem?_of_flight? hi
  have hcell := Flight.cell?_of_holds hf
  refine h.change (n := n) hi' (fun m hm => ?_) (fun g' hg' => ?_) (.refl _) rfl (fun _ _ => ?_)
    (fun _ _ => rfl) ((h.cells n).congr ?_ fun j => ?_) hprovider
  · rw [Option.bind_some, hcell] at hm
    exact (Option.some.inj hm).symm
  · cases hg'
    refine ⟨by rw [hkey, htext, h.key_eq hi], fun m hm => ?_⟩
    rw [Flight.cell?_of_holds hg] at hm
    exact ⟨(Option.some.inj hm).symm, .inr ⟨f, rfl, hcell, hkey.symm⟩⟩
  · exact h.value_eq_none hi hf
  · exact (Fleet.countIf_set_of_eq (p := Flight.holds n) (y := some g) hi' (hf.trans hg.symm)).symm
  · exact (Fleet.has_set_of_eq (p := Flight.boards n) (y := some g) hi'
      ((Flight.boards_of_holds hf).trans (Flight.boards_of_holds hg).symm) j).symm

/-- Without a permit a lookup gets in line for one. -/
theorem queue (h : c.Attends fs) (hi : fs.flight? i = some f) (hphase : f.phase = .admitted n)
    (hgate : c.provider.enter i = (false, provider)) :
    Attends { c with provider } (fs.set i (some { f with phase := .queuing n })) := by
  have hi' := Fleet.getElem?_of_flight? hi
  have hnew : ¬ fs.Has Flight.isQueuing i := by simp [Fleet.Has, hi, Flight.isQueuing, hphase]
  refine h.toProvider (n := n) hi (by simp [Flight.holds, hphase]) (by simp [Flight.holds]) rfl rfl
    ((h.provider.enter_false hgate hnew).congr ?_ fun j => ?_)
  · rw [Fleet.countIf_set_of_eq hi']
    simp [Flight.isAsking, hphase]
  · rw [Fleet.has_set_enter hi']
    rfl

/-- A lookup takes a permit. -/
theorem call (h : c.Attends fs) (hi : fs.flight? i = some f) (hphase : f.phase = .admitted n)
    (hgate : c.provider.enter i = (true, provider)) :
    Attends { c with provider } (fs.set i (some { f with phase := .asking n })) := by
  have hi' := Fleet.getElem?_of_flight? hi
  refine h.toProvider (n := n) hi (by simp [Flight.holds, hphase]) (by simp [Flight.holds]) rfl rfl
    ((h.provider.enter_true hgate).congr ?_ fun j => ?_)
  · rw [Fleet.countIf_set_enter hi'] <;> simp [Flight.isAsking, hphase]
  · rw [Fleet.has_set_of_eq hi']
    simp [Flight.isQueuing, hphase]

/-- A lookup is given a permit. -/
theorem permit (h : c.Attends fs) (hi : fs.flight? i = some f) (hphase : f.phase = .queuing n)
    (hgate : c.provider.pickUp i = some provider) :
    Attends { c with provider } (fs.set i (some { f with phase := .asking n })) := by
  have hi' := Fleet.getElem?_of_flight? hi
  refine h.toProvider (n := n) hi (by simp [Flight.holds, hphase]) (by simp [Flight.holds]) rfl rfl
    ((h.provider.pickUp hgate).congr ?_ fun j => ?_)
  · rw [Fleet.countIf_set_enter hi'] <;> simp [Flight.isAsking, hphase]
  · rw [Fleet.has_set_leave hi']
    rfl

/-! ### Lookups that leave -/

/-- The provider of a lookup that has asked and leaves. -/
theorem provider_of_leave (h : c.Attends fs) (hi : fs.flight? i = some f)
    (hphase : f.phase = .asking n) :
    c.provider.release.Serves (max c.limits.maxInFlight 1)
      (Fleet.countIf Flight.isAsking (fs.set i none))
      (Fleet.Has Flight.isQueuing (fs.set i none)) := by
  have hi' := Fleet.getElem?_of_flight? hi
  have hasking : f.isAsking = true := by simp [Flight.isAsking, hphase]
  refine (h.provider.congr (Fleet.countIf_set_leave hi' hasking rfl) fun j => ?_).release
  rw [Fleet.has_set_of_eq hi']
  simp [Flight.isQueuing, hphase]

/-- The provider of a lookup that has not asked and is not in line. -/
theorem provider_of_absent (h : c.Attends fs) (hi : fs.flight? i = some f)
    (hasks : f.isAsking = false) (hqueues : f.isQueuing = false) :
    c.provider.Serves (max c.limits.maxInFlight 1) (Fleet.countIf Flight.isAsking (fs.set i none))
      (Fleet.Has Flight.isQueuing (fs.set i none)) :=
  h.provider_of_outside (Fleet.getElem?_of_flight? hi) hasks hqueues

/-- A lookup gives back its turn and leaves. -/
theorem yieldCell (h : c.Attends fs) (hi : fs.flight? i = some f) (hf : f.holds n = true)
    (hprovider : provider.Serves (max c.limits.maxInFlight 1)
      (Fleet.countIf Flight.isAsking (fs.set i none))
      (Fleet.Has Flight.isQueuing (fs.set i none))) :
    Attends (Flight.yieldCell n { c with provider }) (fs.set i none) := by
  have hi' := Fleet.getElem?_of_flight? hi
  have hv := h.value_eq_none hi hf
  have hcell := Flight.cell?_of_holds hf
  have hserves := ((h.cells n).gate hv).congr (Fleet.countIf_set_leave (y := none) hi' hf rfl)
    fun j => (Fleet.has_set_of_eq (p := Flight.boards n) (y := none) hi'
      (Flight.boards_of_holds hf) j).symm
  exact h.inCell hi (h.lt_length hi hcell) (.inl hcell) nofun (fun _ _ => hv)
    (.of_gate hserves.release hv) hprovider

/-- A lookup fills its closed cell and leaves. -/
theorem fill (h : c.Attends fs) (hi : fs.flight? i = some f) (hf : f.holds n = true)
    (hclosed : ∀ k, (k, n) ∉ c.pending) (v : Option Embedding)
    (hprovider : provider.Serves (max c.limits.maxInFlight 1)
      (Fleet.countIf Flight.isAsking (fs.set i none))
      (Fleet.Has Flight.isQueuing (fs.set i none))) :
    Attends { c.updateCell n fun x => { x with value := some v } with provider }
      (fs.set i none) := by
  have hi' := Fleet.getElem?_of_flight? hi
  have hcell := Flight.cell?_of_holds hf
  have hone := (h.cells n).held_le_one
  have hleave := Fleet.countIf_set_leave (p := Flight.holds n) (y := none) hi' hf rfl
  have hzero : Fleet.countIf (Flight.holds n) (fs.set i none) = 0 := by omega
  exact h.inCell hi (h.lt_length hi hcell) (.inl hcell) nofun (fun k hk => absurd hk (hclosed k))
    hzero hprovider

/-- A lookup leaves the line for its cell. -/
theorem leaveCell (h : c.Attends fs) (hi : fs.flight? i = some f) (hphase : f.phase = .boarding n) :
    (c.updateCell n fun x => { x with gate := x.gate.leave i }).Attends (fs.set i none) := by
  have hi' := Fleet.getElem?_of_flight? hi
  have hf : f.cell? = some n := by simp [Flight.cell?, hphase]
  have hboards : f.boards n = true := by simp [Flight.boards, hphase]
  have hcount : Fleet.countIf (Flight.holds n) (fs.set i none) = fs.countIf (Flight.holds n) :=
    Fleet.countIf_set_of_eq hi' (by simp [Flight.holds, hphase])
  refine h.inCell hi (h.lt_length hi hf) (.inl hf)
    (fun _ hg => absurd hg.symm (Option.some_ne_none _)) (fun k hk => (h.of_mem_pending hk).2) ?_
    (h.provider_of_absent hi (by simp [Flight.isAsking, hphase])
      (by simp [Flight.isQueuing, hphase]))
  rw [hcount]
  rcases Option.eq_none_or_eq_some (c.cell n).value with hv | ⟨v, hv⟩
  · have hserves := ((h.cells n).gate hv).leave (Fleet.has_of_flight? hi hboards)
    exact .of_gate (hserves.congr rfl fun j => (Fleet.has_set_leave (y := none) hi' rfl j).symm) hv
  · have hserves := h.cells n
    simpa only [Cell.Serves, hv] using hserves

/-- A lookup leaves a cell that has a value. -/
theorem share (h : c.Attends fs) (hi : fs.flight? i = some f) (hphase : f.phase = .boarding n)
    {v : Option Embedding} (hv : (c.cell n).value = some v) : c.Attends (fs.set i none) := by
  have hi' := Fleet.getElem?_of_flight? hi
  have hf : f.cell? = some n := by simp [Flight.cell?, hphase]
  have hcount : Fleet.countIf (Flight.holds n) (fs.set i none) = fs.countIf (Flight.holds n) :=
    Fleet.countIf_set_of_eq hi' (by simp [Flight.holds, hphase])
  refine h.change (n := n) hi' (fun m hm => ?_)
    (fun _ hg => absurd hg.symm (Option.some_ne_none _)) (.refl _) rfl
    (fun k hk => (h.of_mem_pending hk).2) (fun _ _ => rfl) ?_
    (h.provider_of_absent hi (by simp [Flight.isAsking, hphase])
      (by simp [Flight.isQueuing, hphase]))
  · rw [Option.bind_some, hf] at hm
    exact (Option.some.inj hm).symm
  · have hserves := h.cells n
    rw [hcount]
    simpa only [Cell.Serves, hv] using hserves

/-- A lookup that has tried to fill its cell leaves. -/
theorem depart (h : c.Attends fs) (hi : fs.flight? i = some f) (hf : f.holds n = true)
    (result : Landing)
    (hprovider : provider.Serves (max c.limits.maxInFlight 1)
      (Fleet.countIf Flight.isAsking (fs.set i none))
      (Fleet.Has Flight.isQueuing (fs.set i none))) :
    (f.depart n true result { c with provider }).Attends (fs.set i none) := by
  cases result with
  | ok v =>
      exact (h.closeCell f.key n).fill hi hf (h.not_mem_closeCell hi (Flight.cell?_of_holds hf)) v
        hprovider
  | error e => exact (h.yieldCell hi hf hprovider).closeCell f.key n

/-- A lookup that has only waited for its cell leaves. -/
theorem depart_shared (h : c.Attends fs) (f : Flight) (n : ℕ) (v : Option Embedding) :
    (f.depart n false (.ok v) c).Attends fs :=
  (h.closeCell f.key n).congr rfl rfl rfl rfl

end InCells

/-! ### Steps -/

/-- The cache after a move of a lookup attends to those under way then. -/
def Follows (fs : Fleet) (i : ℕ) (f : Flight) : Flight.Move → Prop
  | .go phase c' => c'.Attends (fs.set i (some { f with phase }))
  | .land _ c' => c'.Attends (fs.set i none)
  | .wait => False

/-- With a permit in hand a lookup asks the provider, or fills its cell from the cache. -/
theorem board {m : Flight.Move} (h : c.Attends (fs.set i (some { f with phase := .asking n })))
    (hi : fs.flight? i = some f) (hb : f.Boards now n c m) : Follows fs i f m := by
  have hi' :=
    Fleet.flight?_set (Fleet.getElem?_of_flight? hi) (some { f with phase := .asking n }) i
  rw [if_pos rfl] at hi'
  cases hb with
  | ask c₁ hl =>
      obtain ⟨es, ev, rfl⟩ := exists_of_lookUp hl
      exact h.congr rfl rfl rfl rfl
  | hit v c₁ hl =>
      obtain ⟨es, ev, rfl⟩ := exists_of_lookUp hl
      have hc : Cache.Attends (countHit { c with started := true, entries := es, evictions := ev })
          (fs.set i (some { f with phase := .asking n })) := h.congr rfl rfl rfl rfl
      have hdepart := hc.depart (n := n) hi' (by simp [Flight.holds])
        (.ok (some v)) (hc.provider_of_leave hi' rfl)
      rwa [List.set_set] at hdepart

/-- **A cache attends to its lookups after whatever one of them does.** -/
theorem follows {m : Flight.Move} (h : c.Attends fs) (hi : fs.flight? i = some f)
    (hm : f.Moves now i c m) : Follows fs i f m := by
  have hi' := Fleet.getElem?_of_flight? hi
  cases hm with
  | blank hphase =>
      exact h.exchange (y := none) hi' (by simp [Flight.cell?, hphase]) nofun
  | hit hphase _ v c₁ hl =>
      obtain ⟨es, ev, rfl⟩ := exists_of_lookUp hl
      have hleft := h.exchange (y := none) hi' (by simp [Flight.cell?, hphase]) nofun
      exact hleft.congr rfl rfl rfl rfl
  | miss hphase _ c₁ hl =>
      obtain ⟨es, ev, rfl⟩ := exists_of_lookUp hl
      have hkey := h.key_eq hi
      refine (h.exchange hi' (by simp [Flight.cell?, hphase]) ?_).congr rfl rfl rfl rfl
      rintro g ⟨⟩
      exact ⟨rfl, hkey⟩
  | find hphase n c₁ hopen v hv =>
      obtain ⟨hc, hmem⟩ := h.openCell hopen
      rw [(hc.of_mem_pending hmem).2] at hv
      cases hv
  | enter hphase n c₁ hopen hv gate hgate =>
      obtain ⟨hc, hmem⟩ := h.openCell hopen
      exact hc.enter hi hphase hmem hgate
  | join hphase n c₁ hopen hv gate hgate =>
      obtain ⟨hc, hmem⟩ := h.openCell hopen
      exact hc.join hi hphase hmem hgate
  | share n hphase v hv => exact (h.share hi hphase hv).depart_shared f n v
  | turn n hphase hv gate hgate => exact h.turn hi hphase hv hgate
  | board n hphase provider hgate hb => exact (h.call hi hphase hgate).board hi hb
  | queue n hphase provider hgate => exact h.queue hi hphase hgate
  | permit n hphase provider hgate hb => exact (h.permit hi hphase hgate).board hi hb

/-- A lookup that goes on. -/
theorem step_go {phase : Phase} (h : c.Attends fs) (hi : fs.flight? i = some f)
    (hs : f.step now i c = .go phase c') : c'.Attends (fs.set i (some { f with phase })) :=
  h.follows hi (Flight.moves_of_step hs nofun)

/-- A lookup that has its outcome without the provider. -/
theorem step_land {result : Landing} (h : c.Attends fs) (hi : fs.flight? i = some f)
    (hs : f.step now i c = .land result c') : c'.Attends (fs.set i none) :=
  h.follows hi (Flight.moves_of_step hs nofun)

/-- A lookup that the provider has answered. -/
theorem land {reply result : Landing} (h : c.Attends fs) (hi : fs.flight? i = some f)
    (hphase : f.phase = .asking n) (hl : f.land now n reply c = (result, c')) :
    c'.Attends (fs.set i none) := by
  obtain ⟨-, entries, evictions, rfl⟩ := Flight.exists_of_land hl
  have h₁ : Cache.Attends { c with entries, evictions } fs := h.congr rfl rfl rfl rfl
  exact h₁.depart hi (by simp [Flight.holds, hphase]) _ (h₁.provider_of_leave hi hphase)

/-- A lookup that is dropped where it stands. -/
theorem abandon (h : c.Attends fs) (hi : fs.flight? i = some f) :
    (f.abandon i c).Attends (fs.set i none) := by
  have hi' := Fleet.getElem?_of_flight? hi
  cases hphase : f.phase with
  | arriving | missed =>
      simp only [Flight.abandon, hphase]
      exact h.exchange hi' (by simp [Flight.cell?, hphase]) fun _ hg =>
        absurd hg.symm (Option.some_ne_none _)
  | boarding n =>
      simp only [Flight.abandon, hphase]
      exact h.leaveCell hi hphase
  | admitted n =>
      simp only [Flight.abandon, hphase]
      exact h.yieldCell hi (by simp [Flight.holds, hphase])
        (h.provider_of_absent hi (by simp [Flight.isAsking, hphase])
          (by simp [Flight.isQueuing, hphase]))
  | queuing n =>
      simp only [Flight.abandon, hphase]
      have hqueues : f.isQueuing = true := by simp [Flight.isQueuing, hphase]
      have hcount : Fleet.countIf Flight.isAsking (fs.set i none) = fs.countIf Flight.isAsking :=
        Fleet.countIf_set_of_eq hi' (by simp [Flight.isAsking, hphase])
      refine h.yieldCell hi (by simp [Flight.holds, hphase])
        ((h.provider.leave (Fleet.has_of_flight? hi hqueues)).congr hcount.symm fun j => ?_)
      exact (Fleet.has_set_leave (y := none) hi' rfl j).symm
  | asking n =>
      simp only [Flight.abandon, hphase]
      exact h.yieldCell hi (by simp [Flight.holds, hphase]) (h.provider_of_leave hi hphase)

end Attends

end Cache

end Archivist
