import Archivist.Proofs.Embedding.Traffic

/-!
# One Provider Call at a Time

Lookups of one text share a cell, and one of them at a time asks the provider for it. This is one
call at a time for the text as long as the text has one cell. It gets a second one when a call fails
while others wait in its cell: the lookup that failed closes the cell, one of those who wait tries
again in it, and whoever comes next opens a new cell and asks as well.

## Main results

* `Traffic.Run.calls_le`: beyond one, there are at most as many calls for a text in flight as calls
  for it have failed while others waited.
* `Traffic.two_calls_in_flight`: two of them can be in flight.
-/

namespace Archivist

/-! ### Cells of one key -/

/-- Who is in a cell without a value is in the open cell of the key, or in one of those that have
been closed. -/
def Cache.Houses (c : Cache) (fs : Fleet) (key : String) (closed : List ℕ) : Prop :=
  ∀ i f n, fs.flight? i = some f → f.key = key → f.cell? = some n → (c.cell n).value = none →
    (key, n) ∈ c.pending ∨ n ∈ closed

namespace Cache.Houses

variable {c c' : Cache} {fs : Fleet} {key : String} {closed : List ℕ} {i n now : ℕ} {f : Flight}

/-- A lookup goes on in its cell, or gets into an open one. -/
theorem go {phase : Phase} (h : c.Houses fs key closed) (hi : fs.flight? i = some f)
    (hpending : c.pending ⊆ c'.pending) (hvalue : ∀ m, (c'.cell m).value = (c.cell m).value)
    (hcell : ∀ n, Flight.cell? { f with phase } = some n →
      f.cell? = some n ∨ (f.key, n) ∈ c'.pending) :
    c'.Houses (fs.set i (some { f with phase })) key closed := by
  intro j g n hj hkey hn hv
  rw [hvalue] at hv
  rw [Fleet.flight?_set (Fleet.getElem?_of_flight? hi)] at hj
  split_ifs at hj with hji
  · cases hj
    rcases hcell n hn with hf | hopen
    · exact (h i f n hi hkey hf hv).imp_left fun hp => hpending hp
    · exact .inl (hkey ▸ hopen)
  · exact (h j g n hj hkey hn hv).imp_left fun hp => hpending hp

/-- A lookup leaves, and no cell is closed that has no value. -/
theorem leave (h : c.Houses fs key closed) (hi : fs.flight? i = some f)
    (hvalue : ∀ m, (c'.cell m).value = none → (c.cell m).value = none)
    (hpending : ∀ m, (key, m) ∈ c.pending → (c'.cell m).value = none → (key, m) ∈ c'.pending) :
    c'.Houses (fs.set i none) key closed := by
  intro j g n hj hkey hn hv
  rw [Fleet.flight?_set (Fleet.getElem?_of_flight? hi)] at hj
  split_ifs at hj with hji
  exact (h j g n hj hkey hn (hvalue n hv)).imp_left fun hp => hpending n hp hv

/-- A lookup fills its cell and leaves. -/
theorem depart_ok (h : c.Houses fs key closed) (hi : fs.flight? i = some f)
    (hn : n < c.cells.length) (v : Option Embedding) :
    (f.depart n true (.ok v) c).Houses (fs.set i none) key closed := by
  have hvalue := Flight.value_depart_ok hn f v
  refine h.leave hi (fun m hv => ?_) fun m hp hv => ?_ <;> rw [hvalue] at hv <;>
    split_ifs at hv with hm
  · exact hv
  · rw [Flight.pending_depart]
    refine List.mem_filter.2 ⟨hp, decide_eq_true fun heq => hm (congrArg Prod.snd heq)⟩

/-- A lookup fails to fill its cell and leaves; if others are in it, it is one of those that have
been closed from then on. -/
theorem depart_error (h : c.Houses fs key closed) (hi : fs.flight? i = some f) (e : Failure) :
    (f.depart n true (.error e) c).Houses (fs.set i none) key
      (if fs.company i n && f.key = key then n :: closed else closed) := by
  intro j g m hj hkey hm hv
  rw [Flight.value_depart_error] at hv
  rw [Flight.pending_depart]
  have hj' := hj
  rw [Fleet.flight?_set (Fleet.getElem?_of_flight? hi)] at hj'
  split_ifs at hj' with hji
  by_cases hmn : m = n ∧ f.key = key
  · obtain ⟨rfl, hfk⟩ := hmn
    have hcompany : fs.company i m = true :=
      List.any_eq_true.2 ⟨some g, Fleet.mem_of_flight? hj, by simp [hm]⟩
    refine .inr ?_
    rw [if_pos (by simp [hcompany, hfk])]
    exact List.mem_cons_self
  · rcases h j g m hj' hkey hm hv with hp | hp
    · refine .inl (List.mem_filter.2 ⟨hp, decide_eq_true fun heq => hmn ?_⟩)
      cases heq
      exact ⟨rfl, rfl⟩
    · refine .inr ?_
      split
      · exact List.mem_cons_of_mem _ hp
      · exact hp

/-- The cache after a move of a lookup. -/
def Follows (fs : Fleet) (key : String) (closed : List ℕ) (i : ℕ) (f : Flight) :
    Flight.Move → Prop
  | .go phase c' => c'.Houses (fs.set i (some { f with phase })) key closed
  | .land _ c' => c'.Houses (fs.set i none) key closed
  | .wait => False

/-- With a permit in hand a lookup leaves no cell without a value. -/
theorem board {m : Flight.Move} {provider : Gate} (h : c.Houses fs key closed)
    (hi : fs.flight? i = some f) (hf : f.cell? = some n) (hn : n < c.cells.length)
    (hb : f.Boards now n { c with provider } m) : Follows fs key closed i f m := by
  cases hb with
  | ask c₁ hl =>
      obtain ⟨es, ev, rfl⟩ := exists_of_lookUp hl
      refine h.go hi (List.Subset.refl _) (fun _ => rfl) fun m hm => .inl (hf.trans ?_)
      exact hm
  | hit v c₁ hl =>
      obtain ⟨es, ev, rfl⟩ := exists_of_lookUp hl
      refine depart_ok ?_ hi hn (some v)
      exact h

/-- Lookups that have not been answered leave no cell without a value. -/
theorem follows {m : Flight.Move} (h : c.Houses fs key closed) (ha : c.Attends fs)
    (hi : fs.flight? i = some f) (hm : f.Moves now i c m) : Follows fs key closed i f m := by
  cases hm with
  | blank hphase => exact h.leave hi (fun _ hv => hv) fun _ hp _ => hp
  | hit hphase _ v c₁ hl =>
      obtain ⟨es, ev, rfl⟩ := exists_of_lookUp hl
      exact h.leave hi (fun _ hv => hv) fun _ hp _ => hp
  | miss hphase _ c₁ hl =>
      obtain ⟨es, ev, rfl⟩ := exists_of_lookUp hl
      exact h.go hi (List.Subset.refl _) (fun _ => rfl) nofun
  | find hphase n c₁ hopen v hv =>
      -- A cell that is on offer has no value yet.
      obtain ⟨hc, hmem⟩ := ha.openCell hopen
      rw [(hc.of_mem_pending hmem).2] at hv
      cases hv
  | enter hphase n c₁ hopen hv gate hgate | join hphase n c₁ hopen hv gate hgate =>
      obtain ⟨hc, hmem⟩ := ha.openCell hopen
      refine h.go hi (fun p hp => pending_subset_openCell hopen hp) (fun m => ?_) ?_
      · rw [value_updateGate, cell_openCell hopen]
      · rintro _ ⟨⟩
        exact .inr hmem
  | share n hphase v hv =>
      refine h.leave hi (fun _ hv => hv) fun m hp hm => ?_
      rw [Flight.pending_depart]
      refine List.mem_filter.2 ⟨hp, decide_eq_true fun heq => ?_⟩
      cases heq
      have hm' : (c.cell n).value = none := hm
      rw [hv] at hm'
      cases hm'
  | turn n hphase hv gate hgate =>
      have hf : f.cell? = some n := by simp [Flight.cell?, hphase]
      refine h.go hi (List.Subset.refl _) (fun m => value_updateGate c n m _) ?_
      rintro _ ⟨⟩
      exact .inl hf
  | board n hphase provider hgate hb | permit n hphase provider hgate hb =>
      have hf : f.cell? = some n := by simp [Flight.cell?, hphase]
      exact h.board hi hf (ha.lt_length hi hf) hb
  | queue n hphase provider hgate =>
      refine h.go hi (List.Subset.refl _) (fun _ => rfl) ?_
      rintro _ ⟨⟩
      exact .inl (by simp [Flight.cell?, hphase])

/-- A lookup is answered; a failure hands its cell over to those who are in it. -/
theorem land {reply result : Landing} (h : c.Houses fs key closed) (ha : c.Attends fs)
    (hi : fs.flight? i = some f) (hphase : f.phase = .asking n)
    (hl : f.land now n reply c = (result, c')) :
    c'.Houses (fs.set i none) key
      (if result.isOk = false ∧ fs.company i n ∧ f.key = key then n :: closed else closed) := by
  have hn := ha.lt_length hi (show f.cell? = some n by simp [Flight.cell?, hphase])
  obtain ⟨hresult, entries, evictions, rfl⟩ := Flight.exists_of_land hl
  have h₁ : Cache.Houses
    { c with entries, evictions, provider := c.provider.release } fs key closed := h
  rw [hresult]
  cases Flight.outcome reply with
  | ok v => exact h₁.depart_ok hi hn v
  | error e => simpa [Except.isOk, Except.toBool] using h₁.depart_error hi e

end Cache.Houses

namespace Traffic

variable {s s' : Traffic} {sign : Sign} {trace : List (ℕ × Sign)} {limits : CacheLimits}
  {now places : ℕ} {key : String}

/-- A call for a text of this key has failed, and others are in the cell. -/
def Sign.handsOver (key : String) : Sign → Bool
  | .answered _ text (.error _) _ company => company && Digest.ofText text = key
  | _ => false

/-- How often a call for a text of this key has failed while others were in the cell. -/
def handOvers (key : String) (trace : List (ℕ × Sign)) : ℕ :=
  trace.countP fun (_, sign) => sign.handsOver key

/-- Lookups that begin are in no cell. -/
theorem houses_append_missed {c : Cache} {fs : Fleet} {closed : List ℕ}
    (h : c.Houses fs key closed) (texts : List String) :
    c.Houses (fs ++ texts.map fun text => some { Flight.start text with phase := .missed })
      key closed := by
  intro i f n hi hkey hn
  rw [Fleet.flight?_append] at hi
  split at hi
  · exact h i f n hi hkey hn
  · rw [Fleet.flight?, List.getElem?_map] at hi
    cases ht : texts[i - fs.length]? with
    | none => simp [ht] at hi
    | some text =>
        simp only [ht, Option.map_some, Option.join_some, Option.some.injEq] at hi
        subst hi
        cases hn

/-- With each such failure one more cell of the key is in use. -/
theorem Step.houses {closed : List ℕ} (hs : s.Step sign s') (ha : s.cache.Attends s.fleet)
    (h : s.cache.Houses s.fleet key closed) :
    ∃ closed', closed'.length ≤ (sign.handsOver key).toNat + closed.length ∧
      s'.cache.Houses s'.fleet key closed' := by
  cases hs with
  | began text hi =>
      refine ⟨closed, Nat.le_add_left _ _, fun j f n hj hkey hn => ?_⟩
      rw [Fleet.flight?_set hi] at hj
      split_ifs at hj
      · cases hj
        cases hn
      · exact h j f n hj hkey hn
  | batched hl =>
      obtain ⟨started, entries, evictions, hits, rfl⟩ := Batch.exists_of_lookUp hl
      exact ⟨closed, Nat.le_add_left _ _, houses_append_missed h _⟩
  | moved hi hm =>
      exact ⟨closed, Nat.le_add_left _ _, h.follows ha hi (Flight.moves_of_step hm nofun)⟩
  | served hi hm =>
      exact ⟨closed, Nat.le_add_left _ _, h.follows ha hi (Flight.moves_of_step hm nofun)⟩
  | @answered i n f result c reply hi hphase hl =>
      refine ⟨_, ?_, h.land ha hi hphase hl⟩
      obtain ⟨rfl, -⟩ := Flight.exists_of_land hl
      -- Only a failure with others in the cell leaves a cell that is closed to newcomers.
      cases reply with
      | ok v => exact Nat.le_add_left _ _
      | error e =>
          rw [ha.key_eq hi]
          split
          · rename_i hover
            obtain ⟨-, hcompany, hdigest⟩ := hover
            rw [Sign.handsOver, hcompany, Bool.true_and, decide_eq_true hdigest, Bool.toNat_true,
              List.length_cons]
            exact Nat.le_of_eq (Nat.add_comm _ _)
          · exact Nat.le_add_left _ _
  | dropped hi =>
      refine ⟨closed, Nat.le_add_left _ _, h.leave hi (fun m hv => ?_) fun m hp _ => ?_⟩
      · rwa [Flight.value_abandon] at hv
      · rwa [Flight.pending_abandon]
  | purged => exact ⟨closed, Nat.le_add_left _ _, h⟩
  | invalidated => exact ⟨closed, Nat.le_add_left _ _, h⟩
  | waited _ => exact ⟨closed, Nat.le_add_left _ _, h⟩

/-- The cells of a key that lookups are in are the open one and as many more as calls were handed
over. -/
theorem Run.houses (hr : (fresh limits now places).Run trace s) (key : String) :
    ∃ closed, closed.length ≤ handOvers key trace ∧ s.cache.Houses s.fleet key closed := by
  induction hr with
  | refl =>
      refine ⟨[], Nat.le_refl _, fun i f n hi => ?_⟩
      rw [idle_fresh limits now places i] at hi
      cases hi
  | @step s s' trace sign hr hs ih =>
      obtain ⟨closed, hlength, h⟩ := ih
      obtain ⟨closed', hlength', h'⟩ := hs.houses hr.attends h
      refine ⟨closed', ?_, h'⟩
      rw [handOvers, List.countP_cons, ← handOvers]
      cases hover : sign.handsOver key <;> simp [hover] at hlength' ⊢ <;> omega

/-- **Beyond one, there are at most as many calls for a text in flight as calls for it have failed
while others waited in its cell.** As long as none has, there is at most one. -/
theorem Run.calls_le (hr : (fresh limits now places).Run trace s) (text : String) :
    s.fleet.countIf (fun f => f.isAsking && f.text = text) ≤
      1 + handOvers (Digest.ofText text) trace := by
  have ha := hr.attends
  obtain ⟨closed, hlength, h⟩ := hr.houses (Digest.ofText text)
  -- Who asks fills a cell, and each of these is filled by one at most.
  have hcells : s.fleet.countIf (fun f => f.isAsking && f.text = text) ≤
      ((s.cache.openCell (Digest.ofText text)).1 :: closed).length := by
    refine Fleet.countIf_le_length (q := Flight.holds) (fun i f hi hf => ?_)
      fun n => (ha.cells n).held_le_one
    obtain ⟨hasks, htext⟩ := Bool.and_eq_true_iff.1 hf
    obtain ⟨n, hphase⟩ := Flight.exists_of_isAsking hasks
    have hholds : f.holds n = true := by simp [Flight.holds, hphase]
    have hkey : f.key = Digest.ofText text := by rw [ha.key_eq hi, of_decide_eq_true htext]
    refine ⟨n, ?_, hholds⟩
    rcases h i f n hi hkey (Flight.cell?_of_holds hholds) (ha.value_eq_none hi hholds) with hp | hp
    · rw [ha.openCell_of_mem hp]
      exact List.mem_cons_self
    · exact List.mem_cons_of_mem _ hp
  rw [List.length_cons] at hcells
  omega

/-- A call fails while another lookup waits; that one asks again, and so does the next that
comes. -/
theorem exists_two_calls {text : String} (hblank : Text.blank text = false) (e : Failure) :
    ∃ trace s, (fresh ⟨1, 1, 2⟩ 0 3).Run trace s ∧ (∀ p ∈ trace, p.2.isSingle = true) ∧
      s.fleet.countIf (fun f => f.isAsking && f.text = text) = 2 := by
  have h : (fresh ⟨1, 1, 2⟩ 0 3).Run [] _ := .refl
  have h := h.ask (m := 1) (i := 0) rfl hblank rfl rfl rfl
  -- The second one waits for the first one.
  have h := h.join (i := 1) (n := 0) rfl hblank rfl rfl rfl rfl
  -- When the first one fails, it asks again, and the cell is closed.
  have h := h.step (.answered (i := 0) (n := 0) (.error e) rfl rfl rfl)
  have h := h.step (.moved (i := 1) (p := .admitted 0) rfl (by
    simp [Flight.step, Flight.start, Flight.depart, Flight.outcome, Cache.fresh, Cache.closeCell,
      Cache.updateCell, Gate.release, Cache.cell, Gate.pickUp, Except.map]; rfl))
  have h := h.step (.moved (i := 1) (p := .asking 0) rfl (by
    simp [Flight.step, Flight.board, Gate.enter, Cache.lookUp, Cache.find?]; rfl))
  -- The third one finds no cell and asks as well.
  have h := h.ask (m := 0) (i := 2) rfl hblank rfl rfl rfl
  refine ⟨_, _, h, by simp [Sign.isSingle], ?_⟩
  simp [Fleet.countIf, Flight.start, Flight.isAsking]

/-- The bound is reached: two calls are in flight, and one has failed while another lookup
waited. -/
theorem calls_le_of_two_calls : ∃ trace s, (fresh ⟨1, 1, 2⟩ 0 3).Run trace s ∧
    s.fleet.countIf (fun f => f.isAsking && f.text = "橋梁") = 2 ∧
    2 ≤ 1 + handOvers (Digest.ofText "橋梁") trace := by
  have hblank : Text.blank "橋梁" = false := by decide
  obtain ⟨trace, s, hr, -, htwo⟩ := exists_two_calls hblank (.embedding "down")
  exact ⟨trace, s, hr, htwo, htwo ▸ hr.calls_le "橋梁"⟩

/-- Two calls for one text are in flight. -/
theorem two_calls_in_flight : ∃ trace s, (fresh ⟨1, 1, 2⟩ 0 3).Run trace s ∧
    (∀ p ∈ trace, p.2.isSingle = true) ∧
    s.fleet.countIf (fun f => f.isAsking && f.text = "橋梁") = 2 :=
  exists_two_calls (by decide) (.embedding "down")

end Traffic

end Archivist
