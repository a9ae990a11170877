import Archivist.Proofs.Concurrency.Hall
import Archivist.Proofs.Concurrency.Permits
import Archivist.Proofs.Embedding.Attends

/-!
# Lanes That Take Their Time

Lanes that need no permit and have no limit of time come to their ends, and none of them is cut off:
each may wait for answers, and its lookups for those of others, but nobody waits in a circle
(`Hall.ended_of_run`).
-/

/-! ### Lookups do not get stuck

A lookup may wait for another one to fill its cell, and for a permit to ask the provider. Nobody
waits in a circle: among lookups under way there is always one that can go on, or that the provider
has been asked by (`Cache.Attends.exists_ready`).
-/

namespace Archivist

namespace Flight

variable {now me n : ℕ} {f : Flight} {c : Cache}

/-- A lookup that cannot go on waits for something. -/
theorem waits_of_step (h : f.step now me c = .wait) : f.Waits me c := by
  rcases moves_or_waits now me f c with ⟨-, hw⟩ | hm
  · exact hw
  · rw [h] at hm
    cases hm with
    | board _ _ _ _ hb | permit _ _ _ _ hb => cases hb

/-- Who waits for the turn to fill a cell has not been given it. -/
theorem Waits.pickUp_of_boards (h : f.Waits me c) (hf : f.boards n = true) :
    (c.cell n).value = none ∧ (c.cell n).gate.pickUp me = none := by
  cases h with
  | turn m hphase hv hgate =>
      obtain rfl : m = n := by simpa [boards, hphase] using hf
      exact ⟨hv, hgate⟩
  | permit m hphase | answer m hphase => simp [boards, hphase] at hf

/-- Who waits for a permit has not been given one. -/
theorem Waits.pickUp_of_isQueuing (h : f.Waits me c) (hf : f.isQueuing = true) :
    c.provider.pickUp me = none := by
  cases h with
  | permit m hphase hgate => exact hgate
  | turn m hphase | answer m hphase => simp [isQueuing, hphase] at hf

/-- Who waits though it is its turn to fill a cell waits for a permit, or for an answer. -/
theorem Waits.isQueuing_or_isAsking (h : f.Waits me c) (hf : f.holds n = true) :
    f.isQueuing = true ∨ f.isAsking = true := by
  cases h with
  | turn m hphase => simp [holds, hphase] at hf
  | permit m hphase => exact .inl (by simp [isQueuing, hphase])
  | answer m hphase => exact .inr (by simp [isAsking, hphase])

end Flight

/-- **Among lookups under way there is always one that can go on**, or one that has asked. -/
theorem Cache.Attends.exists_ready {c : Cache} {fs : Fleet} {i : ℕ} {f : Flight}
    (h : c.Attends fs) (hi : fs.flight? i = some f) (now : ℕ) :
    ∃ j g, fs.flight? j = some g ∧ (g.isAsking = true ∨ g.step now j c ≠ .wait) := by
  by_contra hstuck
  have hwaits : ∀ {j g}, fs.flight? j = some g → g.Waits j c := fun hj =>
    Flight.waits_of_step (by_contra fun hgo => hstuck ⟨_, _, hj, .inr hgo⟩)
  have hasks : ∀ {j g}, fs.flight? j = some g → g.isAsking ≠ true := fun hj hg =>
    hstuck ⟨_, _, hj, .inl hg⟩
  -- Who waits for a permit waits for one that has asked.
  have hqueues : ∀ {j g}, fs.flight? j = some g → g.isQueuing ≠ true := by
    intro j g hj hg
    have hpick := (hwaits hj).pickUp_of_isQueuing hg
    rcases h.provider.busy (Nat.le_max_right _ 1) (Fleet.has_of_flight? hj hg) hpick with
      hheld | ⟨k, hline, hgranted⟩
    · obtain ⟨k, g', hk, hg'⟩ := Fleet.exists_of_countIf_pos hheld
      exact hasks hk hg'
    · obtain ⟨g', hk, hg'⟩ := hline.exists
      exact hgranted ((hwaits hk).pickUp_of_isQueuing hg')
  -- Who waits for the turn to fill a cell waits for one whose turn it is.
  have hboards : ∀ {j g n}, fs.flight? j = some g → g.boards n ≠ true := by
    intro j g n hj hg
    obtain ⟨hv, hpick⟩ := (hwaits hj).pickUp_of_boards hg
    rcases ((h.cells n).gate hv).busy Nat.one_pos (Fleet.has_of_flight? hj hg) hpick with
      hheld | ⟨k, hline, hgranted⟩
    · obtain ⟨k, g', hk, hg'⟩ := Fleet.exists_of_countIf_pos hheld
      exact ((hwaits hk).isQueuing_or_isAsking hg').elim (hqueues hk) (hasks hk)
    · obtain ⟨g', hk, hg'⟩ := hline.exists
      exact hgranted ((hwaits hk).pickUp_of_boards hg').2
  cases hwaits hi with
  | turn n hphase => exact hboards (n := n) hi (by simp [Flight.boards, hphase])
  | permit n hphase => exact hqueues hi (by simp [Flight.isQueuing, hphase])
  | answer n hphase => exact hasks hi (by simp [Flight.isAsking, hphase])

/-- The lane needs no permit, and its time is not limited. -/
def Lane.IsFree {α : Type} : Lane α → Prop
  | .ready gated allowance _ => gated = false ∧ allowance = none
  | .queued .. => False
  | .running gated deadline _ | .calling gated deadline _ _ _ _
  | .looking gated deadline _ _ _ _ => gated = false ∧ deadline = none
  | .ended e => e ≠ .late

variable {env : Environment} {α : Type}

namespace World

variable {w w' : World env} {i : ℕ} {l l' : Lane α}

/-- A lane that goes on with an answer needs no permit if it needed none. -/
theorem isFree_resume (w : World env) {q : Ask}
    (next : Reply q → Program Reply (Except Failure α)) (answer : Option (Reply q)) :
    (w.resume false none next answer).1.IsFree := by
  cases answer with
  | none => exact nofun
  | some r => exact ⟨rfl, rfl⟩

/-- **A lane whose time is not limited is not cut off.** -/
theorem Acts.isFree (h : w.Acts i l l' w') (hl : l.IsFree) : l'.IsFree := by
  cases h with
  | start allowance p =>
      obtain ⟨-, rfl⟩ := hl
      exact ⟨rfl, rfl⟩
  | enter | queue => cases hl.1
  | pickUp => exact hl.elim
  | finish | giveUp => exact nofun
  | look | ask => exact hl
  | exchange | answered =>
      obtain ⟨rfl, rfl⟩ := hl
      exact isFree_resume _ _ _
  | late gated deadline q next due answer hlate =>
      obtain ⟨-, rfl⟩ := hl
      cases hlate
  | lookup gated deadline text next flight answer h =>
      cases h with
      | ask | land | go | settle => exact hl
      | breakDown => exact nofun
      | late answer hlate =>
          obtain ⟨-, rfl⟩ := hl
          cases hlate

/-- A lane that looks up an embedding can go on if its lookup can, or if it is to ask. -/
theorem act_looking_ne_none_of_step (w : World env) (i : ℕ) (gated : Bool) (deadline : Option ℕ)
    (text : String) (next : Reply (.embedding text) → Program Reply (Except Failure α))
    {flight : Flight} (h : flight.isAsking = true ∨ flight.step w.clock i w.cache ≠ .wait) :
    w.act i (.looking gated deadline text next flight none) ≠ none := by
  simp only [act, actLookup]
  split
  · split <;> exact Option.some_ne_none _
  · rename_i heq
    cases heq
  · rename_i hphase hdue
    have hstep := h.resolve_left fun hasks => by
      obtain ⟨cell, hcell⟩ := Flight.exists_of_isAsking hasks
      exact hphase cell hcell rfl
    split
    · exact Option.some_ne_none _
    · exact Option.some_ne_none _
    · rename_i hwait
      exact absurd hwait hstep

/-- Lanes that need no permit and rest, and not for a limit, have ended. -/
theorem ended_of_isFree {ls : List (Lane α)} (ha : w.cache.Attends (ls.map Lane.flight?))
    (hfree : ∀ l ∈ ls, l.IsFree) (hawaits : ∀ l ∈ ls, l.AwaitsAnswer) (hr : Rests none ls w) :
    ∀ l ∈ ls, ∃ e, l = .ended e := by
  have hwakes := hr.wakesAt_eq_none hawaits
  have hstuck : ∀ l ∈ ls, ∃ i, ls[i]? = some l ∧ w.act i l = none := fun l hl => by
    obtain ⟨i, hi⟩ := List.mem_iff_getElem?.1 hl
    exact ⟨i, hi, hr.act_eq_none i l hi⟩
  intro l hl
  obtain ⟨i, hi, hact⟩ := hstuck l hl
  cases l with
  | ended e => exact ⟨e, rfl⟩
  | ready gated allowance p => cases gated <;> cases hact
  | queued => exact (hfree _ hl).elim
  | running gated deadline p => exact absurd hact (act_running_ne_none w i gated deadline p)
  | calling gated deadline q next due answer => cases hwakes _ hl
  | looking gated deadline text next flight answer =>
      -- If this lookup cannot go on, another one can.
      obtain ⟨j, g, hj, hg⟩ := ha.exists_ready (Fleet.flight?_of_getElem? (by
        rw [List.getElem?_map, hi]
        rfl)) w.clock
      have hj' := Fleet.getElem?_of_flight? hj
      rw [List.getElem?_map] at hj'
      obtain ⟨l', hl', hflight⟩ := Option.map_eq_some_iff.1 hj'
      have hact' := hr.act_eq_none j l' hl'
      have hwakes' := hwakes l' (List.mem_of_getElem? hl')
      cases l' with
      | looking gated' deadline' text' next' flight' answer' =>
          cases hflight
          cases answer' with
          | none => exact absurd hact' (act_looking_ne_none_of_step _ _ _ _ _ _ hg)
          | some => cases hwakes'
      | ready | queued | running | calling | ended => cases hflight

end World

namespace Hall

variable {h : Hall env}

/-- What lanes do when they are run is one of the things that can happen. -/
theorem run_run (h : Hall env) (limit : Option ℕ) (cursor : ℕ) : ∃ asked, h.Run asked
    ⟨(h.world.run limit cursor h.lanes).2, (h.world.run limit cursor h.lanes).1⟩ := by
  refine World.run_induct (I := fun ls w => ∃ asked, h.Run asked ⟨w, ls⟩) ?_ ?_ limit h.world cursor
    h.lanes ⟨[], .refl⟩
  · rintro w₁ w₂ ls i l l' ⟨asked, hr⟩ hl ha
    exact ⟨_, hr.step (.acted hl ha)⟩
  · rintro w₁ ls t ⟨asked, hr⟩
    exact ⟨_, hr.step (.passed _ (Nat.le_max_left _ _) (Nat.le_refl _))⟩

/-- **Lanes that need no permit and have no limit of time come to their ends**, and none is cut
off. -/
theorem ended_of_run (hsound : h.Sound) (hfree : ∀ l ∈ h.lanes, l.IsFree)
    (hawaits : ∀ l ∈ h.lanes, l.AwaitsAnswer) (cursor : ℕ) :
    ∀ l ∈ (h.world.run none cursor h.lanes).1, ∃ e, l = .ended e ∧ e ≠ .late := by
  obtain ⟨asked, hr⟩ := h.run_run none cursor
  have hkeeps : ∀ l ∈ (h.world.run none cursor h.lanes).1, l.IsFree ∧ l.AwaitsAnswer := by
    intro l hl
    obtain ⟨i, hi⟩ := List.mem_iff_getElem?.1 hl
    have hlt : i < h.lanes.length := by
      rw [← World.length_run none h.world cursor h.lanes]
      exact (List.getElem?_eq_some_iff.1 hi).1
    have hmem := List.getElem_mem hlt
    obtain ⟨l', hl', hkept⟩ := World.run_induct_lane (P := fun l => l.IsFree ∧ l.AwaitsAnswer)
      (fun ha hl => ⟨ha.isFree hl.1, ha.awaitsAnswer hl.2⟩) (List.getElem?_eq_getElem hlt)
      ⟨hfree _ hmem, hawaits _ hmem⟩ none h.world cursor
    exact Option.some.inj (hi.symm.trans hl') ▸ hkept
  intro l hl
  obtain ⟨e, rfl⟩ := World.ended_of_isFree (hr.sound hsound).offers.attends
    (fun l hl => (hkeeps l hl).1) (fun l hl => (hkeeps l hl).2) (World.run_rests none _ _ _) l hl
  exact ⟨e, rfl, (hkeeps _ hl).1⟩

end Hall

end Archivist
