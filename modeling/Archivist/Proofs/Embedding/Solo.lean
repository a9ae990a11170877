import Archivist.Proofs.Embedding.Entries
import Archivist.Proofs.Embedding.Traffic

/-!
# Lookups One After the Other

A lookup that has the cache to itself never waits for another one. `Traffic.Visits` is such a lookup
from its beginning to its end, with whatever time passes on its way; `Visit` is what is seen of it.
There are three courses that it can take (`Traffic.Visits.course`): its text is blank; there is a
good entry; or the provider is asked, once. And it can always be brought to its end
(`Traffic.exists_visits`).
-/

namespace Archivist

/-- What is seen of a lookup. -/
structure Visit where
  text : String
  /-- When it looked into the cache first. -/
  time : ℕ
  /-- What the provider has answered, and when. -/
  calls : List (ℕ × Landing)
  result : Landing

namespace Traffic

/-- A lookup goes on, or time passes. -/
def Sign.goesOn : Sign → Bool
  | .moved _ | .served .. | .answered .. | .waited => true
  | _ => false

/-- The answer of the provider, and when it has come. -/
def reply? : ℕ × Sign → Option (ℕ × Landing)
  | (t, .answered _ _ reply _ _) => some (t, reply)
  | _ => none

/-- The outcome of a lookup. -/
def result? : ℕ × Sign → Option Landing
  | (_, .served _ _ result) | (_, .answered _ _ _ result _) => some result
  | _ => none

/-- A lookup begins, looks into the cache at once and goes on until it has its outcome. -/
inductive Visits (s : Traffic) : Visit → Traffic → Prop where
  | mk {s₁ s₂ s' : Traffic} {text : String} {sign : Sign} {trace : List (ℕ × Sign)}
      {result : Landing} (hbegan : s.Step (.began 0 text) s₁) (hlook : s₁.Step sign s₂)
      (hsign : sign ≠ .waited) (hrun : s₂.Run trace s')
      (hgoesOn : ∀ p ∈ trace ++ [(s.now, sign)], p.2.goesOn = true)
      (hresult : (trace ++ [(s.now, sign)]).findSome? result? = some result) :
      Visits s ⟨text, s.now, (trace ++ [(s.now, sign)]).filterMap reply?, result⟩ s'

end Traffic

/-- A lookup by itself is a run. -/
theorem Traffic.Visits.exists_run {s s' : Traffic} {v : Visit} (hv : s.Visits v s') :
    ∃ trace, s.Run trace s' := by
  cases hv with
  | mk hbegan hlook _ hrun => exact ⟨_, .head hbegan (.head hlook hrun)⟩

/-- The entries after the provider has answered. -/
def Cache.entriesAfter (c : Cache) (now : ℕ) (key : String) : Landing → List (String × CacheEntry)
  | .ok (some vector) =>
    ((key, { textHash := key, vector, createdAt := now }) :: c.others key).take c.room
  | _ => c.others key

/-- An entry is there after an answer because of the answer, or it was there. -/
theorem Cache.mem_entriesAfter {c : Cache} {now : ℕ} {key k : String} {e : CacheEntry}
    {result : Landing} (h : (k, e) ∈ c.entriesAfter now key result) :
    (k = key ∧ ∃ v, result = .ok (some v) ∧
        e = { textHash := key, vector := v, createdAt := now }) ∨
      (k ≠ key ∧ (k, e) ∈ c.entries) := by
  have hothers : (k, e) ∈ c.others key → k ≠ key ∧ (k, e) ∈ c.entries := fun he => by
    obtain ⟨hmem, hne⟩ := List.mem_filter.1 he
    exact ⟨by simpa using hne, hmem⟩
  rcases result with _ | _ | v
  · exact .inr (hothers h)
  · exact .inr (hothers h)
  · rcases List.mem_cons.1 (List.mem_of_mem_take h) with heq | he
    · cases heq
      exact .inl ⟨rfl, v, rfl, rfl⟩
    · exact .inr (hothers he)

/-- The courses that a lookup can take which has the cache to itself. -/
inductive Visit.Course (v : Visit) (c c' : Cache) : Prop where
  | blank (hblank : Text.blank v.text = true) (hcalls : v.calls = [])
      (hresult : v.result = .ok none)
      (hentries : c'.entries = c.entries)
  | hit (hblank : Text.blank v.text = false) (e : CacheEntry)
      (he : (Digest.ofText v.text, e) ∈ c.entries)
      (hgood : v.time - e.createdAt < c.limits.lifetime) (hcalls : v.calls = [])
      (hresult : v.result = .ok (some e.vector))
      (hentries : c'.entries = (Digest.ofText v.text, e) :: c.others (Digest.ofText v.text))
  | fetch (hblank : Text.blank v.text = false)
      (hbad : ∀ e, (Digest.ofText v.text, e) ∈ c.entries →
        c.limits.lifetime ≤ v.time - e.createdAt)
      (t : ℕ) (reply : Landing) (hcalls : v.calls = [(t, reply)])
      (hresult : v.result = Flight.outcome reply)
      (hentries : c'.entries = c.entriesAfter t (Digest.ofText v.text) (Flight.outcome reply))

namespace Traffic

variable {s s' : Traffic} {sign : Sign} {trace : List (ℕ × Sign)} {c : Cache} {f : Flight}

/-- With nobody under way time passes. -/
theorem Step.still (hs : s.Step sign s') (hfleet : s.fleet = [none]) (hsign : sign.goesOn = true) :
    s'.fleet = [none] ∧ s'.cache = s.cache ∧ reply? (s.now, sign) = none ∧
      result? (s.now, sign) = none := by
  have hnobody : ∀ i, s.fleet.flight? i = none := fun i => by
    rw [hfleet]
    exact Fleet.flight?_append_none [] i
  cases hs with
  | began | batched | dropped | purged | invalidated => cases hsign
  | moved hi | served hi | answered _ hi =>
      rw [hnobody] at hi
      cases hi
  | waited => exact ⟨hfleet, rfl, rfl, rfl⟩

/-- While nobody is under way, time passes and nothing else happens. -/
theorem Run.still (hr : s.Run trace s') (hfleet : s.fleet = [none])
    (hgoesOn : ∀ p ∈ trace, p.2.goesOn = true) :
    s'.fleet = [none] ∧ s'.cache = s.cache ∧ trace.filterMap reply? = [] ∧
      trace.findSome? result? = none := by
  induction hr with
  | refl => exact ⟨hfleet, rfl, rfl, rfl⟩
  | step hr hs ih =>
      obtain ⟨hfleet₁, hcache₁, hreplies, hresults⟩ :=
        ih fun p hp => hgoesOn p (List.mem_cons_of_mem _ hp)
      obtain ⟨hfleet₂, hcache₂, hreply, hresult⟩ :=
        hs.still hfleet₁ (hgoesOn _ List.mem_cons_self)
      refine ⟨hfleet₂, hcache₂.trans hcache₁, ?_, ?_⟩
      · rw [List.filterMap_cons, hreply, hreplies]
      · rw [List.findSome?_cons, hresult, hresults]

/-- A lookup by itself that has found nothing in the cache. -/
structure Alone (c : Cache) (f : Flight) (s : Traffic) : Prop where
  fleet : s.fleet = [some f]
  attends : s.cache.Attends s.fleet
  phase : f.phase = .missed ∨ (∃ n, f.phase = .admitted n) ∨ ∃ n, f.phase = .asking n
  limits : s.cache.limits = c.limits
  /-- The entries are those that the cache had before, without that of the text. -/
  entries : s.cache.entries = c.others f.key

namespace Alone

/-- All it can do is to go on. -/
theorem exists_go {m : Flight.Move} (h : Alone c f s) (hm : f.Moves s.now 0 s.cache m) :
    ∃ phase c', m = .go phase c' ∧
      ((∃ n, phase = .admitted n) ∨ ∃ n, phase = .asking n) ∧
      c'.limits = c.limits ∧ c'.entries = c.others f.key := by
  have hserves := h.attends.cells
  have hprovider := h.attends.provider
  rw [h.fleet] at hserves hprovider
  have hphase := h.phase
  cases hm with
  | blank hp | hit hp | miss hp | share _ hp | turn _ hp | permit _ hp => simp [hp] at hphase
  | find hp n c₁ ho v hv =>
      obtain ⟨hc, hmem⟩ := h.attends.openCell ho
      rw [(hc.of_mem_pending hmem).2] at hv
      cases hv
  | enter hp n c₁ ho =>
      obtain ⟨pending, cells, rfl⟩ := Cache.exists_of_openCell ho
      exact ⟨_, _, rfl, .inl ⟨n, rfl⟩, h.limits, h.entries⟩
  | join hp n c₁ ho hv gate hgate =>
      obtain ⟨hc, -⟩ := h.attends.openCell ho
      have hcell := (hc.cells n).gate hv
      rw [h.fleet] at hcell
      have hholds : Flight.holds n f = false := by simp [Flight.holds, hp]
      have hboards : Flight.boards n f = false := by simp [Flight.boards, hp]
      -- Nobody else is there to hold the turn of the cell.
      rw [Fleet.countIf_singleton_of_not hholds] at hcell
      exact absurd hgate (hcell.enter_ne_false (Fleet.not_has_singleton hboards) Nat.one_pos)
  | board n hp provider hgate hb =>
      cases hb with
      | hit v c₁ hl =>
          obtain ⟨e, he, -⟩ := Cache.exists_of_lookUp_some hl
          -- The entry of the own key has been taken out by the miss.
          rw [h.entries] at he
          exact absurd (List.mem_map_of_mem he) (c.not_mem_others f.key)
      | ask c₁ hl =>
          have hentries := Cache.entries_of_lookUp_none hl
          obtain ⟨es, ev, rfl⟩ := Cache.exists_of_lookUp hl
          refine ⟨_, _, rfl, .inr ⟨n, rfl⟩, h.limits, hentries.trans ?_⟩
          exact Cache.others_of_entries_eq h.entries
  | queue n hp provider hgate =>
      have hasking : f.isAsking = false := by simp [Flight.isAsking, hp]
      have hqueuing : f.isQueuing = false := by simp [Flight.isQueuing, hp]
      rw [Fleet.countIf_singleton_of_not hasking] at hprovider
      exact absurd hgate
        (hprovider.enter_ne_false (Fleet.not_has_singleton hqueuing) (Nat.le_max_right _ _))

/-- It is by itself in its next phase. -/
theorem moved {phase : Phase} {c' : Cache} (h : Alone c f s)
    (hm : f.step s.now 0 s.cache = .go phase c') :
    Alone c { f with phase }
      { s with cache := c', fleet := s.fleet.set 0 (some { f with phase }) } := by
  have hi : s.fleet.flight? 0 = some f := by rw [h.fleet]; rfl
  obtain ⟨_, _, hgo, hphase, hlimits, hentries⟩ := h.exists_go (Flight.moves_of_step hm nofun)
  cases hgo
  refine ⟨?_, (Step.moved hi hm).attends h.attends, .inr hphase, hlimits, hentries⟩
  rw [h.fleet]
  rfl

/-- The lookup goes on, or it has been answered. -/
theorem step (h : Alone c f s) (hk : c.entries.length ≤ c.room) (hs : s.Step sign s')
    (hsign : sign.goesOn = true) :
    (∃ phase, Alone c { f with phase } s' ∧ reply? (s.now, sign) = none ∧
      result? (s.now, sign) = none) ∨
    (∃ reply, s'.fleet = [none] ∧ s'.cache.limits = c.limits ∧
      s'.cache.entries = c.entriesAfter s.now f.key (Flight.outcome reply) ∧
      reply? (s.now, sign) = some (s.now, reply) ∧
      result? (s.now, sign) = some (Flight.outcome reply)) := by
  have ha := hs.attends h.attends
  -- The only lookup there is is the one at the first place.
  have hown : ∀ {i g}, s.fleet.flight? i = some g → i = 0 ∧ g = f := fun hi => by
    rw [h.fleet] at hi
    obtain ⟨rfl, hg⟩ := Fleet.eq_of_flight?_singleton hi
    exact ⟨rfl, (Option.some.inj hg).symm⟩
  cases hs with
  | began | batched | dropped | purged | invalidated => cases hsign
  | moved hi hm =>
      obtain ⟨rfl, rfl⟩ := hown hi
      exact .inl ⟨_, h.moved hm, rfl, rfl⟩
  | served hi hm =>
      obtain ⟨rfl, rfl⟩ := hown hi
      obtain ⟨phase, c', hgo, -⟩ := h.exists_go (Flight.moves_of_step hm nofun)
      cases hgo
  | answered reply hi hphase hl =>
      obtain ⟨rfl, rfl⟩ := hown hi
      have hroom : s.cache.room = c.room := by rw [Cache.room, Cache.room, h.limits]
      have hlength : s.cache.entries.length ≤ s.cache.room := by
        rw [h.entries, hroom]
        exact Nat.le_trans (c.others_sublist _).length_le hk
      obtain ⟨hresult, -⟩ := Flight.exists_of_land hl
      refine .inr ⟨reply, by rw [h.fleet]; rfl, ?_, ?_, rfl, congrArg some hresult⟩
      · exact (Step.answered reply hi hphase hl).limits_eq.trans h.limits
      · rw [Cache.entries_land hl]
        rcases Flight.outcome reply with e | _ | v
        · exact h.entries
        · exact h.entries
        · refine (Cache.entries_remember hlength _ _ _).trans ?_
          rw [hroom, Cache.others_of_entries_eq h.entries]
          rfl
  | waited hle => exact .inl ⟨_, ⟨h.fleet, ha, h.phase, h.limits, h.entries⟩, rfl, rfl⟩

/-- The lookup has not come to its end, or it has been answered once. -/
theorem run (h : Alone c f s) (hk : c.entries.length ≤ c.room) (hr : s.Run trace s')
    (hgoesOn : ∀ p ∈ trace, p.2.goesOn = true) :
    (∃ phase, Alone c { f with phase } s' ∧ trace.filterMap reply? = [] ∧
      trace.findSome? result? = none) ∨
    (∃ t reply, s'.fleet = [none] ∧ s'.cache.limits = c.limits ∧
      s'.cache.entries = c.entriesAfter t f.key (Flight.outcome reply) ∧
      trace.filterMap reply? = [(t, reply)] ∧
      trace.findSome? result? = some (Flight.outcome reply)) := by
  induction hr with
  | refl => exact .inl ⟨f.phase, h, rfl, rfl⟩
  | @step s₁ s₂ trace sign hr hs ih =>
      have hsign : sign.goesOn = true := hgoesOn _ List.mem_cons_self
      rcases ih fun p hp => hgoesOn p (List.mem_cons_of_mem _ hp) with
        ⟨phase, h₁, hreplies, hresults⟩ | ⟨t, reply, hfleet, hlimits, hentries, hreplies, hresults⟩
      · rcases h₁.step hk hs hsign with ⟨phase', h₂, hreply, hresult⟩ |
          ⟨reply, hfleet, hlimits, hentries, hreply, hresult⟩
        · refine .inl ⟨phase', h₂, ?_, ?_⟩
          · rw [List.filterMap_cons, hreply, hreplies]
          · rw [List.findSome?_cons, hresult, hresults]
        · refine .inr ⟨s₁.now, reply, hfleet, hlimits, hentries, ?_, ?_⟩
          · rw [List.filterMap_cons, hreply, hreplies]
          · rw [List.findSome?_cons, hresult]
      · obtain ⟨hfleet', hcache, hreply, hresult⟩ := hs.still hfleet hsign
        rw [← hcache] at hlimits hentries
        refine .inr ⟨t, reply, hfleet', hlimits, hentries, ?_, ?_⟩
        · rw [List.filterMap_cons, hreply, hreplies]
        · rw [List.findSome?_cons, hresult, hresults]

/-- It can be brought to its end at once, whatever the provider answers. -/
theorem exists_run {s : Traffic} {f : Flight} (h : Alone c f s) (reply : Landing) :
    ∃ trace s', s.Run trace s' ∧ (∀ p ∈ trace, p.2.goesOn = true) ∧ s'.now = s.now ∧
      (∃ result, trace.findSome? result? = some result) ∧
      ∀ p ∈ trace.filterMap reply?, p = (s.now, reply) := by
  have hi : s.fleet.flight? 0 = some f := by rw [h.fleet]; rfl
  by_cases hasks : ∃ n, f.phase = .asking n
  · obtain ⟨n, hphase⟩ := hasks
    exact ⟨_, _, .step .refl (.answered reply hi hphase rfl), by simp [Sign.goesOn], rfl,
      ⟨_, rfl⟩, by simp [reply?]⟩
  · rcases Flight.moves_or_waits s.now 0 f s.cache with ⟨-, hwaits⟩ | hm
    · have hphase := h.phase
      cases hwaits with
      | turn n hp | permit n hp => simp [hp] at hphase
      | answer n hp => exact absurd ⟨n, hp⟩ hasks
    · obtain ⟨phase, c', hgo, -⟩ := h.exists_go hm
      have hlt := Flight.rank_of_step_go hgo
      obtain ⟨trace, s', hr, hgoesOn, hnow, ⟨result, hresult⟩, hreplies⟩ :=
        (h.moved hgo).exists_run reply
      refine ⟨_, s', .head (.moved hi hgo) hr, ?_, hnow, ⟨result, ?_⟩, fun p hp => ?_⟩
      · exact List.forall_mem_append.2 ⟨hgoesOn, List.forall_mem_singleton.2 rfl⟩
      · rw [List.findSome?_append, hresult]
        rfl
      · rw [List.filterMap_append] at hp
        exact hreplies p ((List.mem_append.1 hp).resolve_right nofun)
  termination_by f.rank

end Alone

/-! ### Courses -/

/-- A lookup by itself that looks into the cache is served at once, or goes on alone. -/
theorem Step.first {now : ℕ} {text : String}
    (hs : Step ⟨now, c, [some (Flight.start text)]⟩ sign s')
    (ha : c.Attends [some (Flight.start text)]) {P : String → CacheEntry → Prop} (hk : c.Keeps P)
    (hsign : sign ≠ .waited) (hgoesOn : sign.goesOn = true) :
    (∃ result, Visit.Course ⟨text, now, [], result⟩ c s'.cache ∧ s'.fleet = [none] ∧
      s'.cache.limits = c.limits ∧ reply? (now, sign) = none ∧
      result? (now, sign) = some result) ∨
    (Text.blank text = false ∧
      (∀ e, (Digest.ofText text, e) ∈ c.entries → c.limits.lifetime ≤ now - e.createdAt) ∧
      Alone c { Flight.start text with phase := .missed } s' ∧ reply? (now, sign) = none ∧
      result? (now, sign) = none) := by
  have ha' := hs.attends ha
  cases hs with
  | began | batched | dropped | purged | invalidated => cases hgoesOn
  | waited => exact absurd rfl hsign
  | answered _ hi hphase =>
      -- Nothing has been asked for yet.
      obtain ⟨-, hf⟩ := Fleet.eq_of_flight?_singleton hi
      cases hf
      cases hphase
  | moved hi hm =>
      obtain ⟨rfl, hf⟩ := Fleet.eq_of_flight?_singleton hi
      cases hf
      have hmoves := Flight.moves_of_step hm nofun
      have hlimits := hmoves.limits_eq
      cases hmoves with
      | miss hphase hblank _ hl =>
          have halone : Alone c { Flight.start text with phase := .missed } _ :=
            ⟨rfl, ha', .inl rfl, hlimits, Cache.entries_of_lookUp_none hl⟩
          have hbad := fun e he => Cache.expired_of_lookUp_none (e := e) hk.nodup hl he
          exact .inr ⟨hblank, hbad, halone, rfl, rfl⟩
      | enter hphase | join hphase | board _ hphase | queue _ hphase | permit _ hphase
      | turn _ hphase => cases hphase
  | served hi hm =>
      obtain ⟨rfl, hf⟩ := Fleet.eq_of_flight?_singleton hi
      cases hf
      have hmoves := Flight.moves_of_step hm nofun
      have hlimits := hmoves.limits_eq
      cases hmoves with
      | blank hphase hblank =>
          exact .inl ⟨_, .blank hblank rfl rfl rfl, rfl, hlimits, rfl, rfl⟩
      | hit hphase hblank v c₁ hl =>
          obtain ⟨e, he, rfl, hgood, hentries⟩ := Cache.exists_of_lookUp_some hl
          exact .inl ⟨_, .hit hblank e he hgood rfl rfl hentries, rfl, hlimits, rfl, rfl⟩
      | find hphase | share _ hphase | board _ hphase | permit _ hphase => cases hphase

/-- **A lookup by itself takes one of three courses**, and leaves the cache to the next one. -/
theorem Visits.course {v : Visit} (hv : s.Visits v s') (hfleet : s.fleet = [none])
    (ha : s.cache.Attends s.fleet) {P : String → CacheEntry → Prop} (hk : s.cache.Keeps P) :
    v.time = s.now ∧ s'.fleet = [none] ∧ s'.cache.limits = s.cache.limits ∧
      v.Course s.cache s'.cache := by
  obtain ⟨now, c, fs⟩ := s
  cases hfleet
  cases hv with
  | mk hbegan hlook hsign hrun hgoesOn hresult =>
      refine ⟨rfl, ?_⟩
      have hgoesOn' := fun p hp => hgoesOn p (List.mem_append_left _ hp)
      have ha₁ := hbegan.attends ha
      cases hbegan
      rw [List.findSome?_append] at hresult
      rw [List.filterMap_append]
      rcases hlook.first ha₁ hk hsign (hgoesOn _ (List.mem_append_right _ List.mem_cons_self)) with
        ⟨result, hcourse, hfleet, hlimits, hreply, hserved⟩ |
        ⟨hblank, hbad, halone, hreply, hserved⟩
      · -- It has its outcome, so only time can pass.
        obtain ⟨hfleet', hcache, hreplies, hresults⟩ := hrun.still hfleet hgoesOn'
        rw [hresults, Option.none_or, List.findSome?_singleton, hserved] at hresult
        cases hresult
        rw [hreplies, List.filterMap_cons_none hreply, hcache]
        exact ⟨hfleet', hlimits, hcourse⟩
      · rcases halone.run hk.length_le hrun hgoesOn' with ⟨-, -, -, hresults⟩ |
          ⟨t, reply, hfleet, hlimits, hentries, hreplies, hresults⟩
        · rw [hresults, Option.none_or, List.findSome?_singleton, hserved] at hresult
          cases hresult
        · rw [hresults] at hresult
          cases hresult
          rw [hreplies, List.filterMap_cons_none hreply]
          exact ⟨hfleet, hlimits, .fetch hblank hbad t reply rfl rfl hentries⟩

/-- **A lookup by itself can be brought to its end** at once, whatever the provider answers. -/
theorem exists_visits (hfleet : s.fleet = [none]) (ha : s.cache.Attends s.fleet) (text : String)
    (reply : Landing) :
    ∃ v s', s.Visits v s' ∧ v.text = text ∧ s'.now = s.now ∧
      ∀ p ∈ v.calls, p = (s.now, reply) := by
  obtain ⟨now, c, fs⟩ := s
  cases hfleet
  have hbegan : Step ⟨now, c, [none]⟩ (.began 0 text) ⟨now, c, [some (Flight.start text)]⟩ :=
    .began text rfl
  have ha₁ := hbegan.attends ha
  have hi : Fleet.flight? [some (Flight.start text)] 0 = some (Flight.start text) := rfl
  obtain ⟨m, hm⟩ : ∃ m, (Flight.start text).step now 0 c = m := ⟨_, rfl⟩
  have hmoves : (Flight.start text).Moves now 0 c m := by
    rcases Flight.moves_or_waits now 0 (Flight.start text) c with ⟨-, hwaits⟩ | hmoves
    · cases hwaits with
      | turn _ hp | permit _ hp | answer _ hp => cases hp
    · rwa [hm] at hmoves
  -- The first step settles the lookup or misses; after a miss it is run on.
  cases hmoves with
  | enter hp | join hp | find hp | share _ hp | turn _ hp | board _ hp | queue _ hp
  | permit _ hp => cases hp
  | blank | hit =>
      have hserved := Step.served (s := ⟨now, c, [some (Flight.start text)]⟩) hi hm
      refine ⟨_, _, .mk hbegan hserved nofun .refl ?_ rfl, rfl, rfl, nofun⟩
      simp [Sign.goesOn]
  | miss _ _ c₁ hl =>
      have hmoved := Step.moved (s := ⟨now, c, [some (Flight.start text)]⟩) hi hm
      have halone : Alone c { Flight.start text with phase := .missed } _ :=
        ⟨rfl, hmoved.attends ha₁, .inl rfl, hmoved.limits_eq, Cache.entries_of_lookUp_none hl⟩
      obtain ⟨trace, s', hr, hgoesOn, hnow, ⟨result, hresult⟩, hreplies⟩ :=
        halone.exists_run reply
      have hown : ∀ p ∈ trace ++ [(now, Sign.moved 0)], p.2.goesOn = true :=
        List.forall_mem_append.2 ⟨hgoesOn, List.forall_mem_singleton.2 rfl⟩
      have hlast : (trace ++ [(now, Sign.moved 0)]).findSome? result? = some result := by
        rw [List.findSome?_append, hresult]
        rfl
      refine ⟨_, s', .mk hbegan hmoved nofun hr hown hlast, rfl, hnow, fun p hp => ?_⟩
      rw [List.filterMap_append] at hp
      exact hreplies p ((List.mem_append.1 hp).resolve_right nofun)

end Traffic

end Archivist
