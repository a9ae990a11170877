import Archivist.Proofs.Concurrency.Lore

/-!
# Lanes Whose Answers Do Not Change

If answers do not change, lanes end as they always do, whatever else runs beside them, in whatever
order they take turns, however long answers take and whatever the cache holds. Only the time can
come in between: something is cut off then, and that is counted.

Between two rounds of lanes a world is calm (`World.Calm`): nobody looks up anything, and what the
cache holds is in the book. Rounds leave it calm, also if they are dropped in their midst
(`World.join_calm`), so what has been done before a round cannot be seen in it (`World.ComesTo`).
-/

namespace Archivist

namespace World

variable {env : Environment} {α : Type} {L : Lore} {w w' : World env} {ls : List (Lane α)}

/-- Nobody looks up anything, and what the cache holds is in the book. -/
structure Calm (w : World env) (L : Lore) : Prop where
  attends : w.cache.Attends []
  keeps : w.cache.Keeps fun key e => L.book key = some (.ok (some e.vector))

theorem Calm.congr (h : w.Calm L) (hcache : w'.cache = w.cache) : w'.Calm L := by
  refine ⟨?_, ?_⟩ <;> rw [hcache]
  · exact h.attends
  · exact h.keeps

/-- A calm world upholds what new lanes come to. -/
theorem Calm.upholds (h : w.Calm L) (hls : ∀ l ∈ ls, l.IsNew) : w.Upholds L ls := by
  have hfleet : ls.map Lane.flight? = List.replicate ls.length none :=
    List.map_eq_replicate_iff.2 fun l hl => (hls l hl).flight?_eq_none
  have hidle : Fleet.Idle (ls.map Lane.flight?) := fun i => by
    rw [hfleet, Fleet.flight?, List.getElem?_replicate]
    split <;> rfl
  refine ⟨fun l hl => (hls l hl).faithful, ?_, h.keeps, fun i f hi => ?_, fun i f n v hi => ?_⟩
  · rw [traffic, hfleet]
    exact Traffic.attends_replicate h.attends _
  · rw [traffic, hidle i] at hi
    cases hi
  · rw [traffic, hidle i] at hi
    cases hi

/-- A world in which nobody looks up anything is calm. -/
theorem Upholds.calm (h : w.Upholds L ls) (hls : ∀ l ∈ ls, l.flight? = none) : w.Calm L := by
  refine ⟨h.tells.attends.of_idle fun i => ?_, h.tells.keeps⟩
  rw [traffic, Fleet.flight?, List.getElem?_map]
  cases hl : ls[i]? with
  | none => rfl
  | some l => rw [Option.map_some, Option.join_some, hls l (List.mem_of_getElem? hl)]

/-- **Lanes come to their ends as they always do**, or some are cut off, in whatever order they take
turns. -/
theorem run_settled (limit : Option ℕ) (w : World env) (cursor : ℕ) (hls : ∀ l ∈ ls, l.IsNew) :
    w.Leads (w.run limit cursor ls).2 ∧
      ∀ L, (w.run limit cursor ls).2.Covered L → w.Calm L →
        (w.run limit cursor ls).2.Upholds L (w.run limit cursor ls).1 ∧
          ((w.run limit cursor ls).2.timeouts = w.timeouts →
            (w.run limit cursor ls).1.map (Lane.ending L) = ls.map (Lane.ending L)) := by
  refine run_induct (I := fun ls' w' => w.Leads w' ∧ ∀ L, w'.Covered L → w.Calm L →
    w'.Upholds L ls' ∧ (w'.timeouts = w.timeouts →
      ls'.map (Lane.ending L) = ls.map (Lane.ending L))) ?_ ?_ limit w cursor ls
    ⟨.refl w, fun L _ hw => ⟨hw.upholds hls, fun _ => rfl⟩⟩
  · rintro w₁ w₂ ls' i l l' ⟨hleads, hall⟩ hl ha
    have hacts := acts_of_act ha
    have hleads' := hacts.leads
    refine ⟨hleads.trans hleads', fun L hcovered hw => ?_⟩
    obtain ⟨hu, hsame⟩ := hall L (hleads'.covered hcovered) hw
    obtain ⟨hu', hending⟩ := hacts.settled hl hcovered hu
    refine ⟨hu', fun ht => ?_⟩
    -- Nothing has been cut off, neither before this step nor by it.
    have hle := hleads.timeouts_le
    have hle' := hleads'.timeouts_le
    have hmap : (ls'.set i l').map (Lane.ending L) = ls'.map (Lane.ending L) := by
      obtain ⟨hlt, rfl⟩ := List.getElem?_eq_some_iff.1 hl
      rw [List.map_set, hending (by omega), ← List.getElem_map (Lane.ending L) (h := by simpa),
        List.set_getElem_self]
    rw [hmap]
    exact hsame (by omega)
  · rintro w₁ ls' t ⟨hleads, hall⟩
    refine ⟨hleads.trans (.of_eq rfl rfl), fun L hcovered hw => ?_⟩
    obtain ⟨hu, hsame⟩ := hall L hcovered hw
    exact ⟨hu.congr rfl rfl, hsame⟩

/-! ### Lanes that are dropped -/

/-- Dropping a lane does not move the clock. -/
@[simp] theorem clock_abandon (w : World env) (me : ℕ) (l : Lane α) :
    (w.abandon me l).clock = w.clock := by
  cases l with
  | ready | ended | queued => rfl
  | running | calling | looking => exact clock_giveBack _ _

/-- Dropping a lane is not counted as being cut off. -/
@[simp] theorem timeouts_abandon (w : World env) (me : ℕ) (l : Lane α) :
    (w.abandon me l).timeouts = w.timeouts := by
  cases l with
  | ready | ended | queued => rfl
  | running | calling | looking => exact timeouts_giveBack _ _

/-- Dropping a lane abandons its lookup. -/
theorem cache_abandon (w : World env) (me : ℕ) (l : Lane α) :
    (w.abandon me l).cache = l.flight?.elim w.cache fun f => f.abandon me w.cache := by
  cases l with
  | ready | ended | queued => rfl
  | running | calling | looking => exact cache_giveBack _ _

/-- Dropping all lanes is not counted as being cut off. -/
@[simp] theorem timeouts_abandonAll (w : World env) (i : ℕ) (ls : List (Lane α)) :
    (w.abandonAll i ls).timeouts = w.timeouts := by
  induction ls generalizing w i with
  | nil => rfl
  | cons l ls ih => rw [abandonAll, ih, timeouts_abandon]

/-- Lanes that are dropped one after the other leave their lookups; those in front have done so. -/
theorem tells_abandonAll {b : Book} (w : World env) (i : ℕ) (ls : List (Lane α))
    (h : Traffic.Tells ⟨w.clock, w.cache, List.replicate i none ++ ls.map Lane.flight?⟩ b) :
    Traffic.Tells ⟨w.clock, (w.abandonAll i ls).cache, List.replicate (i + ls.length) none⟩ b := by
  induction ls generalizing w i with
  | nil => simpa [abandonAll] using h
  | cons l ls ih =>
      have hnext := ih (w.abandon i l) (i + 1)
      rw [clock_abandon, cache_abandon, List.replicate_succ', List.append_assoc] at hnext
      rw [abandonAll, List.length_cons, ← Nat.add_assoc, Nat.add_right_comm]
      refine hnext ?_
      rw [List.map_cons] at h
      cases hf : l.flight? with
      | none => rwa [hf] at h
      | some f =>
          rw [hf] at h
          have hi : Fleet.flight? (List.replicate i none ++ some f :: ls.map Lane.flight?) i =
              some f := by
            rw [Fleet.flight?_append, List.length_replicate, if_neg (Nat.lt_irrefl i), Nat.sub_self]
            rfl
          have hdropped := (Traffic.Step.dropped (s := ⟨w.clock, w.cache, _⟩) hi).tells h trivial
          rwa [List.set_append_right _ _ (by simp), List.length_replicate, Nat.sub_self] at hdropped

/-- When all lanes have been dropped, a world is calm. -/
theorem Upholds.calm_abandonAll (h : w.Upholds L ls) : (w.abandonAll 0 ls).Calm L := by
  have htells := w.tells_abandonAll 0 ls (b := L.book) h.tells
  refine ⟨htells.attends.of_idle fun i => ?_, htells.keeps⟩
  rw [Fleet.flight?, List.getElem?_replicate]
  split <;> rfl

/-! ### Joining lanes -/

/-- Running out of time moves the time and counts once. -/
theorem exists_runOut (w : World env) (limit : Option ℕ) :
    ∃ now, w.runOut limit = { w with now, timeouts := w.timeouts + limit.elim 0 fun _ => 1 } := by
  cases limit with
  | none => exact ⟨w.now, rfl⟩
  | some t => exact ⟨max w.now t, rfl⟩

/-- Joining lanes is what follows in time. -/
theorem join_leads (w : World env) (limit : Option ℕ) (hls : ∀ l ∈ ls, l.IsNew) :
    w.Leads (w.join limit ls).2 := by
  obtain ⟨hleads, -⟩ := run_settled limit w 0 hls
  rcases join_cases w limit ls with ⟨endings, -, hj⟩ | ⟨-, hj⟩
  · rwa [hj]
  · rw [hj]
    obtain ⟨now, hout⟩ := (w.run limit 0 ls).2.exists_runOut limit
    refine hleads.trans ⟨⟨[], by simp, List.forall_mem_nil _⟩, ?_⟩
    rw [timeouts_abandonAll, hout]
    exact Nat.le_add_right _ _

/-- **Lanes that are run to their ends, or dropped at the limit, leave a calm world.** -/
theorem join_calm (w : World env) (limit : Option ℕ) (hls : ∀ l ∈ ls, l.IsNew)
    (hcovered : (w.join limit ls).2.Covered L) (hw : w.Calm L) : (w.join limit ls).2.Calm L := by
  obtain ⟨-, hall⟩ := run_settled limit w 0 hls
  rcases join_cases w limit ls with ⟨endings, hl, hj⟩ | ⟨-, hj⟩
  · rw [hj] at hcovered ⊢
    obtain ⟨hu, -⟩ := hall L hcovered hw
    refine hu.calm fun l hmem => ?_
    rw [hl] at hmem
    obtain ⟨e, -, rfl⟩ := List.mem_map.1 hmem
    rfl
  · rw [hj] at hcovered ⊢
    obtain ⟨hu, -⟩ := hall L (fun x hx => hcovered x (by simpa using hx)) hw
    obtain ⟨now, hout⟩ := (w.run limit 0 ls).2.exists_runOut limit
    rw [hout]
    exact Upholds.calm_abandonAll (hu.congr rfl rfl)

/-- **If nothing is cut off, lanes that are run to their ends end as they always do.** -/
theorem join_settled (w : World env) (limit : Option ℕ) (hls : ∀ l ∈ ls, l.IsNew)
    (hcovered : (w.join limit ls).2.Covered L) (hw : w.Calm L)
    (ht : (w.join limit ls).2.timeouts = w.timeouts)
    (hlimit : limit = none → (w.join limit ls).1 ≠ none) :
    (w.join limit ls).1 = some (ls.map (Lane.ending L)) := by
  obtain ⟨hleads, hall⟩ := run_settled limit w 0 hls
  rcases join_cases w limit ls with ⟨endings, hl, hj⟩ | ⟨-, hj⟩
  · rw [hj] at hcovered ht ⊢
    obtain ⟨-, hsame⟩ := hall L hcovered hw
    rw [← hsame ht, hl, List.map_map]
    exact congrArg some (List.map_id endings).symm
  · rw [hj] at ht hlimit
    have hle := hleads.timeouts_le
    obtain ⟨now, hout⟩ := (w.run limit 0 ls).2.exists_runOut limit
    rw [timeouts_abandonAll, hout] at ht
    cases limit with
    | none => exact absurd rfl (hlimit rfl)
    | some t =>
        simp only [Option.elim_some] at ht
        omega

/-! ### What is done with a world -/

/-- What is done comes to a value that does not depend on the world, unless something is cut off,
and leaves a calm world calm in any case. -/
structure ComesTo {β : Type} (f : World env → β × World env) (L : Lore) (b : β) : Prop where
  leads : ∀ w : World env, w.Leads (f w).2
  calm : ∀ (w : World env) L, (f w).2.Covered L → w.Calm L → (f w).2.Calm L
  eq : ∀ w : World env, (f w).2.Covered L → w.Calm L → (f w).2.timeouts = w.timeouts → (f w).1 = b

/-- **Lanes that are run to their ends end as they always do**, if they are dropped at a limit or
always come to their ends without one. -/
theorem comesTo_join {limit : Option ℕ} (hls : ∀ l ∈ ls, l.IsNew)
    (hlimit : limit = none → ∀ w : World env, (w.join none ls).1 ≠ none) (L : Lore) :
    ComesTo (fun w : World env => w.join limit ls) L (some (ls.map (Lane.ending L))) where
  leads := fun w => w.join_leads limit hls
  calm := fun w _ => w.join_calm limit hls
  eq := fun w hcovered hw ht => w.join_settled limit hls hcovered hw ht fun hnone => by
    subst hnone
    exact hlimit rfl w

/-- **An action by itself ends as it always does.** -/
theorem comesTo_perform {limit : Option ℕ} {p : Action α}
    (hlimit : limit = none → ∀ w : World env, (w.perform none p).1 ≠ none) (L : Lore) :
    ComesTo (fun w : World env => w.perform limit p) L (some (p.run.ending L)) := by
  have hperform : ∀ (w : World env) limit, (w.perform limit p).1 =
      (w.join limit [.running false none p.run]).1.bind (·.head?) := fun _ _ => rfl
  have hnew : ∀ l ∈ [Lane.running false none p.run], l.IsNew := List.forall_mem_singleton.2 trivial
  have hcomes : limit = none →
      ∀ w : World env, (w.join none [.running false none p.run]).1 ≠ none := by
    intro hnone w hj
    refine hlimit hnone w ?_
    rw [hperform, hj, Option.bind_none]
  have hjoin : ComesTo (fun w : World env => w.join limit [.running false none p.run]) L
      (some ([.running false none p.run].map (Lane.ending L))) :=
    comesTo_join hnew hcomes L
  refine ⟨hjoin.leads, hjoin.calm, fun w hcovered hw ht => ?_⟩
  rw [hperform, hjoin.eq w hcovered hw ht]
  rfl

end World

/-! ### Lanes that come and go

Lanes may join others that are under way and may be dropped before them, while the clock goes on and
the cache is purged. None of this changes how the lanes end whose answers do not change: whatever
happens, the cache tells what lookups come to (`World.Upholds`), and a lane that is not cut off
keeps to its ending (`World.Acts.late_or_settled`).
-/

variable {L : Lore}

namespace World

variable {env : Environment} {α : Type} {w w' : World env} {ls : List (Lane α)} {l l' : Lane α}
  {i : ℕ}

namespace Upholds

/-- Lanes that have not come to a question yet join the others. -/
theorem append (h : w.Upholds L ls) {more : List (Lane α)} (hnew : ∀ l ∈ more, l.IsNew) :
    w.Upholds L (ls ++ more) := by
  induction more generalizing ls with
  | nil => rwa [List.append_nil]
  | cons l more ih =>
      have hl := hnew l List.mem_cons_self
      rw [List.append_cons]
      refine ih ⟨fun l' hl' => ?_, ?_⟩ fun l' hl' => hnew l' (List.mem_cons_of_mem l hl')
      · rcases List.mem_append.1 hl' with hl' | hl'
        · exact h.faithful l' hl'
        · rw [List.mem_singleton.1 hl']
          exact hl.faithful
      · rw [traffic, List.map_append, List.map_singleton, hl.flight?_eq_none]
        exact h.tells.offers.append_none.tells

/-- Time passes. -/
theorem waited (h : w.Upholds L ls) (now : ℕ) {clock : ℕ} (hclock : w.clock ≤ clock) :
    World.Upholds { w with now, clock } L ls :=
  ⟨h.faithful, (Traffic.Step.waited (s := w.traffic ls) hclock).tells h.tells trivial⟩

/-- The cache drops what is too old. -/
theorem purged (h : w.Upholds L ls) :
    World.Upholds { w with cache := (w.cache.purge w.clock).2 } L ls :=
  ⟨h.faithful, (Traffic.Step.purged (w.traffic ls)).tells h.tells trivial⟩

/-- A lane is dropped where it stands. -/
theorem abandon (h : w.Upholds L ls) (hl : ls[i]? = some l) (e : Ending α) :
    (w.abandon i l).Upholds L (ls.set i (.ended e)) := by
  cases l with
  | looking gated => exact h.drop hl gated e
  | ready | queued | running | calling | ended =>
      exact h.outside hl trivial rfl (clock_abandon ..) (cache_abandon ..)

end Upholds

/-- Only a lane that is cut off is counted. -/
theorem Looks.late_or_timeouts_eq {gated : Bool} {deadline : Option ℕ} {text : String}
    {next : Reply (.embedding text) → Program Reply (Except Failure α)} {flight : Flight}
    {answer : Option (ℕ × Option (Reply (.embedding text)))}
    (h : w.Looks i gated deadline text next flight answer l' w') :
    l' = .ended .late ∨ w'.timeouts = w.timeouts := by
  cases h with
  | ask | go | settle => exact .inr rfl
  | land cell hphase r h => exact .inr h.same.2.2.1
  | breakDown cell hphase h => exact .inr ((timeouts_giveBack _ _).trans h.same.2.2.1)
  | late => exact .inl rfl

/-- Only a lane that is cut off is counted as such. -/
theorem Acts.late_or_timeouts_eq (h : w.Acts i l l' w') :
    l' = .ended .late ∨ w'.timeouts = w.timeouts := by
  cases h with
  | start | enter | queue | pickUp | look | ask => exact .inr rfl
  | finish | giveUp => exact .inr (timeouts_giveBack _ _)
  | exchange | answered => exact .inr (timeouts_resume _ _ _ _ _)
  | late => exact .inl rfl
  | lookup gated deadline text next flight answer h => exact h.late_or_timeouts_eq

/-- **A lane ends as it always does unless it is itself cut off**, whatever becomes of others. -/
theorem Acts.late_or_settled (h : w.Acts i l l' w') (hl : ls[i]? = some l) (hw' : w'.Covered L)
    (hu : w.Upholds L ls) :
    w'.Upholds L (ls.set i l') ∧ (l' = .ended .late ∨ l'.ending L = l.ending L) := by
  obtain ⟨hu', hending⟩ := h.settled hl hw' hu
  exact ⟨hu', h.late_or_timeouts_eq.imp_right hending⟩

end World

end Archivist
