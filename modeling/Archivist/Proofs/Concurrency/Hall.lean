import Archivist.Proofs.Concurrency.Settled
import Archivist.Proofs.Embedding.Leaving

/-!
# Lanes at a Cache, and What They Ask

A `Hall` is a world with the lanes in it. Lanes come and go: single ones join, batches send theirs
on after their first look, and any lane may be dropped where it stands; in between the cache is
purged or emptied, and time passes. `Hall.Step` is what can happen next, with the questions that are
asked then and the lanes that ask them; `Hall.Reached` are the halls that there can be.

At the cache, each step is a step of `Traffic` or none at all (`World.Acts.traffic`,
`Hall.Step.traffic`). So whatever lookups are served with is what the provider has given for a text
of their digest, at some time (`Hall.Reached.sound`).
-/

namespace Archivist

variable {env : Environment} {α : Type}

/-- Among exchanges there is one in which the provider gives for a text a vector, or none. -/
def Provided (log : List Exchange) (text : String) (v : Option Embedding) : Prop :=
  ∃ response : Response (.embedding text), ⟨.embedding text, response⟩ ∈ log ∧
    response.outcome.map Flight.outcome = some (.ok v)

/-- The provider has given this for a text of a digest. -/
def ProvidedFor (log : List Exchange) (key : String) (v : Option Embedding) : Prop :=
  ∃ text, Digest.ofText text = key ∧ Provided log text v

theorem Provided.mono {log log' : List Exchange} {text : String} {v : Option Embedding}
    (h : Provided log text v) (hlog : log ⊆ log') : Provided log' text v := by
  obtain ⟨response, hmem, hv⟩ := h
  exact ⟨response, hlog hmem, hv⟩

theorem ProvidedFor.mono {log log' : List Exchange} {key : String} {v : Option Embedding}
    (h : ProvidedFor log key v) (hlog : log ⊆ log') : ProvidedFor log' key v := by
  obtain ⟨text, hkey, hv⟩ := h
  exact ⟨text, hkey, hv.mono hlog⟩

/-- What the provider brings for a text is an answer that it has given. -/
def Logged (log : List Exchange) : Traffic.Sign → Prop
  | .answered _ text reply _ _ => ∀ v, Flight.outcome reply = .ok v → Provided log text v
  | _ => True

/-- What the provider has given is what a lookup brings. -/
theorem Logged.brings {log : List Exchange} {sign : Traffic.Sign} (h : Logged log sign) :
    sign.Brings (ProvidedFor log) := by
  cases sign with
  | answered i text reply result company => exact fun v hv => ⟨text, rfl, h v hv⟩
  | began | batched | moved | served | dropped | purged | invalidated | waited => trivial

/-- The lookup of a lane is of its text, and the answer that it waits for is one that was given. -/
def Lane.Truthful (log : List Exchange) : Lane α → Prop
  | .looking _ _ text _ flight answer => flight.text = text ∧
      ∀ due reply, answer = some (due, reply) → ∃ response : Response (.embedding text),
        ⟨.embedding text, response⟩ ∈ log ∧ response.outcome = reply
  | .ready .. | .queued .. | .running .. | .calling .. | .ended _ => True

theorem Lane.Truthful.mono {log log' : List Exchange} {l : Lane α} (h : l.Truthful log)
    (hlog : log ⊆ log') : l.Truthful log' := by
  cases l with
  | looking gated deadline text next flight answer =>
      refine ⟨h.1, fun due reply hanswer => ?_⟩
      obtain ⟨response, hmem, ho⟩ := h.2 due reply hanswer
      exact ⟨response, hlog hmem, ho⟩
  | ready | queued | running | calling | ended => trivial

/-- A lookup that has not asked waits for no answer. -/
theorem Lane.truthful_unasked {log : List Exchange} {gated : Bool} {deadline : Option ℕ}
    {text : String} {next : Reply (.embedding text) → Program Reply (Except Failure α)}
    {flight : Flight} (h : flight.text = text) :
    (Lane.looking gated deadline text next flight none).Truthful log := by
  refine ⟨h, ?_⟩
  rintro due reply ⟨⟩

/-- A lane that is new is truthful. -/
theorem Lane.IsNew.truthful {log : List Exchange} {l : Lane α} (h : l.IsNew) : l.Truthful log := by
  cases l with
  | ready | running | ended => trivial
  | queued | calling | looking => cases h

namespace World

variable {w w' : World env} {ls : List (Lane α)} {l l' : Lane α} {i : ℕ}

/-- What lanes do at the cache is what lookups do there, or nothing; the provider brings what it has
been asked for. -/
def Shows (w : World env) (ls : List (Lane α)) (w' : World env) (ls' : List (Lane α)) : Prop :=
  w'.traffic ls' = w.traffic ls ∨
    ∃ sign, (w.traffic ls).Step sign (w'.traffic ls') ∧ Logged w'.log sign

/-- An answer that arrives has been given. -/
theorem Arrives.provided {text : String} {answer : Option (ℕ × Option (Reply (.embedding text)))}
    {reply : Reply (.embedding text)} (h : w.Arrives (.embedding text) answer (some reply) w')
    (hanswer : ∀ due reply, answer = some (due, reply) → ∃ response : Response (.embedding text),
      ⟨.embedding text, response⟩ ∈ w.log ∧ response.outcome = reply) :
    ∃ response : Response (.embedding text),
      ⟨.embedding text, response⟩ ∈ w'.log ∧ response.outcome = some reply := by
  generalize hr : some reply = r at h
  cases h with
  | atOnce hdelay =>
      exact ⟨_, List.mem_append_right _ (List.mem_singleton_self _), rfl⟩
  | due due answer hdue => exact hanswer due _ rfl

/-- A step of the lookups is a step of what is seen. -/
theorem shows_step {sign : Traffic.Sign}
    (hs : (w.traffic ls).Step sign
      { now := w'.clock, cache := w'.cache, fleet := List.set (ls.map Lane.flight?) i l'.flight? })
    (hlogged : Logged w'.log sign) : w.Shows ls w' (ls.set i l') := by
  refine .inr ⟨sign, ?_, hlogged⟩
  rw [traffic_set]
  exact hs

theorem Shows.congr {w₁ : World env} {ls' : List (Lane α)} (h : w₁.Shows ls w' ls')
    (hclock : w₁.clock = w.clock) (hcache : w₁.cache = w.cache) : w.Shows ls w' ls' := by
  have htraffic : w₁.traffic ls = w.traffic ls := by rw [traffic, traffic, hclock, hcache]
  rwa [Shows, htraffic] at h

/-- A lane that ends while it looks up an embedding drops its lookup. -/
theorem shows_drop {flight : Flight} (hl : ls[i]? = some l) (hflight : l.flight? = some flight)
    (hclock : w'.clock = w.clock) (hcache : w'.cache = flight.abandon i w.cache) (e : Ending α) :
    w.Shows ls w' (ls.set i (.ended e)) := by
  have hs := Traffic.Step.dropped ((flight?_traffic w hl).trans hflight)
  refine .inr ⟨.dropped i, ?_, trivial⟩
  rw [traffic_set, hclock, hcache]
  exact hs

/-- A step of a lookup is seen, and stays truthful. -/
theorem Looks.shows {gated : Bool} {deadline : Option ℕ} {text : String}
    {next : Reply (.embedding text) → Program Reply (Except Failure α)} {flight : Flight}
    {answer : Option (ℕ × Option (Reply (.embedding text)))}
    (h : w.Looks i gated deadline text next flight answer l' w')
    (hl : ls[i]? = some (.looking gated deadline text next flight answer))
    (ht : Lane.Truthful w.log (.looking gated deadline text next flight answer)) :
    l'.Truthful w'.log ∧ w.Shows ls w' (ls.set i l') := by
  have hi : ∀ w₁ : World env, (w₁.traffic ls).fleet.flight? i = some flight := fun w₁ =>
    flight?_traffic w₁ hl
  cases h with
  | ask cell hphase hdelay =>
      refine ⟨⟨ht.1, ?_⟩, .inl (traffic_set_eq hl rfl rfl rfl)⟩
      rintro due reply ⟨⟩
      exact ⟨_, List.mem_append_right _ (List.mem_singleton_self _), rfl⟩
  | @land cell hphase answer r w₁ harrives =>
      obtain ⟨hclock, hcache, -, -⟩ := harrives.same
      obtain ⟨response, hmem, ho⟩ := harrives.provided ht.2
      -- What lands in the cache is in the log of the collaborators.
      have hlogged : ∀ v, Flight.outcome r = .ok v → Provided w₁.log flight.text v := by
        intro v hv
        rw [ht.1]
        exact ⟨response, hmem, by rw [ho]; exact congrArg some hv⟩
      have hs := Traffic.Step.answered r (hi w₁) hphase rfl
      refine ⟨trivial, Shows.congr ?_ hclock hcache⟩
      exact shows_step hs hlogged
  | @breakDown cell hphase answer w₁ harrives =>
      obtain ⟨hclock, hcache, -, -⟩ := harrives.same
      refine ⟨trivial, shows_drop hl rfl ?_ ?_ .crashed⟩
      · rw [clock_giveBack, hclock]
      · rw [cache_giveBack, hcache]
  | go answer phase cache hstep =>
      have hs := Traffic.Step.moved (hi w) hstep
      exact ⟨⟨ht.1, ht.2⟩, shows_step hs trivial⟩
  | settle answer result cache hstep =>
      have hs := Traffic.Step.served (hi w) hstep
      exact ⟨trivial, shows_step hs trivial⟩
  | late answer hlate =>
      refine ⟨trivial, shows_drop hl rfl ?_ ?_ .late⟩
      · rw [clock_giveBack, countTimeout]
      · rw [cache_giveBack, countTimeout]

/-- To go on with an answer is truthful. -/
theorem truthful_resume (w : World env) {q : Ask} (gated : Bool) (deadline : Option ℕ)
    (next : Reply q → Program Reply (Except Failure α)) (answer : Option (Reply q))
    (log : List Exchange) : (w.resume gated deadline next answer).1.Truthful log := by
  cases answer <;> trivial

/-- To go on with an answer shows nothing. -/
theorem shows_resume (w w' : World env) (hl : ls[i]? = some l) (hflight : l.flight? = none)
    (hclock : w'.clock = w.clock) (hcache : w'.cache = w.cache) {q : Ask} (gated : Bool)
    (deadline : Option ℕ) (next : Reply q → Program Reply (Except Failure α))
    (answer : Option (Reply q)) :
    w.Shows ls (w'.resume gated deadline next answer).2
      (ls.set i (w'.resume gated deadline next answer).1) := by
  cases answer with
  | none =>
      exact .inl (traffic_set_eq hl hflight.symm ((clock_giveBack _ _).trans hclock)
        ((cache_giveBack _ _).trans hcache))
  | some r => exact .inl (traffic_set_eq hl hflight.symm hclock hcache)

/-- **What a lane does at the cache is a step of a lookup there**, or nothing. -/
theorem Acts.shows (h : w.Acts i l l' w') (hl : ls[i]? = some l) (ht : l.Truthful w.log) :
    l'.Truthful w'.log ∧ w.Shows ls w' (ls.set i l') := by
  cases h with
  | start | enter | queue | pickUp => exact ⟨trivial, .inl (traffic_set_eq hl rfl rfl rfl)⟩
  | finish | giveUp =>
      exact ⟨trivial, .inl (traffic_set_eq hl rfl (clock_giveBack _ _) (cache_giveBack _ _))⟩
  | look gated deadline text next =>
      have hi : (w.traffic ls).fleet[i]? = some none := by
        rw [traffic, List.getElem?_map, hl]
        rfl
      have hs := Traffic.Step.began text hi
      exact ⟨Lane.truthful_unasked rfl, shows_step hs trivial⟩
  | ask => exact ⟨trivial, .inl (traffic_set_eq hl rfl rfl rfl)⟩
  | exchange gated deadline q next =>
      exact ⟨truthful_resume _ _ _ _ _ _, shows_resume w (w.respond q).2 hl rfl rfl rfl _ _ _ _⟩
  | answered =>
      exact ⟨truthful_resume _ _ _ _ _ _, shows_resume w w hl rfl rfl rfl _ _ _ _⟩
  | late => exact ⟨trivial, .inl (traffic_set_eq hl rfl (clock_giveBack _ _) (cache_giveBack _ _))⟩
  | lookup gated deadline text next flight answer h => exact h.shows hl ht

end World

/-! ### Halls -/

/-- A world and the lanes in it. -/
structure Hall (env : Environment) where
  world : World env
  lanes : List (Lane (Option Embedding))

namespace Hall

variable {h h' h₁ : Hall env} {asked : List (ℕ × Exchange)} {limits : CacheLimits} {key : String}
  {e : CacheEntry}

/-- The texts that a batch has to fetch. -/
def missing (h : Hall env) (texts : List String) : List String :=
  Batch.openTexts (Batch.lookUp h.world.clock h.world.cache texts).1

/-- A batch looks up all its texts and sends a lane on for each that it has to fetch. -/
def send (h : Hall env) (texts : List String) : Hall env where
  world := { h.world with cache := (Batch.lookUp h.world.clock h.world.cache texts).2 }
  lanes := h.lanes ++ (h.missing texts).map Batch.lane

/-- What can happen next, with the questions that are asked then and the lanes that ask them. -/
inductive Step : Hall env → List (ℕ × Exchange) → Hall env → Prop where
  /-- A lane joins the others. -/
  | joined (h : Hall env) (l : Lane (Option Embedding)) (hl : l.IsNew) :
      Step h [] { h with lanes := h.lanes ++ [l] }
  | batched (h : Hall env) (texts : List String) : Step h [] (h.send texts)
  /-- A lane goes on. -/
  | acted {h : Hall env} {i : ℕ} {l l' : Lane (Option Embedding)} {w' : World env}
      (hl : h.lanes[i]? = some l) (ha : h.world.act i l = some (l', w')) :
      Step h ((w'.log.drop h.world.log.length).map (i, ·)) ⟨w', h.lanes.set i l'⟩
  /-- A lane is dropped where it stands. -/
  | dropped {h : Hall env} {i : ℕ} {l : Lane (Option Embedding)} (hl : h.lanes[i]? = some l)
      (hne : ∀ e, l ≠ .ended e) : Step h [] ⟨h.world.abandon i l, h.lanes.set i (.ended .late)⟩
  | purged (h : Hall env) :
      Step h [] { h with world.cache := (h.world.cache.purge h.world.clock).2 }
  | invalidated (h : Hall env) : Step h [] { h with world.cache := h.world.cache.invalidate }
  /-- Time passes. -/
  | passed (h : Hall env) {now clock : ℕ} (hnow : h.world.now ≤ now)
      (hclock : h.world.clock ≤ clock) : Step h [] { h with world := { h.world with now, clock } }

/-- A run of steps, with all questions that are asked, the latest last. -/
inductive Run (start : Hall env) : List (ℕ × Exchange) → Hall env → Prop where
  | refl : Run start [] start
  | step {h h' : Hall env} {before asked : List (ℕ × Exchange)} (hr : Run start before h)
      (hs : h.Step asked h') : Run start (before ++ asked) h'

/-- The halls that there can be with a cache of some limits. -/
inductive Reached (limits : CacheLimits) : Hall env → Prop where
  /-- The cache has not been used. -/
  | opened (w : World env) (hw : w.cache = .fresh limits) : Reached limits ⟨w, []⟩
  | step {h h' : Hall env} {asked : List (ℕ × Exchange)} (hr : Reached limits h)
      (hs : h.Step asked h') : Reached limits h'
  /-- When all lanes have ended, they are numbered anew. -/
  | cleared {h : Hall env} (hr : Reached limits h) (hl : ∀ l ∈ h.lanes, ∃ e, l = .ended e) :
      Reached limits ⟨h.world, []⟩

/-- Lookups are served with what the provider has given, and wait for what it gives. -/
structure Sound (h : Hall env) : Prop where
  offers : (h.world.traffic h.lanes).Offers (fun _ => True) (ProvidedFor h.world.log)
  truthful : ∀ l ∈ h.lanes, l.Truthful h.world.log

/-- The questions of a step are added to what has been asked. -/
theorem Step.log_eq (hs : h.Step asked h') : h'.world.log = h.world.log ++ asked.map (·.2) := by
  cases hs with
  | acted hl ha =>
      obtain ⟨xs, hlog, -⟩ := (World.acts_of_act ha).leads.log
      rw [List.map_map, hlog, List.drop_left]
      exact congrArg _ (List.map_id xs).symm
  | dropped =>
      rw [World.log_abandon]
      exact (List.append_nil _).symm
  | joined | batched | purged | invalidated | passed => exact (List.append_nil _).symm

/-- Nothing that has been asked is forgotten. -/
theorem Step.log_subset (hs : h.Step asked h') : h.world.log ⊆ h'.world.log := by
  rw [hs.log_eq]
  exact List.subset_append_left _ _

/-- The lanes of a batch that begins. -/
theorem flight?_lane (texts : List String) :
    (texts.map Batch.lane).map Lane.flight? =
      texts.map fun text => some { Flight.start text with phase := .missed } := by
  rw [List.map_map]
  rfl

/-- What is seen of a hall to which a batch is sent. -/
theorem traffic_send (h : Hall env) (texts : List String) :
    (h.send texts).world.traffic (h.send texts).lanes =
      { now := h.world.clock
        cache := (Batch.lookUp h.world.clock h.world.cache texts).2
        fleet := (h.world.traffic h.lanes).fleet ++
          Traffic.batchFleet (Batch.lookUp h.world.clock h.world.cache texts).1 } := by
  rw [World.traffic, send, List.map_append, flight?_lane]
  rfl

/-- **What happens at the cache is a step of lookups there**, or a place is added, or nothing. -/
theorem Step.traffic (hs : h.Step asked h') (hsound : h.Sound) :
    (∀ l ∈ h'.lanes, l.Truthful h'.world.log) ∧
      (h.world.Shows h.lanes h'.world h'.lanes ∨ h'.world.traffic h'.lanes =
        { h.world.traffic h.lanes with fleet := (h.world.traffic h.lanes).fleet ++ [none] }) := by
  have htruthful : ∀ l ∈ h.lanes, l.Truthful h'.world.log := fun l hl =>
    (hsound.truthful l hl).mono hs.log_subset
  cases hs with
  | joined l hl =>
      -- A lane that joins is a place more for lookups, which is free.
      refine ⟨List.forall_mem_append.2 ⟨htruthful, ?_⟩, .inr ?_⟩
      · exact List.forall_mem_singleton.2 hl.truthful
      · rw [World.traffic, List.map_append, List.map_singleton, hl.flight?_eq_none]
        rfl
  | batched texts =>
      refine ⟨List.forall_mem_append.2 ⟨htruthful, List.forall_mem_map.2 fun text _ => ?_⟩, .inl ?_⟩
      · exact Lane.truthful_unasked rfl
      · refine .inr ⟨.batched texts, ?_, trivial⟩
        rw [traffic_send]
        exact .batched rfl
  | acted hl ha =>
      obtain ⟨hl', hshows⟩ :=
        (World.acts_of_act ha).shows hl (hsound.truthful _ (List.mem_of_getElem? hl))
      refine ⟨fun l hmem => ?_, .inl hshows⟩
      rcases List.mem_or_eq_of_mem_set hmem with hmem | rfl
      · exact htruthful l hmem
      · exact hl'
  | @dropped i l hl hne =>
      refine ⟨fun l hmem => ?_, .inl ?_⟩
      · rcases List.mem_or_eq_of_mem_set hmem with hmem | rfl
        · exact htruthful l hmem
        · trivial
      · -- A lane that was not looking anything up leaves the traffic as it is.
        cases hf : l.flight? with
        | none =>
            refine .inl (World.traffic_set_eq hl hf.symm (World.clock_abandon _ _ _) ?_)
            rw [World.cache_abandon, hf, Option.elim_none]
        | some f =>
            refine World.shows_drop hl hf (World.clock_abandon _ _ _) ?_ .late
            rw [World.cache_abandon, hf, Option.elim_some]
  | purged => exact ⟨htruthful, .inl (.inr ⟨_, .purged _, trivial⟩)⟩
  | invalidated => exact ⟨htruthful, .inl (.inr ⟨_, .invalidated _, trivial⟩)⟩
  | passed hnow hclock =>
      exact ⟨htruthful, .inl (.inr ⟨_, .waited (s := h.world.traffic h.lanes) hclock, trivial⟩)⟩

/-- No step changes the limits of the cache. -/
theorem Step.limits_eq (hs : h.Step asked h') (hsound : h.Sound) :
    h'.world.cache.limits = h.world.cache.limits := by
  obtain ⟨-, (heq | ⟨sign, hstep, -⟩) | heq⟩ := hs.traffic hsound
  · exact congrArg (·.cache.limits) heq
  · exact hstep.limits_eq
  · exact congrArg (·.cache.limits) heq

/-- Whatever happens, lookups may be served with what is as it should be, if the provider brings
nothing else. -/
theorem Step.offers {J : ℕ → Prop} {P : String → Option Embedding → Prop} (hs : h.Step asked h')
    (hsound : h.Sound) (hoffers : (h.world.traffic h.lanes).Offers J P)
    (hP : ∀ sign, (h.world.traffic h.lanes).Step sign (h'.world.traffic h'.lanes) →
      Logged h'.world.log sign → sign.Brings P) : (h'.world.traffic h'.lanes).Offers J P := by
  obtain ⟨-, (heq | ⟨sign, hstep, hlogged⟩) | heq⟩ := hs.traffic hsound
  · rwa [heq]
  · exact hstep.offers hoffers (hP sign hstep hlogged)
  · rw [heq]
    exact hoffers.append_none

/-- **Whatever happens, lookups are served with what the provider has given.** -/
theorem Step.sound (hs : h.Step asked h') (hsound : h.Sound) : h'.Sound :=
  ⟨hs.offers hsound (hsound.offers.mono fun _ _ hp => hp.mono hs.log_subset)
    fun _ _ => Logged.brings, (hs.traffic hsound).1⟩

/-- Every hall that can be reached is sound. -/
theorem Reached.sound (hr : Reached limits h) : h.Sound := by
  induction hr with
  | opened w hw =>
      refine ⟨.of_idle ?_ ?_ fun _ => rfl, List.forall_mem_nil _⟩
      · rw [World.traffic, hw]
        exact Cache.attends_fresh limits
      · rw [World.traffic, hw]
        exact .fresh limits _
  | step _ hs ih => exact hs.sound ih
  | @cleared h _ hl ih =>
      have hidle : (h.world.traffic h.lanes).fleet.Idle := fun i => by
        rw [World.traffic, Fleet.flight?, List.getElem?_map]
        cases hi : h.lanes[i]? with
        | none => rfl
        | some l =>
            obtain ⟨e, rfl⟩ := hl l (List.mem_of_getElem? hi)
            rfl
      exact ⟨.of_idle (ih.offers.attends.of_idle hidle) ih.offers.keeps fun _ => rfl,
        List.forall_mem_nil _⟩

/-- From a hall that can be reached a run leads to one. -/
theorem Reached.run (hr : Reached limits h₁) (hrun : h₁.Run asked h) : Reached limits h := by
  induction hrun with
  | refl => exact hr
  | step _ hs ih => exact ih.step hs

/-- A run keeps a hall sound. -/
theorem Run.sound {before : List (ℕ × Exchange)} (hr : h₁.Run before h) (hsound : h₁.Sound) :
    h.Sound := by
  induction hr with
  | refl => exact hsound
  | step _ hs ih => exact hs.sound ih

/-- What is asked in a run is what the log has more in the end. -/
theorem Run.log_eq (hr : h₁.Run asked h) : h.world.log = h₁.world.log ++ asked.map (·.2) := by
  induction hr with
  | refl => exact (List.append_nil _).symm
  | step _ hs ih => rw [hs.log_eq, ih, List.map_append, List.append_assoc]

/-- Nothing that has been asked is forgotten in a run. -/
theorem Run.log_subset (hr : h₁.Run asked h) : h₁.world.log ⊆ h.world.log := by
  rw [hr.log_eq]
  exact List.subset_append_left _ _

/-- No step takes lanes away. -/
theorem Step.length_le (hs : h.Step asked h') : h.lanes.length ≤ h'.lanes.length := by
  cases hs with
  | joined | batched => exact (List.sublist_append_left _ _).length_le
  | acted | dropped => exact Nat.le_of_eq List.length_set.symm
  | purged | invalidated | passed => exact Nat.le_refl _

/-- Only lanes ask. -/
theorem Run.lt_length (hr : h₁.Run asked h) : ∀ p ∈ asked, p.1 < h.lanes.length := by
  induction hr with
  | refl => exact List.forall_mem_nil _
  | step _ hs ih =>
      refine List.forall_mem_append.2 ⟨fun p hp => Nat.lt_of_lt_of_le (ih p hp) hs.length_le, ?_⟩
      cases hs with
      | acted hl =>
          refine List.forall_mem_map.2 fun x _ => ?_
          rw [List.length_set]
          exact (List.getElem?_eq_some_iff.1 hl).1
      | joined | batched | dropped | purged | invalidated | passed => exact List.forall_mem_nil _

/-- **An entry stays unless there is a reason for it to go.** -/
theorem Step.stays (hs : h.Step asked h') (hsound : h.Sound)
    (he : (key, e) ∈ h.world.cache.entries) : (key, e) ∈ h'.world.cache.entries ∨
      h.world.cache.Loses h.world.clock key e h'.world.cache := by
  obtain ⟨-, (heq | ⟨sign, hstep, -⟩) | heq⟩ := hs.traffic hsound
  · have hcache : h'.world.cache = h.world.cache := congrArg Traffic.cache heq
    exact .inl (hcache ▸ he)
  · exact hstep.stays hsound.offers.keeps he
  · have hcache : h'.world.cache = h.world.cache := congrArg Traffic.cache heq
    exact .inl (hcache ▸ he)

end Hall

end Archivist
