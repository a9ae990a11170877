import Archivist.Proofs.Concurrency.Patience
import Archivist.Proofs.Embedding.Batch

/-!
# A Batch by Itself

The lanes of a batch that nobody else meets are served with nothing, so each of them asks for its
text. What they get is put in front of the entries of the cache: in the end it holds what has been
fetched, the latest first, and behind it what the first look has left, as far as there is room
(`Batch.Leaves`). `Hall.Fetches` says how far a batch has come, and every step keeps it.

## Main results

* `Hall.exists_fetches`: a batch by itself comes to its end, and none of its lookups is cut off.
* `Hall.Fetches.settles`: it settles, and nothing has been asked that it has not asked.
* `Hall.Reached.batch`: after it there is a hall that there can be.
-/

namespace Archivist

namespace Flight

variable {now me n : ℕ} {f : Flight} {c : Cache}

/-- A lookup of a key without an entry leaves the entries as they are until it has an answer. -/
theorem Moves.entries_eq {m : Move} (hm : f.Moves now me c m)
    (hkey : f.key ∉ c.entries.map (·.1)) : m.After fun c' => c'.entries = c.entries := by
  have hnone : ∀ {c₁ c₂ : Cache} {o}, c₁.lookUp now f.key = (o, c₂) → c₁.entries = c.entries →
      o = none ∧ c₂.entries = c.entries := by
    intro c₁ c₂ o hl hentries
    rw [← hentries] at hkey ⊢
    cases o with
    | none => exact ⟨rfl, (Cache.entries_of_lookUp_none hl).trans (Cache.others_eq_self hkey)⟩
    | some v =>
        obtain ⟨e, he, -⟩ := Cache.exists_of_lookUp_some hl
        exact absurd (List.mem_map_of_mem he) hkey
  have hboards : ∀ {n provider m}, f.Boards now n { c with provider } m →
      m.After fun c' => c'.entries = c.entries := by
    intro n provider m hb
    cases hb with
    | hit v c₁ hl => cases (hnone hl rfl).1
    | ask c₁ hl => exact (hnone hl rfl).2
  cases hm with
  | blank | share | turn | queue => rfl
  | hit _ _ v c₁ hl => cases (hnone hl rfl).1
  | miss _ _ c₁ hl => exact (hnone hl rfl).2
  | find _ n c₁ ho | enter _ n c₁ ho | join _ n c₁ ho =>
      obtain ⟨pending, cells, rfl⟩ := Cache.exists_of_openCell ho
      rfl
  | board _ _ _ _ hb | permit _ _ _ _ hb => exact hboards hb

/-- What the provider gives for a key without an entry is put in front of all entries. -/
theorem entries_land_of_new {c' : Cache} {reply : Landing} {v : Embedding}
    (h : c' = (f.land now n reply c).2) (hle : c.entries.length ≤ c.room)
    (hkey : f.key ∉ c.entries.map (·.1)) (hv : outcome reply = .ok (some v)) :
    c'.entries =
      ((f.key, { textHash := f.key, vector := v, createdAt := now }) :: c.entries).take c.room := by
  have hl : f.land now n reply c = (outcome reply, c') := Prod.ext rfl h.symm
  have hentries := Cache.entries_land hl
  simp only [hv] at hentries
  rw [hentries, Cache.entries_remember hle, Cache.others_eq_self hkey]

end Flight

/-- A lookup that is answered has done. -/
theorem Traffic.Step.of_answered {s s' : Traffic} {i : ℕ} {text : String} {reply result : Landing}
    {company : Bool} (h : s.Step (.answered i text reply result company) s') :
    (∃ f, s.fleet.flight? i = some f ∧ f.text = text) ∧ s'.fleet.flight? i = none := by
  cases h with
  | answered reply hi =>
      refine ⟨⟨_, hi, rfl⟩, ?_⟩
      rw [Fleet.flight?_set (Fleet.getElem?_of_flight? hi), if_pos rfl]

namespace World

variable {env : Environment} {α : Type} {w w' : World env} {ls : List (Lane α)} {l l' : Lane α}
  {i : ℕ}

/-- A lookup that is seen is that of a lane. -/
theorem exists_of_flight? {f : Flight} (h : (w.traffic ls).fleet.flight? i = some f) :
    ∃ l, ls[i]? = some l ∧ l.flight? = some f := by
  have hfleet := Fleet.getElem?_of_flight? h
  rw [traffic, List.getElem?_map] at hfleet
  exact Option.map_eq_some_iff.1 hfleet

/-- A step does not move the clock. -/
theorem Acts.clock_eq (h : w.Acts i l l' w') : w'.clock = w.clock := by
  cases h with
  | start | enter | queue | pickUp | look | ask => rfl
  | finish | giveUp | late => exact clock_giveBack _ _
  | exchange | answered => exact clock_resume _ _ _ _ _
  | lookup gated deadline text next flight answer h =>
      cases h with
      | ask | go | settle => rfl
      | land cell hphase r harrives => exact harrives.same.1
      | breakDown cell hphase harrives => exact (clock_giveBack _ _).trans harrives.same.1
      | late => exact clock_giveBack _ _

/-- In a step a lane gets an embedding from the provider. -/
inductive Gets (w : World env) (flight : Flight) (v : Embedding) :
    Lane α → Lane α → World env → Prop where
  | landed {gated : Bool} {deadline : Option ℕ} {text : String}
      {next : Reply (.embedding text) → Program Reply (Except Failure α)}
      {answer : Option (ℕ × Option (Reply (.embedding text)))} {w' : World env} (cell : ℕ)
      (reply : Landing) (hv : Flight.outcome reply = .ok (some v))
      (hcache : w'.cache = (flight.land w.clock cell reply w.cache).2) :
      Gets w flight v (.looking gated deadline text next flight answer)
        (.running gated deadline (next (.ok (some v)))) w'

/-- In a step a lane that looks up a key without an entry gets an embedding from the provider, or
the entries stay as they are. -/
theorem Acts.entries (h : w.Acts i l l' w')
    (hkey : ∀ f, l.flight? = some f → f.key ∉ w.cache.entries.map (·.1)) :
    w'.cache.entries = w.cache.entries ∨ ∃ flight v, w.Gets flight v l l' w' := by
  cases h with
  | start | enter | queue | pickUp | look | ask => exact .inl rfl
  | finish | giveUp | late => exact .inl (congrArg _ (cache_giveBack _ _))
  | exchange | answered => exact .inl (congrArg _ (cache_resume _ _ _ _ _))
  | lookup gated deadline text next flight answer h =>
      cases h with
      | ask => exact .inl rfl
      | land cell hphase r harrives =>
          obtain ⟨hclock, hcache, -, -⟩ := harrives.same
          rw [hclock, hcache]
          rcases hv : Flight.outcome r with e | _ | v
          · exact .inl ((Cache.entries_land rfl).trans (by rw [hv]))
          · exact .inl ((Cache.entries_land rfl).trans (by rw [hv]))
          · have hresult : (flight.land w.clock cell r w.cache).1 = .ok (some v) := hv
            rw [hresult]
            exact .inr ⟨flight, v, .landed cell r hv rfl⟩
      | breakDown cell hphase harrives =>
          obtain ⟨-, hcache, -, -⟩ := harrives.same
          rw [cache_giveBack, hcache]
          exact .inl (Flight.entries_abandon _ _ _)
      | go answer phase cache hstep | settle answer phase cache hstep =>
          exact .inl ((Flight.moves_of_step hstep nofun).entries_eq (hkey flight rfl))
      | late =>
          rw [cache_giveBack]
          exact .inl (Flight.entries_abandon _ _ _)

end World

namespace Batch

/-- The entry that is made for a text now. -/
def entryOf (now : ℕ) (text : String) (v : Embedding) : String × CacheEntry :=
  (Digest.ofText text, { textHash := Digest.ofText text, vector := v, createdAt := now })

/-- What a batch by itself leaves of a cache, when it has asked this: what it has fetched, the
latest first, and behind it what its first look has left, as far as there is room. -/
structure Leaves (now : ℕ) (c : Cache) (texts : List String) (asked : List Exchange)
    (fetched : List (String × CacheEntry)) (c' : Cache) : Prop where
  entries_eq : c'.entries = (fetched ++ (lookUp now c texts).2.entries).take c.room
  nodup : (fetched.map (·.1)).Nodup
  given : ∀ p ∈ fetched, ∃ text ∈ texts, IsMissing now c text ∧
    ∃ v, p = entryOf now text v ∧ Provided asked text (some v)

end Batch

namespace Hall

variable {env : Environment} {start h h' : Hall env} {texts : List String} {text : String}
  {asked new : List (ℕ × Exchange)} {fetched fetched' : List (String × CacheEntry)} {n i : ℕ}
  {l l' : Lane (Option Embedding)} {w' : World env} {f : Flight}

/-- What a lookup of a text has come to has been fetched, if it is a vector. -/
def Gains (start : Hall env) (text : String) (fetched : List (String × CacheEntry))
    (result : Landing) : Prop :=
  ∀ v, result = .ok (some v) → Batch.entryOf start.world.clock text v ∈ fetched

/-- There is no lookup in a lane. -/
def Rests (h : Hall env) (i : ℕ) : Prop := (h.world.traffic h.lanes).fleet.flight? i = none

/-- What a batch by itself has asked and fetched so far. -/
structure Fetches (start : Hall env) (texts : List String) (asked : List (ℕ × Exchange))
    (fetched : List (String × CacheEntry)) (h : Hall env) : Prop where
  run : (start.send texts).Run asked h
  length_eq : h.lanes.length = (start.missing texts).length
  clock_eq : h.world.clock = start.world.clock
  room_eq : h.world.cache.room = start.world.cache.room
  leaves : Batch.Leaves start.world.clock start.world.cache texts (asked.map (·.2)) fetched
    h.world.cache
  /-- A lane is served with nothing, so it asks. -/
  seeks : ∀ n text, (start.missing texts)[n]? = some text →
    Seeks (fun _ => False) (start.Gains text fetched) text n asked h
  /-- There is nothing that a lane could be served with as long as it looks up its text. -/
  fresh : ∀ n text, (start.missing texts)[n]? = some text →
    (h.world.traffic h.lanes).Offers (· = n) fun key _ => key = Digest.ofText text → h.Rests n
  /-- What is being looked up has not been fetched. -/
  apart : ∀ l ∈ h.lanes, ∀ f, l.flight? = some f → f.key ∉ fetched.map (·.1)

namespace Fetches

/-- A hall stays sound while a batch fetches. -/
theorem sound (hf : start.Fetches texts asked fetched h) (hsound : start.Sound) : h.Sound :=
  hf.run.sound ((Step.batched start texts).sound hsound)

/-- Each lane of the batch looks up the text of its place. -/
theorem exists_text (hf : start.Fetches texts asked fetched h) (hl : h.lanes[i]? = some l) :
    ∃ text, (start.missing texts)[i]? = some text := by
  have hlt := (List.getElem?_eq_some_iff.1 hl).1
  exact ⟨_, List.getElem?_eq_getElem (hf.length_eq ▸ hlt)⟩

/-- What is being looked up has no entry. -/
theorem key_notMem (hf : start.Fetches texts asked fetched h) (hsound : start.Sound)
    (hl : h.lanes[i]? = some l) (hflight : l.flight? = some f) :
    f.key ∉ h.world.cache.entries.map (·.1) := by
  obtain ⟨text, hn⟩ := hf.exists_text hl
  intro hmem
  obtain ⟨⟨key, e⟩, he, rfl⟩ := List.mem_map.1 hmem
  have hkey := ((hf.seeks i text hn).key_eq (hf.sound hsound) hl hflight).2
  have hrests := (hf.fresh i text hn).keeps.entry _ e he hkey
  rw [Rests, World.flight?_traffic _ hl, hflight] at hrests
  cases hrests

/-- What a lane gets from the provider is in front, where there was nothing of its key. -/
theorem head?_of_lands (hf : start.Fetches texts asked fetched h) (hsound : start.Sound)
    {reply : Landing} {v : Embedding} (hland : h.Lands i f reply h')
    (hv : Flight.outcome reply = .ok (some v)) :
    h'.world.cache.entries.head? = some (Batch.entryOf start.world.clock f.text v) ∧
      Batch.entryOf start.world.clock f.text v ∉ h.world.cache.entries := by
  have hhead := hland.head? (hf.sound hsound) hv
  rw [hf.clock_eq] at hhead
  refine ⟨hhead, fun hmem => ?_⟩
  cases hland with
  | landed cell hl ha hflight =>
      obtain ⟨text, hn⟩ := hf.exists_text hl
      obtain ⟨htext, hkey⟩ := (hf.seeks i text hn).key_eq (hf.sound hsound) hl hflight
      refine hf.key_notMem hsound hl hflight (List.mem_map.2 ⟨_, hmem, ?_⟩)
      rw [Batch.entryOf, htext, hkey]

/-- The cache has the same room all along. -/
theorem room_eq_of_step (hf : start.Fetches texts asked fetched h) (hsound : start.Sound)
    (hs : h.Step new h') : h'.world.cache.room = start.world.cache.room :=
  (congrArg (max ·.capacity 1) (hs.limits_eq (hf.sound hsound))).trans hf.room_eq

/-- The lanes go on looking up their texts, and what they have got has been fetched. -/
theorem seeks_of_step (hf : start.Fetches texts asked fetched h) (hsound : start.Sound)
    (hs : h.Step new h') (hsub : fetched ⊆ fetched')
    (hlands : ∀ j f reply v, h.Lands j f reply h' → Flight.outcome reply = .ok (some v) →
      Batch.entryOf start.world.clock f.text v ∈ fetched')
    (hn : (start.missing texts)[n]? = some text) :
    Seeks (fun _ => False) (start.Gains text fetched') text n (asked ++ new) h' := by
  have hblank := (isMissing_of_missing hn).2.1
  have hbefore := (hf.seeks n text hn).mono (fun _ => id) fun _ hmem v hv => hsub (hmem v hv)
  refine hs.seeks (hf.sound hsound) hblank hbefore (hf.fresh n text hn)
    (fun l hl hflight _ hrests => hflight ?_) ?_
  · exact (World.flight?_traffic _ hl).symm.trans (hrests rfl)
  · rintro f reply rfl hland v hv
    exact hlands n f reply v hland hv

/-- A lane that looks up its text after a step has done so before. -/
theorem exists_flight (hf : start.Fetches texts asked fetched h) (hl : h.lanes[i]? = some l)
    (ha : h.world.act i l = some (l', w')) (hflight : l'.flight? = some f) :
    ∃ g, l.flight? = some g := by
  obtain ⟨text, hn⟩ := hf.exists_text hl
  obtain ⟨l₀, hl₀, hseeks⟩ := hf.seeks i text hn
  obtain rfl := Option.some.inj (hl.symm.trans hl₀)
  refine Option.ne_none_iff_exists'.1 fun hnone => ?_
  rw [(World.acts_of_act ha).flight?_eq_none hseeks hnone] at hflight
  cases hflight

/-- What the provider brings is for a lane that has done with its lookup then. -/
theorem fresh_of_step (hf : start.Fetches texts asked fetched h) (hsound : start.Sound)
    (hl : h.lanes[i]? = some l) (ha : h.world.act i l = some (l', w'))
    (hn : (start.missing texts)[n]? = some text) :
    (w'.traffic (h.lanes.set i l')).Offers (· = n) fun key _ =>
      key = Digest.ofText text → Rests ⟨w', h.lanes.set i l'⟩ n := by
  have hs : h.Step _ ⟨w', h.lanes.set i l'⟩ := .acted hl ha
  have hsound' := hf.sound hsound
  refine hs.offers hsound' ((hf.fresh n text hn).mono fun key _ hrests hkey => ?_) ?_
  · have hrests := hrests hkey
    have hset : (h.lanes.map Lane.flight?)[i]? = some l.flight? := by
      rw [List.getElem?_map, hl, Option.map_some]
    rw [Rests, World.traffic_set, Fleet.flight?_set hset]
    split
    · rename_i heq
      subst heq
      obtain ⟨l₀, hl₀, hseeks⟩ := hf.seeks n text hn
      obtain rfl := Option.some.inj (hl.symm.trans hl₀)
      rw [Rests, World.flight?_traffic _ hl] at hrests
      exact (World.acts_of_act ha).flight?_eq_none hseeks hrests
    · exact hrests
  · intro sign hstep _
    cases sign with
    | answered j t reply result company =>
        obtain ⟨⟨g, hg, rfl⟩, hnone⟩ := hstep.of_answered
        intro _ _ hkey
        obtain ⟨k, hk, hflight⟩ := World.exists_of_flight? hg
        obtain ⟨u, hm⟩ := hf.exists_text hk
        rw [((hf.seeks j u hm).key_eq hsound' hk hflight).1] at hkey
        obtain rfl := eq_of_digest_eq hm hn hkey
        exact hnone
    | began | batched | moved | served | dropped | purged | invalidated | waited => trivial

/-- What was given once was given. -/
theorem given_append (hf : start.Fetches texts asked fetched h) (new : List (ℕ × Exchange)) :
    ∀ p ∈ fetched, ∃ text ∈ texts, Batch.IsMissing start.world.clock start.world.cache text ∧
      ∃ v, p = Batch.entryOf start.world.clock text v ∧
        Provided ((asked ++ new).map (·.2)) text (some v) := by
  intro p hp
  obtain ⟨text, htext, hmissing, v, hentry, hv⟩ := hf.leaves.given p hp
  refine ⟨text, htext, hmissing, v, hentry, hv.mono ?_⟩
  rw [List.map_append]
  exact List.subset_append_left _ _

/-- A step of a lane that leaves the entries as they are. -/
theorem stays (hf : start.Fetches texts asked fetched h) (hsound : start.Sound)
    (hl : h.lanes[i]? = some l) (ha : h.world.act i l = some (l', w'))
    (hsame : w'.cache.entries = h.world.cache.entries) :
    start.Fetches texts (asked ++ (w'.log.drop h.world.log.length).map (i, ·)) fetched
      ⟨w', h.lanes.set i l'⟩ := by
  have hs : h.Step _ ⟨w', h.lanes.set i l'⟩ := .acted hl ha
  have hsound' := hf.sound hsound
  have hseeks : ∀ {n text}, (start.missing texts)[n]? = some text → Seeks _ _ text n _ _ :=
    hf.seeks_of_step hsound hs (List.Subset.refl _) fun j f reply v hland hv => by
      obtain ⟨hhead, hnot⟩ := hf.head?_of_lands hsound hland hv
      exact absurd (hsame ▸ List.mem_of_head? hhead) hnot
  refine ⟨hf.run.step hs, by rw [List.length_set, hf.length_eq],
    (World.acts_of_act ha).clock_eq.trans hf.clock_eq, hf.room_eq_of_step hsound hs,
    ⟨hsame.trans hf.leaves.entries_eq, hf.leaves.nodup, hf.given_append _⟩, fun n text => hseeks,
    fun n text => hf.fresh_of_step hsound hl ha, fun l₁ hmem f hf₁ => ?_⟩
  rcases List.mem_or_eq_of_mem_set hmem with hmem | rfl
  · exact hf.apart l₁ hmem f hf₁
  · -- It is the text of the lane that is looked up, as it was before.
    obtain ⟨text, hn⟩ := hf.exists_text hl
    obtain ⟨g, hg⟩ := hf.exists_flight hl ha hf₁
    have hset := List.getElem?_set_self (a := l₁) (List.getElem?_eq_some_iff.1 hl).1
    rw [((hseeks hn).key_eq (hs.sound hsound') hset hf₁).2,
      ← ((hf.seeks i text hn).key_eq hsound' hl hg).2]
    exact hf.apart l (List.mem_of_getElem? hl) g hg

section Gets

variable {flight : Flight} {v : Embedding} (hf : start.Fetches texts asked fetched h)
  (hl : h.lanes[i]? = some l) (hgets : h.world.Gets flight v l l' w')

include hf hl hgets

/-- What a lane gets from the provider is put in front of what has been fetched so far. -/
theorem entries_of_gets (hsound : start.Sound) : w'.cache.entries =
    (Batch.entryOf start.world.clock flight.text v :: (fetched ++
      (Batch.lookUp start.world.clock start.world.cache texts).2.entries)).take
        start.world.cache.room := by
  obtain ⟨text, hn⟩ := hf.exists_text hl
  cases hgets with
  | landed cell reply hv hcache =>
      obtain ⟨rfl, hkey⟩ := (hf.seeks i text hn).key_eq (hf.sound hsound) hl rfl
      have hentries := Flight.entries_land_of_new hcache
        (hf.sound hsound).offers.keeps.length_le (hf.key_notMem hsound hl rfl) hv
      rw [hkey, hf.room_eq, hf.leaves.entries_eq, hf.clock_eq] at hentries
      obtain ⟨room, hroom⟩ : ∃ room, start.world.cache.room = room + 1 :=
        Nat.exists_eq_add_one.2 (Nat.le_max_right _ _)
      rw [hentries, hroom, List.take_succ_cons, List.take_take, List.take_succ_cons,
        Nat.min_eq_left (Nat.le_succ _)]
      rfl

/-- The lane has got the answer to its own question. -/
theorem provided_of_gets {asked' : List (ℕ × Exchange)} {landed : Landing → Prop}
    (hn : (start.missing texts)[i]? = some text)
    (hafter : Seeks (fun _ => False) landed text i asked' ⟨w', h.lanes.set i l'⟩) :
    Provided (asked'.map (·.2)) text (some v) := by
  obtain ⟨l₀, hl₀, hbefore⟩ := hf.seeks i text hn
  obtain rfl := Option.some.inj (hl.symm.trans hl₀)
  have hlt := (List.getElem?_eq_some_iff.1 hl).1
  obtain ⟨l₁, hl₁, hafter⟩ := hafter
  obtain rfl := Option.some.inj ((List.getElem?_set_self hlt).symm.trans hl₁)
  cases hgets with
  | landed cell reply hv hcache =>
      have hcomes := hbefore.comes_of_next hafter
      refine (hcomes.provided_or_served.resolve_right id).mono fun x hx => ?_
      exact List.mem_map_of_mem (mem_askedBy.1 hx)

/-- The other lanes look up other texts. -/
theorem apart_of_gets (hsound : start.Sound) : ∀ l₁ ∈ h.lanes.set i l', ∀ f, l₁.flight? = some f →
    f.key ∉ (Batch.entryOf start.world.clock flight.text v :: fetched).map (·.1) := by
  have hsound' := hf.sound hsound
  intro l₁ hmem f hflight
  obtain ⟨j, hj⟩ := List.mem_iff_getElem?.1 hmem
  cases hgets with
  | landed cell reply hv hcache =>
      by_cases hij : i = j
      · subst hij
        rw [List.getElem?_set_self (List.getElem?_eq_some_iff.1 hl).1] at hj
        rw [← Option.some.inj hj] at hflight
        cases hflight
      · rw [List.getElem?_set_ne hij] at hj
        obtain ⟨text, hn⟩ := hf.exists_text hl
        obtain ⟨text', hm⟩ := hf.exists_text hj
        rw [List.map_cons, List.mem_cons, not_or]
        refine ⟨fun heq => hij ?_, hf.apart l₁ (List.mem_of_getElem? hj) f hflight⟩
        rw [((hf.seeks j text' hm).key_eq hsound' hj hflight).2, Batch.entryOf,
          ((hf.seeks i text hn).key_eq hsound' hl rfl).1] at heq
        exact eq_of_digest_eq hn hm heq.symm

/-- A step in which a lane gets an embedding from the provider. -/
theorem gains (hsound : start.Sound) (ha : h.world.act i l = some (l', w')) :
    start.Fetches texts (asked ++ (w'.log.drop h.world.log.length).map (i, ·))
      (Batch.entryOf start.world.clock flight.text v :: fetched) ⟨w', h.lanes.set i l'⟩ := by
  have hs : h.Step _ ⟨w', h.lanes.set i l'⟩ := .acted hl ha
  obtain ⟨text, hn⟩ := hf.exists_text hl
  have htext : text = flight.text := by
    cases hgets with
    | landed => exact ((hf.seeks i text hn).key_eq (hf.sound hsound) hl rfl).1.symm
  subst htext
  have hentries := hf.entries_of_gets hl hgets hsound
  have hapart : (Digest.ofText flight.text) ∉ fetched.map (·.1) := by
    cases hgets with
    | landed =>
        rw [← ((hf.seeks i _ hn).key_eq (hf.sound hsound) hl rfl).2]
        exact hf.apart _ (List.mem_of_getElem? hl) flight rfl
  have hsub : fetched ⊆ Batch.entryOf start.world.clock flight.text v :: fetched :=
    List.subset_cons_self _ _
  have hseeks : ∀ {n text}, (start.missing texts)[n]? = some text → Seeks _ _ text n _ _ :=
    hf.seeks_of_step hsound hs hsub fun j f reply v hland hv => by
      obtain ⟨hhead, -⟩ := hf.head?_of_lands hsound hland hv
      obtain ⟨room, hroom⟩ : ∃ room, start.world.cache.room = room + 1 :=
        Nat.exists_eq_add_one.2 (Nat.le_max_right _ _)
      rw [hentries, hroom, List.take_succ_cons, List.head?_cons] at hhead
      exact Option.some.inj hhead ▸ List.mem_cons_self
  obtain ⟨hmem, hmissing⟩ := isMissing_of_missing hn
  have hgiven := hf.provided_of_gets hl hgets hn (hseeks hn)
  exact ⟨hf.run.step hs, by rw [List.length_set, hf.length_eq],
    (World.acts_of_act ha).clock_eq.trans hf.clock_eq, hf.room_eq_of_step hsound hs,
    ⟨hentries, List.nodup_cons.2 ⟨hapart, hf.leaves.nodup⟩,
      List.forall_mem_cons.2 ⟨⟨_, hmem, hmissing, v, rfl, hgiven⟩, hf.given_append _⟩⟩,
    fun n text => hseeks, fun n text => hf.fresh_of_step hsound hl ha,
    hf.apart_of_gets hl hgets hsound⟩

end Gets

/-- A lane goes on: it fetches an embedding, or the entries stay as they are. -/
theorem acted (hf : start.Fetches texts asked fetched h) (hsound : start.Sound)
    (hl : h.lanes[i]? = some l) (ha : h.world.act i l = some (l', w')) :
    ∃ asked' fetched', start.Fetches texts asked' fetched' ⟨w', h.lanes.set i l'⟩ := by
  rcases (World.acts_of_act ha).entries fun f hflight => hf.key_notMem hsound hl hflight with
    hsame | ⟨flight, v, hgets⟩
  · exact ⟨_, _, hf.stays hsound hl ha hsame⟩
  · exact ⟨_, _, hf.gains hl hgets hsound ha⟩

/-- Time passes. -/
theorem waited (hf : start.Fetches texts asked fetched h) (t : ℕ) :
    start.Fetches texts asked fetched
      { h with world := { h.world with now := max h.world.now t } } := by
  have hs : h.Step [] { h with world := { h.world with now := max h.world.now t } } :=
    .passed h (Nat.le_max_left _ _) (Nat.le_refl _)
  have hrun := hf.run.step hs
  rw [List.append_nil] at hrun
  exact ⟨hrun, hf.length_eq, hf.clock_eq, hf.room_eq, hf.leaves, hf.seeks, hf.fresh, hf.apart⟩

/-- After its first look a batch has fetched nothing. -/
theorem begun (hsound : start.Sound) (hlanes : start.lanes = []) (texts : List String) :
    start.Fetches texts [] [] (start.send texts) := by
  have hkeeps := ((Step.batched start texts).sound hsound).offers.keeps
  have hlimits := (Step.batched start texts).limits_eq hsound
  have hroom : (start.send texts).world.cache.room = start.world.cache.room :=
    congrArg (max ·.capacity 1) hlimits
  refine ⟨.refl, ?_, rfl, hroom, ⟨?_, List.nodup_nil, List.forall_mem_nil _⟩, fun n text hn => ?_,
    fun n text hn => ?_, fun _ _ _ _ => List.not_mem_nil⟩
  · rw [send, hlanes, List.nil_append, List.length_map]
  · rw [List.nil_append, ← hroom]
    exact (List.take_of_length_le hkeeps.length_le).symm
  · have hseeks : Seeks (fun _ => False) (start.Gains text []) text (start.lanes.length + n) []
      (start.send texts) := seeks_send hn
    rwa [hlanes, List.length_nil, Nat.zero_add] at hseeks
  · have hoffers := offers_send (P := fun _ => (start.send texts).Rests n) hsound hn
    rwa [hlanes, List.length_nil, Nat.zero_add] at hoffers

end Fetches

/-- The lanes of a batch by itself have ended with what they have asked for. -/
theorem Fetches.ended {endings : List (Ending (Option Embedding))}
    (hf : start.Fetches texts asked fetched ⟨w', endings.map .ended⟩) (hlanes : start.lanes = []) :
    start.Ended texts (fun _ _ => False) (fun text => start.Gains text fetched) asked endings := by
  refine ⟨(List.length_map _).symm.trans hf.length_eq, fun n text e hn he => ?_⟩
  obtain ⟨l, hl, hseeks⟩ := hf.seeks n text hn
  rw [List.getElem?_map, he, Option.map_some] at hl
  rw [hlanes, List.length_nil, Nat.zero_add]
  exact Option.some.inj hl ▸ hseeks

/-- **A batch by itself settles**, and what it has asked is all that has been asked. -/
theorem Fetches.settles {endings : List (Ending (Option Embedding))}
    (hf : start.Fetches texts asked fetched ⟨w', endings.map .ended⟩) (hsound : start.Sound)
    (hlanes : start.lanes = []) (hlate : .late ∉ endings) :
    Batch.Settles start.world.clock start.world.cache texts (asked.map (·.2))
      (fun text v =>
        Set.InjOn Digest.ofText
          (start.world.embedded ∪ {text | text ∈ texts ∧ Text.blank text = false}) →
        Batch.Fits start.world.clock start.world.cache start.world.log
          (Provided (asked.map (·.2))) text v)
      False
      (fun text v => Batch.entryOf start.world.clock text v ∈ fetched)
      (Batch.conclude (texts.map (Batch.slot start.world.clock start.world.cache)) endings) := by
  have hzero : start.lanes.length = 0 := congrArg List.length hlanes
  have hasked : start.askedFor texts asked = asked.map (·.2) := by
    rw [askedFor, List.filter_eq_self.2 fun p hp => ?_]
    have hlt := hf.run.lt_length p hp
    rw [hf.length_eq] at hlt
    simp [hzero, hlt]
  rw [← hasked]
  exact (hf.ended hlanes).settles hsound id (fun _ _ _ _ _ hv => hv.resolve_right id) hlate
    fun text v hgains => hgains v rfl

/-- Lanes of a batch need no permit and have no limit of time. -/
theorem isFree_of_mem_send (hlanes : start.lanes = []) (hl : l ∈ (start.send texts).lanes) :
    l.IsFree ∧ l.AwaitsAnswer := by
  rw [send, hlanes, List.nil_append] at hl
  obtain ⟨text, -, rfl⟩ := List.mem_map.1 hl
  refine ⟨⟨rfl, rfl⟩, ?_⟩
  rintro ⟨⟩

/-- A batch by itself joins the lanes that it sends on. -/
theorem run_batch (hlanes : start.lanes = []) (texts : List String) :
    Batch.run texts start.world =
      (((start.send texts).world.join none (start.send texts).lanes).1.elim .crashed
          (Batch.conclude (texts.map (Batch.slot start.world.clock start.world.cache))),
        ((start.send texts).world.join none (start.send texts).lanes).2) := by
  have hsent : (start.send texts).lanes = (start.missing texts).map Batch.lane := by
    rw [send, hlanes, List.nil_append]
  rw [hsent, missing_eq]
  exact Batch.run_eq texts start.world

/-- **A batch by itself comes to its end**, and no lookup of it is cut off. -/
theorem exists_fetches (hsound : start.Sound) (hlanes : start.lanes = []) (texts : List String) :
    ∃ asked fetched endings,
      start.Fetches texts asked fetched
        ⟨(Batch.run texts start.world).2, endings.map Lane.ended⟩ ∧
      .late ∉ endings ∧ (Batch.run texts start.world).1 =
        Batch.conclude (texts.map (Batch.slot start.world.clock start.world.cache)) endings := by
  obtain ⟨asked, fetched, hf⟩ := World.run_induct
    (I := fun ls w => ∃ asked fetched, start.Fetches texts asked fetched ⟨w, ls⟩)
    (by
      rintro w w' ls i l l' ⟨asked, fetched, hf⟩ hl ha
      exact hf.acted hsound hl ha)
    (by
      rintro w ls t ⟨asked, fetched, hf⟩
      exact ⟨asked, fetched, hf.waited t⟩)
    none (start.send texts).world 0 (start.send texts).lanes ⟨[], [], .begun hsound hlanes texts⟩
  have hended := ended_of_run ((Step.batched start texts).sound hsound)
    (fun l hl => (isFree_of_mem_send hlanes hl).1) (fun l hl => (isFree_of_mem_send hlanes hl).2) 0
  have hrun := run_batch hlanes texts
  rcases World.join_cases (start.send texts).world none (start.send texts).lanes with
    ⟨endings, hl, hjoin⟩ | ⟨hnone, -⟩
  · rw [hl] at hf hended
    rw [hjoin] at hrun
    rw [hrun]
    refine ⟨asked, fetched, endings, hf, fun hlate => ?_, rfl⟩
    obtain ⟨e, he, hne⟩ := hended _ (List.mem_map_of_mem hlate)
    exact hne (Lane.ended.inj he).symm
  · obtain ⟨endings, hendings⟩ := World.exists_mapM_ending? fun l hl =>
      (hended l hl).imp fun _ => And.left
    rw [hnone] at hendings
    cases hendings

/-- **What there can be, there can be after a batch by itself.** -/
theorem Reached.batch {limits : CacheLimits} {w : World env} (hr : Reached limits ⟨w, []⟩)
    (texts : List String) : Reached limits ⟨(Batch.run texts w).2, []⟩ := by
  obtain ⟨asked, fetched, endings, hf, -⟩ := exists_fetches hr.sound rfl texts
  refine ((hr.step (.batched _ texts)).run hf.run).cleared fun l hl => ?_
  obtain ⟨e, -, rfl⟩ := List.mem_map.1 hl
  exact ⟨e, rfl⟩

end Hall

end Archivist
