import Archivist.Proofs.Embedding.Balance
import Archivist.Proofs.Embedding.Solo
import Mathlib.Data.Finset.Card

/-!
# What a Cache Remembers

Lookups come one after the other, the cache is purged now and then, and time passes. How far does
the memory of the cache reach? An embedding that the provider has given is found again as long as it
is good and no more other texts have been looked up, since its text was looked up last, than there
is room for beside it; and nothing else is found.

The entries stand in the order in which their texts were looked up last. So all that stand before
one entry are of texts that have been looked up since (`Recalls`), and an entry that is cut off has
as many of them before it as there is room for.

## Main results

* `Past.visit`: what a lookup does after a past of any length.
-/

namespace Archivist

/-- What was seen of lookups that came one after the other, the latest first, with purges and
waiting in between. -/
inductive Past (limits : CacheLimits) : List Visit → Traffic → Prop where
  | fresh (now : ℕ) : Past limits [] (.fresh limits now 1)
  | waited {past : List Visit} {s s' : Traffic} (h : Past limits past s)
      (hs : s.Step .waited s') : Past limits past s'
  | purged {past : List Visit} {s s' : Traffic} (h : Past limits past s)
      (hs : s.Step .purged s') : Past limits past s'
  | visited {past : List Visit} {s s' : Traffic} {v : Visit} (h : Past limits past s)
      (hv : s.Visits v s') : Past limits (v :: past) s'

namespace Visit

def key (v : Visit) : String := Digest.ofText v.text

/-- The text is not blank. -/
def isSolid (v : Visit) : Bool := !Text.blank v.text

/-- The provider has given this embedding at time `t`. -/
def Fetched (v : Visit) (t : ℕ) (x : Embedding) : Prop :=
  ∃ reply, (t, reply) ∈ v.calls ∧ Flight.outcome reply = .ok (some x)

end Visit

/-- What the provider has answered last for a key. -/
def lastCall (key : String) (past : List Visit) : Option (ℕ × Landing) :=
  past.findSome? fun v => if v.key = key then v.calls.head? else none

/-- The keys that have been looked up since this one was. -/
def keysSince (key : String) (past : List Visit) : Finset String :=
  (((past.filter Visit.isSolid).takeWhile (·.key ≠ key)).map Visit.key).toFinset

section Lists

variable {past : List Visit} {v : Visit} {key : String}

/-- The last call for a key is one of the last lookup, or one before it. -/
theorem lastCall_cons (key : String) (v : Visit) (past : List Visit) :
    lastCall key (v :: past) =
      (if v.key = key then v.calls.head? else none).or (lastCall key past) := by
  rw [lastCall, List.findSome?_cons, lastCall]
  split <;> simp [*]

/-- Without a call nothing changes. -/
theorem lastCall_cons_of_calls_eq_nil (key : String) (h : v.calls = []) :
    lastCall key (v :: past) = lastCall key past := by
  rw [lastCall_cons, h]
  split <;> rfl

/-- A lookup of another key does not matter. -/
theorem lastCall_cons_of_ne (h : v.key ≠ key) : lastCall key (v :: past) = lastCall key past := by
  rw [lastCall_cons, if_neg h, Option.none_or]

/-- A lookup with a call makes the last one. -/
theorem lastCall_cons_self {p : ℕ × Landing} (h : v.calls = [p]) :
    lastCall v.key (v :: past) = some p := by
  rw [lastCall_cons, if_pos rfl, h]
  rfl

/-- A lookup of nothing does not come in between. -/
theorem keysSince_cons_of_blank (h : Text.blank v.text = true) :
    keysSince key (v :: past) = keysSince key past := by
  rw [keysSince, List.filter_cons_of_neg (by simp [Visit.isSolid, h]), keysSince]

/-- A lookup of another key comes in between. -/
theorem keysSince_cons_of_ne (h : Text.blank v.text = false) (hne : v.key ≠ key) :
    keysSince key (v :: past) = insert v.key (keysSince key past) := by
  rw [keysSince, List.filter_cons_of_pos (by simp [Visit.isSolid, h]),
    List.takeWhile_cons_of_pos (by simp [hne]), List.map_cons, List.toFinset_cons, keysSince]

end Lists

/-- A key has an entry, and those before it are of certain keys. -/
def Stands (key : String) (keys : Finset String) (es : List (String × CacheEntry)) : Prop :=
  ∃ front e back, es = front ++ (key, e) :: back ∧ ∀ p ∈ front, p.1 ∈ keys

namespace Stands

variable {key : String} {keys keys' : Finset String} {es : List (String × CacheEntry)}

/-- The first entry has nothing before it. -/
theorem head (key : String) (e : CacheEntry) (keys : Finset String)
    (es : List (String × CacheEntry)) : Stands key keys ((key, e) :: es) :=
  ⟨[], e, es, rfl, nofun⟩

/-- A key that has an entry has one. -/
theorem exists_mem (h : Stands key keys es) : ∃ e, (key, e) ∈ es := by
  obtain ⟨front, e, back, rfl, -⟩ := h
  exact ⟨e, by simp⟩

theorem mono (h : Stands key keys es) (hkeys : keys ⊆ keys') : Stands key keys' es := by
  obtain ⟨front, e, back, hes, hfront⟩ := h
  exact ⟨front, e, back, hes, fun q hq => hkeys (hfront q hq)⟩

/-- Another entry comes in front. -/
theorem cons {k : String} (h : Stands key keys es) (hk : k ∈ keys) (e : CacheEntry) :
    Stands key keys ((k, e) :: es) := by
  obtain ⟨front, e', back, rfl, hfront⟩ := h
  refine ⟨(k, e) :: front, e', back, rfl, fun q hq => ?_⟩
  rcases List.mem_cons.1 hq with rfl | hq
  · exact hk
  · exact hfront q hq

/-- Other entries go. -/
theorem filter (h : Stands key keys es) (q : String × CacheEntry → Bool)
    (hq : ∀ e, (key, e) ∈ es → q (key, e) = true) : Stands key keys (es.filter q) := by
  obtain ⟨front, e, back, rfl, hfront⟩ := h
  refine ⟨front.filter q, e, back.filter q, ?_, fun p hp => hfront p (List.mem_of_mem_filter hp)⟩
  rw [List.filter_append, List.filter_cons_of_pos (hq e (by simp))]

/-- **An entry is not cut off** as long as there are fewer keys before it than there is room for. -/
theorem take {n : ℕ} (h : Stands key keys es) (hnodup : (es.map (·.1)).Nodup)
    (hn : keys.card < n) : Stands key keys (es.take n) := by
  obtain ⟨front, e, back, rfl, hfront⟩ := h
  have hlength : front.length ≤ keys.card := by
    have hfront' : (front.map (·.1)).Nodup := by
      rw [List.map_append] at hnodup
      exact hnodup.of_append_left
    rw [← List.length_map (·.1), ← List.toFinset_card_of_nodup hfront']
    refine Finset.card_le_card fun k hk => ?_
    obtain ⟨p, hp, rfl⟩ := List.mem_map.1 (List.mem_toFinset.1 hk)
    exact hfront p hp
  obtain ⟨m, rfl⟩ : ∃ m, n = front.length + (m + 1) := ⟨n - front.length - 1, by omega⟩
  exact ⟨front, e, back.take m, List.take_length_add_append _, hfront⟩

end Stands

/-- What the cache remembers of the past. -/
structure Recalls (past : List Visit) (s : Traffic) : Prop where
  length_calls_le : ∀ v ∈ past, v.calls.length ≤ 1
  /-- An entry is what the provider has given last for its key. -/
  known : ∀ k e, (k, e) ∈ s.cache.entries → ∃ reply,
    lastCall k past = some (e.createdAt, reply) ∧ Flight.outcome reply = .ok (some e.vector)
  /-- What it has given last is there as long as it is good and there is room, and those before it
  have been looked up since. -/
  kept : ∀ k t reply x, lastCall k past = some (t, reply) → Flight.outcome reply = .ok (some x) →
    s.now - t < s.cache.limits.lifetime → (keysSince k past).card < s.cache.room →
    Stands k (keysSince k past) s.cache.entries

namespace Recalls

variable {past : List Visit} {s s' : Traffic} {v : Visit} {limits : CacheLimits}

/-- At first there is nothing to recall. -/
theorem fresh (limits : CacheLimits) (now : ℕ) : Recalls [] (.fresh limits now 1) :=
  ⟨nofun, nofun, nofun⟩

/-- Time passes. -/
theorem waited (h : Recalls past s) (hs : s.Step .waited s') : Recalls past s' := by
  have hnow := hs.now_le
  cases hs
  refine ⟨h.length_calls_le, h.known, fun k t reply x hlast hx hgood hroom => ?_⟩
  refine h.kept k t reply x hlast hx ?_ hroom
  exact Nat.lt_of_le_of_lt (Nat.sub_le_sub_right hnow t) hgood

/-- The entry of a key is of the time of the last call. -/
theorem createdAt_eq {k : String} {e : CacheEntry} {t : ℕ} {reply : Landing} (h : Recalls past s)
    (he : (k, e) ∈ s.cache.entries) (hlast : lastCall k past = some (t, reply)) :
    e.createdAt = t ∧ Flight.outcome reply = .ok (some e.vector) := by
  obtain ⟨reply', hlast', hvector⟩ := h.known k e he
  rw [hlast] at hlast'
  cases hlast'
  exact ⟨rfl, hvector⟩

/-- A purge takes nothing that is good. -/
theorem purged (h : Recalls past s) (hs : s.Step .purged s') : Recalls past s' := by
  cases hs
  refine ⟨h.length_calls_le, fun k e he => h.known k e (List.mem_of_mem_filter he), ?_⟩
  intro k t reply x hlast hx hgood hroom
  refine (h.kept k t reply x hlast hx hgood hroom).filter _ fun e he => ?_
  have hgood' : s.now - e.createdAt < s.cache.limits.lifetime := by
    rw [(h.createdAt_eq he hlast).1]
    exact hgood
  simpa [Cache.isExpired] using hgood'

/-- What has been known of other keys stays known if the order of their entries does. -/
theorem kept_of_ne {k : String} {t : ℕ} {reply : Landing} {x : Embedding} (h : Recalls past s)
    (hblank : Text.blank v.text = false) (hne : v.key ≠ k) (hnow : s.now ≤ s'.now)
    (hlimits : s'.cache.limits = s.cache.limits)
    (hlast : lastCall k (v :: past) = some (t, reply)) (hx : Flight.outcome reply = .ok (some x))
    (hgood : s'.now - t < s'.cache.limits.lifetime)
    (hroom : (keysSince k (v :: past)).card < s'.cache.room) :
    Stands k (keysSince k past) (s.cache.others v.key) ∧
      (insert v.key (keysSince k past)).card < s.cache.room := by
  rw [lastCall_cons_of_ne hne] at hlast
  rw [keysSince_cons_of_ne hblank hne, Cache.room, hlimits, ← Cache.room] at hroom
  rw [hlimits] at hgood
  refine ⟨(h.kept k t reply x hlast hx ?_ ?_).filter _ fun e he => by simp [Ne.symm hne], hroom⟩
  · exact Nat.lt_of_le_of_lt (Nat.sub_le_sub_right hnow t) hgood
  · exact Nat.lt_of_le_of_lt (Finset.card_le_card (Finset.subset_insert _ _)) hroom

section Courses

variable (h : Recalls past s) (hnow : s.now ≤ s'.now) (hlimits : s'.cache.limits = s.cache.limits)

include h hnow hlimits

/-- A lookup of nothing is not remembered. -/
theorem visited_blank (hblank : Text.blank v.text = true) (hcalls : v.calls = [])
    (hentries : s'.cache.entries = s.cache.entries) : Recalls (v :: past) s' := by
  refine ⟨?_, fun k e he => ?_, fun k t reply x hlast hx hgood hroom => ?_⟩
  · simpa [hcalls] using h.length_calls_le
  · rw [lastCall_cons_of_calls_eq_nil _ hcalls]
    exact h.known k e (hentries ▸ he)
  · rw [lastCall_cons_of_calls_eq_nil _ hcalls] at hlast
    rw [keysSince_cons_of_blank hblank, Cache.room, hlimits, ← Cache.room] at hroom
    rw [hlimits] at hgood
    rw [keysSince_cons_of_blank hblank, hentries]
    refine h.kept k t reply x hlast hx ?_ hroom
    exact Nat.lt_of_le_of_lt (Nat.sub_le_sub_right hnow t) hgood

/-- An entry that is found gets in front of all others. -/
theorem visited_hit (hblank : Text.blank v.text = false) {e : CacheEntry}
    (he : (v.key, e) ∈ s.cache.entries) (hcalls : v.calls = [])
    (hentries : s'.cache.entries = (v.key, e) :: s.cache.others v.key) :
    Recalls (v :: past) s' := by
  refine ⟨?_, fun k e' he' => ?_, fun k t reply x hlast hx hgood hroom => ?_⟩
  · simpa [hcalls] using h.length_calls_le
  · rw [lastCall_cons_of_calls_eq_nil _ hcalls]
    rw [hentries] at he'
    rcases List.mem_cons.1 he' with heq | he'
    · cases heq
      exact h.known _ _ he
    · exact h.known k e' ((s.cache.others_sublist _).subset he')
  · rw [hentries]
    by_cases hne : v.key = k
    · rw [← hne]
      exact .head _ _ _ _
    · obtain ⟨hstands, -⟩ := h.kept_of_ne hblank hne hnow hlimits hlast hx hgood hroom
      rw [keysSince_cons_of_ne hblank hne]
      exact (hstands.mono (Finset.subset_insert _ _)).cons (Finset.mem_insert_self _ _) e

/-- What the provider has given gets in front of all others, and the last of them may have to go. -/
theorem visited_fetch {P : String → CacheEntry → Prop} (hk : s.cache.Keeps P)
    (hblank : Text.blank v.text = false) {t : ℕ} {reply : Landing} (hcalls : v.calls = [(t, reply)])
    (hentries : s'.cache.entries = s.cache.entriesAfter t v.key (Flight.outcome reply)) :
    Recalls (v :: past) s' := by
  refine ⟨?_, fun k e he => ?_, fun k t' reply' x hlast hx hgood hroom => ?_⟩
  · simpa [hcalls] using h.length_calls_le
  · rw [hentries] at he
    rcases Cache.mem_entriesAfter he with ⟨rfl, x, hx, rfl⟩ | ⟨hne, he⟩
    · exact ⟨reply, lastCall_cons_self hcalls, hx⟩
    · rw [lastCall_cons_of_ne (Ne.symm hne)]
      exact h.known k e he
  · have hnodup : ∀ e, (((v.key, e) :: s.cache.others v.key).map (·.1)).Nodup := fun e =>
      (hk.nodup.sublist ((s.cache.others_sublist _).map _)).cons (s.cache.not_mem_others _)
    have hroom' : s'.cache.room = s.cache.room := by rw [Cache.room, hlimits, Cache.room]
    rw [hentries]
    by_cases hne : v.key = k
    · subst hne
      rw [lastCall_cons_self hcalls] at hlast
      cases hlast
      rw [hx]
      exact (Stands.head _ _ _ _).take (hnodup _) (hroom' ▸ hroom)
    · obtain ⟨hstands, hcard⟩ := h.kept_of_ne hblank hne hnow hlimits hlast hx hgood hroom
      rw [keysSince_cons_of_ne hblank hne]
      have hstands' := hstands.mono (Finset.subset_insert v.key _)
      rcases Flight.outcome reply with _ | _ | x'
      · exact hstands'
      · exact hstands'
      · exact (hstands'.cons (Finset.mem_insert_self _ _) _).take (hnodup _) hcard

/-- **A lookup is remembered**, and those before it are as far as there is room. -/
theorem visited {P : String → CacheEntry → Prop} (hk : s.cache.Keeps P)
    (hc : v.Course s.cache s'.cache) : Recalls (v :: past) s' := by
  cases hc with
  | blank hblank hcalls _ hentries => exact h.visited_blank hnow hlimits hblank hcalls hentries
  | hit hblank e he _ hcalls _ hentries =>
      exact h.visited_hit hnow hlimits hblank he hcalls hentries
  | fetch hblank _ t reply hcalls _ hentries =>
      exact h.visited_fetch hnow hlimits hk hblank hcalls hentries

end Courses

end Recalls

namespace Past

variable {past : List Visit} {s s' : Traffic} {limits : CacheLimits}

/-- A past is a run. -/
theorem exists_run (h : Past limits past s) :
    ∃ now trace, (Traffic.fresh limits now 1).Run trace s := by
  induction h with
  | fresh now => exact ⟨now, [], .refl⟩
  | waited _ hs ih | purged _ hs ih =>
      obtain ⟨now, trace, hr⟩ := ih
      exact ⟨now, _, hr.step hs⟩
  | visited _ hv ih =>
      obtain ⟨now, trace, hr⟩ := ih
      obtain ⟨trace', hr'⟩ := hv.exists_run
      exact ⟨now, _, hr.trans hr'⟩

/-- The cache attends to its lookups after any past. -/
theorem attends (h : Past limits past s) : s.cache.Attends s.fleet := by
  obtain ⟨now, trace, hr⟩ := h.exists_run
  exact hr.attends

/-- A past does not change the limits. -/
theorem limits_eq (h : Past limits past s) : s.cache.limits = limits := by
  obtain ⟨now, trace, hr⟩ := h.exists_run
  exact hr.limits_eq

/-- The entries of a cache are in order after any past. -/
theorem keeps (h : Past limits past s) : ∃ P, s.cache.Keeps P := by
  obtain ⟨now, trace, hr⟩ := h.exists_run
  exact ⟨_, hr.keeps⟩

/-- Between two lookups nobody is under way, and the cache recalls those that were. -/
theorem recalls (h : Past limits past s) : s.fleet = [none] ∧ Recalls past s := by
  induction h with
  | fresh now => exact ⟨rfl, .fresh limits now⟩
  | waited _ hs ih =>
      obtain ⟨hfleet, hrecalls⟩ := ih
      refine ⟨?_, hrecalls.waited hs⟩
      cases hs
      exact hfleet
  | purged _ hs ih =>
      obtain ⟨hfleet, hrecalls⟩ := ih
      refine ⟨?_, hrecalls.purged hs⟩
      cases hs
      exact hfleet
  | visited h hv ih =>
      obtain ⟨hfleet, hrecalls⟩ := ih
      obtain ⟨P, hk⟩ := h.keeps
      obtain ⟨-, hfleet', hlimits, hcourse⟩ := hv.course hfleet h.attends hk
      obtain ⟨trace, hr⟩ := hv.exists_run
      exact ⟨hfleet', hrecalls.visited hr.now_le hlimits hk hcourse⟩

end Past

/-- The other texts, none of them blank, that have been looked up since `text` was. -/
def textsSince (text : String) (past : List Visit) : Finset String :=
  (((past.takeWhile (·.text ≠ text)).filter Visit.isSolid).map Visit.text).toFinset

section Texts

variable {past since older : List Visit} {u v : Visit} {key : String}

/-- If the digest of a text is that of no other, no more keys than texts have been looked up
since. -/
theorem card_keysSince_le (hblank : Text.blank v.text = false)
    (hdigest : ∀ u ∈ past, u.key = v.key → u.text = v.text) :
    (keysSince v.key past).card ≤ (textsSince v.text past).card := by
  have hlists : (past.filter Visit.isSolid).takeWhile (·.key ≠ v.key) =
      (past.takeWhile (·.text ≠ v.text)).filter Visit.isSolid := by
    induction past with
    | nil => rfl
    | cons u rest ih =>
        have hrest := ih fun w hw => hdigest w (List.mem_cons_of_mem _ hw)
        by_cases htext : u.text = v.text
        · have hsolid : u.isSolid = true := by rw [Visit.isSolid, htext, hblank]; rfl
          have hkey : u.key = v.key := congrArg Digest.ofText htext
          rw [List.filter_cons_of_pos hsolid, List.takeWhile_cons_of_neg (by simp [hkey]),
            List.takeWhile_cons_of_neg (by simp [htext])]
          rfl
        · have hkey : u.key ≠ v.key := fun hkey => htext (hdigest u List.mem_cons_self hkey)
          rw [List.takeWhile_cons_of_pos (by simp [htext])]
          cases hsolid : u.isSolid with
          | false =>
              rw [List.filter_cons_of_neg (by simp [hsolid]),
                List.filter_cons_of_neg (by simp [hsolid]), hrest]
          | true =>
              rw [List.filter_cons_of_pos hsolid, List.filter_cons_of_pos hsolid,
                List.takeWhile_cons_of_pos (by simp [hkey]), hrest]
  have himage : keysSince v.key past = (textsSince v.text past).image Digest.ofText := by
    rw [keysSince, hlists, textsSince]
    ext k
    simp [Visit.key]
  rw [himage]
  exact Finset.card_image_le

/-- The last call for a key is the one that was made at the last lookup with a call. -/
theorem lastCall_of_mem {p : ℕ × Landing} (hu : u.key = key) (hp : p ∈ u.calls)
    (hone : u.calls.length ≤ 1) (hsince : ∀ w ∈ since, w.key = key → w.calls = []) :
    lastCall key (since ++ u :: older) = some p := by
  induction since with
  | nil =>
      have hcalls : u.calls = [p] := by
        obtain ⟨q, hq⟩ := List.length_eq_one_iff.1
          (Nat.le_antisymm hone (List.length_pos_of_mem hp))
        rw [hq, List.mem_singleton] at hp
        rw [hq, hp]
      rw [List.nil_append, ← hu]
      exact lastCall_cons_self hcalls
  | cons w rest ih =>
      rw [List.cons_append, lastCall_cons, ih fun w hw => hsince w (List.mem_cons_of_mem _ hw)]
      split
      · rename_i hw
        rw [hsince w List.mem_cons_self hw]
        rfl
      · rfl

/-- A last call was made by a lookup of its key. -/
theorem exists_of_lastCall {p : ℕ × Landing} (h : lastCall key past = some p) :
    ∃ u ∈ past, u.key = key ∧ p ∈ u.calls := by
  obtain ⟨u, hu, hp⟩ := List.exists_of_findSome?_eq_some h
  split at hp
  · rename_i hkey
    exact ⟨u, hu, hkey, List.mem_of_head? hp⟩
  · cases hp

end Texts

/-- If all that the provider has given for the key of a text is too old, a lookup asks it once. -/
theorem Past.fetches {past : List Visit} {s s' : Traffic} {limits : CacheLimits} {v : Visit}
    (h : Past limits past s) (hv : s.Visits v s') (hblank : Text.blank v.text = false)
    (hnone : ∀ u ∈ past, u.key = v.key → ∀ t x, u.Fetched t x → limits.lifetime ≤ v.time - t) :
    ∃ t reply, v.calls = [(t, reply)] ∧ v.result = Flight.outcome reply := by
  obtain ⟨hfleet, hrecalls⟩ := h.recalls
  obtain ⟨P, hk⟩ := h.keeps
  obtain ⟨-, -, -, hcourse⟩ := hv.course hfleet h.attends hk
  cases hcourse with
  | blank hblank' => rw [hblank] at hblank'; cases hblank'
  | hit _ e he hgood =>
      -- A hit is on an entry that a call has made, and that is too old by the hypothesis.
      obtain ⟨reply, hlast, hvector⟩ := hrecalls.known _ e he
      obtain ⟨u, hu, hkey, hp⟩ := exists_of_lastCall hlast
      have := hnone u hu hkey e.createdAt e.vector ⟨reply, hp, hvector⟩
      rw [← h.limits_eq] at this
      omega
  | fetch _ _ t reply hcalls hresult => exact ⟨t, reply, hcalls, hresult⟩

/-- The provider is asked for a text that has not been looked up before. -/
theorem Past.exists_fetch {past : List Visit} {s : Traffic} {limits : CacheLimits}
    (h : Past limits past s) (text : String) (hblank : Text.blank text = false)
    (hnew : ∀ u ∈ past, Digest.ofText u.text ≠ Digest.ofText text) (reply : Landing) :
    ∃ v s', Past limits (v :: past) s' ∧ v.text = text ∧ v.calls = [(s.now, reply)] ∧
      s'.now = s.now := by
  obtain ⟨v, s', hv, rfl, hnow, hcalls⟩ :=
    Traffic.exists_visits h.recalls.1 h.attends text reply
  obtain ⟨t, reply', hcall, -⟩ := h.fetches hv hblank fun u hu heq => absurd heq (hnew u hu)
  refine ⟨v, s', h.visited hv, rfl, ?_, hnow⟩
  rw [hcall, hcalls (t, reply') (by simp [hcall])]

/-- **What a lookup does after a past of any length.** It can always be brought to its end. Let its
text not be blank, and let no other text that has been looked up have its digest. If the provider
has given an embedding that is still good, and has not been asked for the text since, and if fewer
other texts have been looked up since the text was than the cache has room for, then the lookup has
this embedding without a call. If the provider has given no embedding for the text that is still
good, the lookup asks it once. -/
theorem Past.visit {past : List Visit} {s : Traffic} {limits : CacheLimits}
    (h : Past limits past s) :
    (∀ text reply, ∃ v s', s.Visits v s' ∧ v.text = text ∧ ∀ p ∈ v.calls, p = (s.now, reply)) ∧
    ∀ v s', s.Visits v s' → Text.blank v.text = false →
      (∀ u ∈ past, Digest.ofText u.text = Digest.ofText v.text → u.text = v.text) →
      (∀ since u older t x, past = since ++ u :: older → u.text = v.text → u.Fetched t x →
        (∀ w ∈ since, w.text = v.text → w.calls = []) → v.time - t < limits.lifetime →
        (textsSince v.text past).card < max 1 limits.capacity →
        v.calls = [] ∧ v.result = .ok (some x)) ∧
      ((∀ u ∈ past, u.text = v.text → ∀ t x, u.Fetched t x → limits.lifetime ≤ v.time - t) →
        ∃ t reply, v.calls = [(t, reply)] ∧ v.result = Flight.outcome reply) := by
  obtain ⟨hfleet, hrecalls⟩ := h.recalls
  obtain ⟨P, hk⟩ := h.keeps
  refine ⟨fun text reply => ?_, fun v s' hv hblank hdigest => ?_⟩
  · obtain ⟨v, s', hv, htext, -, hcalls⟩ :=
      Traffic.exists_visits hfleet h.attends text reply
    exact ⟨v, s', hv, htext, hcalls⟩
  -- A lookup by itself takes one of three courses: it is blank, it hits or it fetches.
  obtain ⟨htime, -, -, hcourse⟩ := hv.course hfleet h.attends hk
  rw [← h.limits_eq]
  refine ⟨fun since u older t x hpast hu hfetched hsince hgood hroom => ?_, fun hnone => ?_⟩
  · obtain ⟨reply, hp, hx⟩ := hfetched
    have hmem : u ∈ past := by rw [hpast]; simp
    have hlast : lastCall v.key past = some (t, reply) := by
      rw [hpast]
      refine lastCall_of_mem (congrArg Digest.ofText hu) hp (hrecalls.length_calls_le u hmem) ?_
      intro w hw hkey
      exact hsince w hw (hdigest w (by rw [hpast]; exact List.mem_append_left _ hw) hkey)
    -- Fewer other texts than there is room for have not pushed the entry out.
    have hcard : (keysSince v.key past).card < s.cache.room := by
      rw [Cache.room, Nat.max_comm]
      exact Nat.lt_of_le_of_lt (card_keysSince_le hblank hdigest) hroom
    obtain ⟨e, he⟩ := (hrecalls.kept _ t reply x hlast hx (htime ▸ hgood) hcard).exists_mem
    obtain ⟨hcreated, hvector⟩ := hrecalls.createdAt_eq he hlast
    cases hcourse with
    | blank hblank' => rw [hblank] at hblank'; cases hblank'
    | hit _ e' he' _ hcalls hresult =>
        rw [hk.eq_of_mem he' he] at hresult
        rw [hx] at hvector
        cases hvector
        exact ⟨hcalls, hresult⟩
    | fetch _ hbad =>
        have := hbad e he
        rw [hcreated] at this
        omega
  · exact h.fetches hv hblank fun u hu hkey => h.limits_eq ▸ hnone u hu (hdigest u hu hkey)

/-- One text is looked up, some time later another one, the cache is purged, and the first text is
looked up again. There is room for two. -/
theorem Past.visit_again : ∃ past s v s', Past ⟨2, 5, 1⟩ past s ∧
    past.map Visit.text = ["道路", "橋梁"] ∧ s.Visits v s' ∧ v.time = 3 ∧ v.text = "橋梁" ∧
    v.calls = [] ∧ v.result = .ok (some [1]) := by
  have hne : Digest.ofText "橋梁" ≠ Digest.ofText "道路" := by decide +kernel
  have h : Past ⟨2, 5, 1⟩ [] _ := .fresh 0
  obtain ⟨u, s₁, h, hu, hucalls, hnow⟩ :=
    h.exists_fetch "橋梁" (by decide) nofun (.ok (some [1]))
  have h := h.waited (.waited (t := 3) (by rw [hnow]; exact Nat.zero_le _))
  obtain ⟨w, s₂, h, hw, -, hnow⟩ :=
    h.exists_fetch "道路" (by decide) (by simpa [hu] using hne) (.ok (some [2]))
  have h := h.purged (.purged _)
  obtain ⟨v, s', hv, hvtext, -, -⟩ :=
    Traffic.exists_visits h.recalls.1 h.attends "橋梁" (.error (.embedding "down"))
  obtain ⟨P, hk⟩ := h.keeps
  have htime : v.time = 3 := (hv.course h.recalls.1 h.attends hk).1.trans hnow
  have hblank : Text.blank v.text = false := by rw [hvtext]; decide
  have hsolid : w.isSolid = true := by rw [Visit.isSolid, hw]; decide
  have hcard : (textsSince v.text [w, u]).card < 2 := by
    simp [textsSince, hu, hw, hvtext, hsolid]
  have hdigest : ∀ x ∈ [w, u], Digest.ofText x.text = Digest.ofText v.text → x.text = v.text := by
    simp [hu, hw, hvtext, Ne.symm hne]
  have hfetched : u.Fetched 0 [1] :=
    ⟨.ok (some [1]), by rw [hucalls]; exact List.mem_singleton_self _, rfl⟩
  obtain ⟨hvcalls, hvresult⟩ := (h.visit.2 v s' hv hblank hdigest).1 [w] u [] 0 [1] rfl
    (hu.trans hvtext.symm) hfetched (by simp [hw, hvtext]) (by rw [htime]; decide) hcard
  exact ⟨_, _, v, s', h, by simp [hu, hw], hv, htime, hvtext, hvcalls, hvresult⟩

end Archivist
