import Archivist.Proofs.Concurrency.Hall
import Archivist.Proofs.Embedding.Slots

/-!
# Lanes of a Batch

A batch sends a lane on for each text that has to be fetched, and each of these lanes asks the
provider once at most, for its text and nothing else, whatever others do in between (`Lane.Seeks`).
It ends with what the provider has answered it, or with what the provider has given for a text of
the same digest at another time; what the provider gives it is in front of all entries of the cache
at that moment, and goes only if there is a reason (`Hall.Caches`).

## Main results

* `Hall.Run.seeks`: so it is with each lane of a batch at every moment of every run.
-/

namespace Archivist

/-- Nothing has been asked, or only for a text. -/
def AsksOnce (text : String) (asked : List Exchange) : Prop :=
  asked = [] ∨ ∃ response : Response (.embedding text), asked = [⟨.embedding text, response⟩]

/-- Where the outcome of a lookup comes from: `served` is what a lookup may be served with that does
not ask, `landed` what holds after the provider has answered one that does. -/
inductive Comes (text : String) (served : Option Embedding → Prop) (landed : Landing → Prop) :
    List Exchange → Landing → Prop where
  | served (v : Option Embedding) (hv : served v) : Comes text served landed [] (.ok v)
  | answered (response : Response (.embedding text)) (reply : Landing)
      (ho : response.outcome = some reply) (hlanded : landed (Flight.outcome reply)) :
      Comes text served landed [⟨.embedding text, response⟩] (Flight.outcome reply)

/-- How far a lane of a batch has come that looks up a text, and what it has asked. -/
inductive Lane.Seeks (text : String) (served : Option Embedding → Prop) (landed : Landing → Prop) :
    List Exchange → Lane (Option Embedding) → Prop where
  | looks (flight : Flight) :
      Seeks text served landed [] (.looking false none text (fun r => .done r) flight none)
  | waits (flight : Flight) (cell : ℕ) (hphase : flight.phase = .asking cell)
      (response : Response (.embedding text)) (due : ℕ) :
      Seeks text served landed [⟨.embedding text, response⟩]
        (.looking false none text (fun r => .done r) flight (some (due, response.outcome)))
  | comes {asked : List Exchange} {result : Landing} (h : Comes text served landed asked result) :
      Seeks text served landed asked (.running false none (.done result))
  | ended {asked : List Exchange} {result : Landing} (h : Comes text served landed asked result) :
      Seeks text served landed asked (.ended (.value result))
  | crashed (response : Response (.embedding text)) (ho : response.outcome = none) :
      Seeks text served landed [⟨.embedding text, response⟩] (.ended .crashed)
  | late (asked : List Exchange) (h : AsksOnce text asked) :
      Seeks text served landed asked (.ended .late)

section Seeks

variable {text : String} {served served' : Option Embedding → Prop}
  {landed landed' : Landing → Prop} {asked : List Exchange} {l l' : Lane (Option Embedding)}
  {result : Landing}

theorem Comes.mono (h : Comes text served landed asked result) (hs : ∀ v, served v → served' v)
    (hl : ∀ r, landed r → landed' r) : Comes text served' landed' asked result := by
  cases h with
  | served v hv => exact .served v (hs v hv)
  | answered response reply ho hlanded => exact .answered response reply ho (hl _ hlanded)

/-- An outcome is had with one question at most. -/
theorem Comes.asksOnce (h : Comes text served landed asked result) : AsksOnce text asked := by
  cases h with
  | served => exact .inl rfl
  | answered response => exact .inr ⟨response, rfl⟩

/-- What a lookup comes to, the provider has given to it, or it was served with it. -/
theorem Comes.provided_or_served {v : Option Embedding}
    (h : Comes text served landed asked (.ok v)) : Provided asked text v ∨ served v := by
  generalize hresult : Except.ok v = result at h
  cases h with
  | served v' hv =>
      cases hresult
      exact .inr hv
  | answered response reply ho hlanded =>
      refine .inl ⟨response, List.mem_singleton_self _, ?_⟩
      rw [ho]
      exact congrArg some hresult.symm

namespace Lane.Seeks

theorem mono (h : l.Seeks text served landed asked) (hs : ∀ v, served v → served' v)
    (hl : ∀ r, landed r → landed' r) : l.Seeks text served' landed' asked := by
  cases h with
  | looks flight => exact .looks flight
  | waits flight cell hphase response due => exact .waits flight cell hphase response due
  | comes h => exact .comes (h.mono hs hl)
  | ended h => exact .ended (h.mono hs hl)
  | crashed response ho => exact .crashed response ho
  | late asked h => exact .late asked h

/-- **A lane of a batch asks once at most**, for its text. -/
theorem asksOnce (h : l.Seeks text served landed asked) : AsksOnce text asked := by
  cases h with
  | looks => exact .inl rfl
  | waits _ _ _ response | crashed response => exact .inr ⟨response, rfl⟩
  | comes h | ended h => exact h.asksOnce
  | late _ h => exact h

/-- The lookup of a lane is for the text that it seeks. -/
theorem text_eq {log : List Exchange} {flight : Flight} (h : l.Seeks text served landed asked)
    (ht : l.Truthful log) (hflight : l.flight? = some flight) : flight.text = text := by
  cases h with
  | looks | waits =>
      cases hflight
      exact ht.1
  | comes | ended | crashed | late => cases hflight

/-- A lane that has ended has its outcome from somewhere. -/
theorem comes_of_ended (h : (Lane.ended (.value result)).Seeks text served landed asked) :
    Comes text served landed asked result := by
  cases h with
  | ended h => exact h

/-- A lane of a batch goes on with what its lookup has come to. -/
theorem comes_of_next {gated : Bool} {deadline : Option ℕ} {t : String}
    {next : Reply (.embedding t) → Program Reply (Except Failure (Option Embedding))}
    {flight : Flight} {answer : Option (ℕ × Option (Reply (.embedding t)))} {before : List Exchange}
    (h : (Lane.looking gated deadline t next flight answer).Seeks text served' landed' before)
    (h' : (Lane.running gated deadline (next result)).Seeks text served landed asked) :
    Comes text served landed asked result := by
  cases h with
  | looks | waits =>
      cases h' with
      | comes hcomes => exact hcomes

/-- A lookup that was not dropped has done with the answer of the provider what is to be done. -/
theorem landed_of_ended {e : Ending (Option Embedding)} {response : Response (.embedding text)}
    (h : (Lane.ended e).Seeks text served landed asked) (he : e ≠ .late)
    (hmem : ⟨.embedding text, response⟩ ∈ asked)
    (hresult : response.outcome.map Flight.outcome = some result) : landed result := by
  cases h with
  | ended hcomes =>
      cases hcomes with
      | served => cases hmem
      | answered response' reply ho hlanded =>
          cases List.mem_singleton.1 hmem
          rw [ho] at hresult
          exact Option.some.inj hresult ▸ hlanded
  | crashed response' ho =>
      cases List.mem_singleton.1 hmem
      rw [ho] at hresult
      cases hresult
  | late => exact absurd rfl he

/-- A lane of a batch is dropped where it stands. -/
theorem drop (h : l.Seeks text served landed asked) :
    (Lane.ended .late).Seeks text served landed asked := .late asked h.asksOnce

end Lane.Seeks

variable {env : Environment} {w w' : World env} {i : ℕ} {flight : Flight}

/-- A lane of a batch that has not asked yet asks for its text, or does without it. -/
theorem World.Looks.seeks_of_looks
    (h : w.Looks i false none text (fun r => .done r) flight none l' w')
    (hserved : ∀ result cache, flight.step w.clock i w.cache = .land result cache →
      ∃ v, result = .ok v ∧ served v)
    (hlanded : ∀ cell reply, flight.phase = .asking cell →
      w'.cache = (flight.land w.clock cell reply w.cache).2 → landed (Flight.outcome reply)) :
    ∃ new, w'.log = w.log ++ new ∧ l'.Seeks text served landed new := by
  cases h with
  | ask cell hphase hdelay =>
      exact ⟨[⟨_, (w.respond (.embedding text)).1⟩], rfl,
        .waits flight cell hphase (w.respond (.embedding text)).1 _⟩
  | land cell hphase r harrives =>
      obtain ⟨hr, rfl⟩ := harrives.of_none
      exact ⟨[⟨_, (w.respond (.embedding text)).1⟩], rfl,
        .comes (.answered (w.respond (.embedding text)).1 r hr.symm (hlanded cell r hphase rfl))⟩
  | breakDown cell hphase harrives =>
      obtain ⟨hr, rfl⟩ := harrives.of_none
      exact ⟨[⟨_, (w.respond (.embedding text)).1⟩], log_giveBack _ _,
        .crashed (w.respond (.embedding text)).1 hr.symm⟩
  | go answer phase cache hstep => exact ⟨[], (List.append_nil _).symm, .looks _⟩
  | settle answer result cache hstep =>
      obtain ⟨v, rfl, hv⟩ := hserved result cache hstep
      exact ⟨[], (List.append_nil _).symm, .comes (.served v hv)⟩
  | late answer hlate => cases hlate

/-- A lane of a batch that has asked takes what the provider has for it, and asks nothing more. -/
theorem World.Looks.seeks_of_waits {cell due : ℕ} {response : Response (.embedding text)}
    (h : w.Looks i false none text (fun r => .done r) flight (some (due, response.outcome)) l' w')
    (hphase : flight.phase = .asking cell)
    (hlanded : ∀ cell reply, flight.phase = .asking cell →
      w'.cache = (flight.land w.clock cell reply w.cache).2 → landed (Flight.outcome reply)) :
    w'.log = w.log ∧ l'.Seeks text served landed [⟨.embedding text, response⟩] := by
  generalize ha : some (due, response.outcome) = answer at h
  cases h with
  | ask => cases ha
  | land cell' hphase' r harrives =>
      obtain ⟨hr, rfl⟩ := (ha ▸ harrives).of_some
      exact ⟨rfl, .comes (.answered response r hr.symm (hlanded cell' r hphase' rfl))⟩
  | breakDown cell' hphase' harrives =>
      obtain ⟨hr, rfl⟩ := (ha ▸ harrives).of_some
      exact ⟨log_giveBack _ _, .crashed response hr.symm⟩
  -- A lookup that asks the provider takes no step of its own.
  | go _ _ _ hstep | settle _ _ _ hstep =>
      rw [Flight.step, hphase] at hstep
      cases hstep
  | late _ hlate => cases hlate

/-- **A step of a lane of a batch**: it asks for its text if it has not asked yet. -/
theorem World.Acts.seeks (h : w.Acts i l l' w') (hl : l.Seeks text served landed asked)
    (hserved : ∀ flight result cache, l.flight? = some flight →
      flight.step w.clock i w.cache = .land result cache → ∃ v, result = .ok v ∧ served v)
    (hlanded : ∀ flight cell reply, l.flight? = some flight → flight.phase = .asking cell →
      w'.cache = (flight.land w.clock cell reply w.cache).2 → landed (Flight.outcome reply)) :
    ∃ new, w'.log = w.log ++ new ∧ l'.Seeks text served landed (asked ++ new) := by
  cases hl with
  | looks flight =>
      cases h with
      | lookup gated deadline text next flight answer h =>
          exact h.seeks_of_looks (fun _ _ => hserved _ _ _ rfl) (fun _ _ => hlanded _ _ _ rfl)
  | waits flight cell hphase response due =>
      cases h with
      | lookup gated deadline text next flight answer h =>
          obtain ⟨hlog, hseeks⟩ := h.seeks_of_waits hphase (fun _ _ => hlanded _ _ _ rfl)
          exact ⟨[], hlog.trans (List.append_nil _).symm, hseeks⟩
  | comes hcomes =>
      cases h with
      | finish gated deadline r =>
          exact ⟨[], (log_giveBack _ _).trans (List.append_nil _).symm, by
            rw [List.append_nil]
            exact .ended hcomes⟩
  | ended | crashed | late => cases h

/-- A lane of a batch that does not look up anything will not. -/
theorem World.Acts.flight?_eq_none (h : w.Acts i l l' w') (hl : l.Seeks text served landed asked)
    (hflight : l.flight? = none) : l'.flight? = none := by
  cases hl with
  | looks | waits => cases hflight
  | comes =>
      cases h with
      | finish => rfl
  | ended | crashed | late => cases h

end Seeks

namespace Hall

variable {env : Environment} {start h h' : Hall env} {before asked : List (ℕ × Exchange)}
  {key text : String} {e : CacheEntry} {v : Embedding} {i : ℕ}

/-- What one lane has asked. -/
def askedBy (i : ℕ) (asked : List (ℕ × Exchange)) : List Exchange :=
  (asked.filter (·.1 = i)).map (·.2)

/-- What a lane asks is asked part by part. -/
theorem askedBy_append (i : ℕ) (before asked : List (ℕ × Exchange)) :
    askedBy i (before ++ asked) = askedBy i before ++ askedBy i asked := by
  simp [askedBy]

/-- Questions are asked by the lane that asks them. -/
theorem askedBy_map (i j : ℕ) (xs : List Exchange) :
    askedBy i (xs.map (j, ·)) = if j = i then xs else [] := by
  rw [askedBy, List.filter_map]
  split <;> simp_all [Function.comp_def]

/-- Since `start` there was a reason for an entry to go. -/
def Lost (start : Hall env) (key : String) (e : CacheEntry) (h : Hall env) : Prop :=
  ∃ s s' before asked after, start.Run before s ∧ s.Step asked s' ∧ s'.Run after h ∧
    s.world.cache.Loses s.world.clock key e s'.world.cache

/-- Since `start` a vector has been put in front of all entries of the cache, and it is still there
unless there was a reason for it to go. -/
def Caches (start : Hall env) (key : String) (v : Embedding) (h : Hall env) : Prop :=
  ∃ s before after e, start.Run before s ∧ s.Run after h ∧ e.vector = v ∧
    s.world.cache.entries.head? = some (key, e) ∧
    ((key, e) ∈ h.world.cache.entries ∨ s.Lost key e h)

/-- What is cached stays so, or there is a reason. -/
theorem Caches.step (hc : start.Caches key v h) (hsound : h.Sound) (hs : h.Step asked h') :
    start.Caches key v h' := by
  obtain ⟨s, before, after, e, hbefore, hafter, hv, hhead, hstays⟩ := hc
  refine ⟨s, before, after ++ asked, e, hbefore, hafter.step hs, hv, hhead, ?_⟩
  rcases hstays with hmem | ⟨s₁, s₂, before₁, asked₁, after₁, hr₁, hs₁, hr₂, hloses⟩
  · rcases hs.stays hsound hmem with hmem | hloses
    · exact .inl hmem
    · exact .inr ⟨h, h', after, asked, [], hafter, hs, .refl, hloses⟩
  · exact .inr ⟨s₁, s₂, before₁, asked₁, after₁ ++ asked, hr₁, hs₁, hr₂.step hs, hloses⟩

/-- In a step a lane gets a reply of the provider. -/
inductive Lands (h : Hall env) (i : ℕ) (flight : Flight) (reply : Landing) : Hall env → Prop where
  | landed {l l' : Lane (Option Embedding)} {w' : World env} (cell : ℕ)
      (hl : h.lanes[i]? = some l) (ha : h.world.act i l = some (l', w'))
      (hflight : l.flight? = some flight) (hphase : flight.phase = .asking cell)
      (hcache : w'.cache = (flight.land h.world.clock cell reply h.world.cache).2) :
      Lands h i flight reply ⟨w', h.lanes.set i l'⟩

/-- What the provider gives a lane is in front of all entries then. -/
theorem Lands.head? {flight : Flight} {reply : Landing} (hland : h.Lands i flight reply h')
    (hsound : h.Sound) (hv : Flight.outcome reply = .ok (some v)) :
    h'.world.cache.entries.head? = some (Digest.ofText flight.text,
      { textHash := Digest.ofText flight.text, vector := v, createdAt := h.world.clock }) := by
  cases hland with
  | @landed l l' w' cell hl ha hflight hphase hcache =>
      have hi := (World.flight?_traffic h.world hl).trans hflight
      have hland : flight.land h.world.clock cell reply h.world.cache =
          (Flight.outcome reply, w'.cache) := Prod.ext rfl hcache.symm
      have hs := Traffic.Step.answered (s := h.world.traffic h.lanes) reply hi hphase hland
      exact hs.fetched hsound.offers.attends hsound.offers.keeps hv

/-- What the provider gives a lane is cached. -/
theorem Lands.caches {flight : Flight} {reply : Landing} (hland : h.Lands i flight reply h')
    (hr : start.Run before h) (hsound : h.Sound) (hv : Flight.outcome reply = .ok (some v)) :
    start.Caches (Digest.ofText flight.text) v h' := by
  have hhead := hland.head? hsound hv
  cases hland with
  | landed cell hl ha =>
      exact ⟨_, _, [], _, hr.step (.acted hl ha), .refl, rfl, hhead, .inl (List.mem_of_head? hhead)⟩

/-- Since `start` the provider has answered a lookup of a text with this. -/
def Gives (start : Hall env) (text : String) (v : Option Embedding) (h : Hall env) : Prop :=
  ∃ s s' before new after i reply result company, start.Run before s ∧ s.Step new s' ∧
    s'.Run after h ∧ (s.world.traffic s.lanes).Step (.answered i text reply result company)
      (s'.world.traffic s'.lanes) ∧
    Flight.outcome reply = .ok v ∧ Provided s'.world.log text v

/-- Since `start` the provider has answered a lookup of a text of this digest with this. -/
def GivesFor (start : Hall env) (key : String) (v : Option Embedding) (h : Hall env) : Prop :=
  ∃ text, Digest.ofText text = key ∧ start.Gives text v h

/-- What the provider has given since the start it has given later. -/
theorem GivesFor.step {v : Option Embedding} (hg : start.GivesFor key v h) (hs : h.Step asked h') :
    start.GivesFor key v h' := by
  obtain ⟨text, hkey, s, s', before, new, after, i, reply, result, company, hr, hs', hr', hg⟩ := hg
  exact ⟨text, hkey, s, s', before, new, after ++ asked, i, reply, result, company, hr, hs',
    hr'.step hs, hg⟩

/-- What the provider gives has been asked for. -/
theorem Gives.provided {v : Option Embedding} (hg : start.Gives text v h) :
    Provided h.world.log text v := by
  obtain ⟨s, s', before, new, after, i, reply, result, company, -, -, hr, -, -, hv⟩ := hg
  exact hv.mono hr.log_subset

/-- A lane looks up a text for a batch, and has asked what is listed. -/
def Seeks (served : Option Embedding → Prop) (landed : Landing → Prop) (text : String) (i : ℕ)
    (asked : List (ℕ × Exchange)) (h : Hall env) : Prop :=
  ∃ l, h.lanes[i]? = some l ∧ l.Seeks text served landed (askedBy i asked)

section Seeks

variable {served served' : Option Embedding → Prop} {landed landed' : Landing → Prop}

theorem Seeks.mono (hl : Seeks served landed text i asked h) (hserved : ∀ v, served v → served' v)
    (hlanded : ∀ result, landed result → landed' result) :
    Seeks served' landed' text i asked h := by
  obtain ⟨l, hl, hseeks⟩ := hl
  exact ⟨l, hl, hseeks.mono hserved hlanded⟩

/-- The lookup of a lane goes by the digest of its text. -/
theorem Seeks.key_eq {l : Lane (Option Embedding)} {flight : Flight}
    (hs : Seeks served landed text i asked h) (hsound : h.Sound) (hl : h.lanes[i]? = some l)
    (hflight : l.flight? = some flight) :
    flight.text = text ∧ flight.key = Digest.ofText text := by
  obtain ⟨l₁, hl₁, hseeks⟩ := hs
  obtain rfl := Option.some.inj (hl.symm.trans hl₁)
  have htext := hseeks.text_eq (hsound.truthful l (List.mem_of_getElem? hl)) hflight
  have hi := (World.flight?_traffic h.world hl).trans hflight
  exact ⟨htext, (hsound.offers.attends.key_eq hi).trans (congrArg _ htext)⟩

/-- **Whatever happens, a lane of a batch keeps to its text**: it is served with what is offered to
it, and what it asks for itself arrives. -/
theorem Step.seeks {P : String → Option Embedding → Prop} (hs : h.Step asked h')
    (hsound : h.Sound) (hblank : Text.blank text = false) (hl : Seeks served landed text i before h)
    (hoffers : (h.world.traffic h.lanes).Offers (· = i) P)
    (hserved : ∀ l, h.lanes[i]? = some l → l.flight? ≠ none → ∀ v, P (Digest.ofText text) v →
      served v)
    (hlanded : ∀ flight reply, flight.text = text → h.Lands i flight reply h' →
      landed (Flight.outcome reply)) : Seeks served landed text i (before ++ asked) h' := by
  obtain ⟨l, hl, hseeks⟩ := hl
  have hlt := (List.getElem?_eq_some_iff.1 hl).1
  cases hs with
  | joined | batched =>
      refine ⟨l, (List.getElem?_append_left hlt).trans hl, ?_⟩
      rwa [List.append_nil]
  | purged | invalidated | passed =>
      refine ⟨l, hl, ?_⟩
      rwa [List.append_nil]
  | @dropped j l₁ hl₁ hne =>
      rw [List.append_nil]
      by_cases hij : j = i
      · subst hij
        exact ⟨_, List.getElem?_set_self hlt, hseeks.drop⟩
      · exact ⟨l, (List.getElem?_set_ne hij).trans hl, hseeks⟩
  | @acted j l₁ l₂ w' hl₁ ha =>
      rw [Seeks, askedBy_append, askedBy_map]
      by_cases hij : j = i
      · subst hij
        obtain rfl : l = l₁ := Option.some.inj (hl.symm.trans hl₁)
        have htext : ∀ flight, l.flight? = some flight → flight.text = text := fun _ =>
          hseeks.text_eq (hsound.truthful l (List.mem_of_getElem? hl))
        -- The lane of the lookup itself moves: what it is served with or lands is as promised.
        obtain ⟨new, hlog, hl'⟩ := (World.acts_of_act ha).seeks hseeks
          (by
            intro flight result cache hflight hstep
            have hi := (World.flight?_traffic h.world hl).trans hflight
            obtain ⟨v, rfl, hv⟩ := hoffers.landing (fun _ _ => rfl) hi
              (Flight.moves_of_step hstep nofun) rfl
            rw [htext flight hflight, if_neg (Bool.eq_false_iff.1 hblank)] at hv
            exact ⟨v, rfl, hserved l hl (by simp [hflight]) v hv⟩)
          (fun flight cell reply hflight hphase hcache => hlanded flight reply
            (htext flight hflight) (.landed cell hl ha hflight hphase hcache))
        have hnew : w'.log.drop h.world.log.length = new := by rw [hlog, List.drop_left]
        rw [if_pos rfl, hnew]
        exact ⟨l₂, List.getElem?_set_self hlt, hl'⟩
      · refine ⟨l, (List.getElem?_set_ne hij).trans hl, ?_⟩
        rwa [if_neg hij, List.append_nil]

/-- The lanes that a batch sends on. -/
theorem getElem?_send {texts : List String} {n : ℕ} (hn : (h.missing texts)[n]? = some text) :
    (h.send texts).lanes[h.lanes.length + n]? = some (Batch.lane text) := by
  rw [send, List.getElem?_append_right (Nat.le_add_right _ _), Nat.add_sub_cancel_left,
    List.getElem?_map, hn, Option.map_some]

/-- A lane that a batch sends on seeks the text that it is sent for. -/
theorem seeks_send {texts : List String} {n : ℕ} (hn : (h.missing texts)[n]? = some text) :
    Seeks served landed text (h.lanes.length + n) [] (h.send texts) :=
  ⟨Batch.lane text, getElem?_send hn, .looks _⟩

end Seeks

/-- What a lookup of a key has come to is cached, if it is a vector. -/
def Stores (start : Hall env) (key : String) (h : Hall env) (result : Landing) : Prop :=
  ∀ v, result = .ok (some v) → start.Caches key v h

/-- What a lookup in lane `i` is served with the provider has given since `start`. -/
def Freshens (start : Hall env) (key : String) (i : ℕ) (h : Hall env) : Prop :=
  (h.world.traffic h.lanes).Offers (· = i) fun k v => k = key → start.GivesFor key v h

/-- **Whatever happens, a lookup is served with what has been given since it has begun.** -/
theorem Step.freshens (hs : h.Step asked h') (hsound : h.Sound) (hr : start.Run before h)
    (hf : start.Freshens key i h) : start.Freshens key i h' := by
  have hold := hf.mono fun _ _ hg hkey => (hg hkey).step hs
  refine hs.offers hsound hold fun sign hstep hlogged => ?_
  cases sign with
  | answered j text reply result company =>
      rintro v hv rfl
      exact ⟨text, rfl, _, _, _, _, [], j, reply, result, company, hr, hs, .refl, hstep, hv,
        hlogged v hv⟩
  | began | batched | moved | served | dropped | purged | invalidated | waited => trivial

/-- **At every moment of every run a lane of a batch keeps to its text.** -/
theorem Run.seeks (hr : start.Run asked h) (hsound : start.Sound)
    (hblank : Text.blank text = false) (hfresh : start.Freshens (Digest.ofText text) i start)
    (hstart : Seeks (fun v => start.GivesFor (Digest.ofText text) v start)
      (start.Stores (Digest.ofText text) start) text i [] start) :
    start.Freshens (Digest.ofText text) i h ∧
      Seeks (fun v => start.GivesFor (Digest.ofText text) v h)
        (start.Stores (Digest.ofText text) h) text i asked h := by
  induction hr with
  | refl => exact ⟨hfresh, hstart⟩
  | step hr hs ih =>
      obtain ⟨hfresh, hseeks⟩ := ih
      have hsound' := hr.sound hsound
      refine ⟨hs.freshens hsound' hr hfresh, hs.seeks hsound' hblank
        (hseeks.mono (fun _ hg => hg.step hs) fun _ hstores v hv => ?_) hfresh ?_ ?_⟩
      · exact (hstores v hv).step hsound' hs
      · exact fun _ _ _ v hg => (hg rfl).step hs
      · rintro flight reply rfl hland v hv
        exact hland.caches hr hsound' hv

end Hall

end Archivist
