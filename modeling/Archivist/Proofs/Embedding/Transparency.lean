import Archivist.Proofs.Embedding.Balance

/-!
# What Lookups Come To

A provider that answers every text in one way makes of its cache something that cannot be seen. A
`Book` says what the lookups of a key come to. As long as the provider answers as a book says, so do
the entries of the cache and the cells that lookups wait in (`Traffic.Tells`), whatever is
forgotten, purged or dropped in between and however many lookups are under way; and every lookup
comes to what the book says of its text, whoever has filled the cache before it.

## Main results

* `Traffic.Step.tells`: whatever happens, a cache tells what the book says, and what a lookup comes
  to is in the book as well.
* `Traffic.Run.landing`: so it is at every moment of every run.
-/

namespace Archivist

/-! ### What lookups are served with

A lookup that is served without asking the provider gets its value from an entry of the cache or
from the cell that it waits in. `Traffic.Offers` says that all these values are as they should be;
it stays so whatever happens, if what the provider brings is as it should be
(`Traffic.Step.offers`), and so is what a lookup is served with (`Traffic.Offers.landing`).
-/

namespace Flight

variable {now me n : ℕ} {f : Flight} {c c' : Cache}

/-! ### Values of cells -/

/-- What a move makes of the values of cells: a lookup that goes on changes none, and stays in its
cell or enters one without a value; one that leaves fills its cell with what it came to, if at
all. -/
def Move.Fills (f : Flight) (c : Cache) : Move → Prop
  | .wait => True
  | .go phase c' => (∀ m, (c'.cell m).value = (c.cell m).value) ∧
      ∀ m, cell? { f with phase } = some m → f.cell? = some m ∨ (c.cell m).value = none
  | .land result c' => ∀ m v, (c'.cell m).value = some v →
      (c.cell m).value = some v ∨
        (f.cell? = some m ∧ (∀ k, f.phase ≠ .boarding k) ∧ result = .ok v)

/-- With a permit in hand a lookup fills its cell or goes on. -/
theorem Boards.fills {m : Move} (hf : f.cell? = some n) (hphase : ∀ k, f.phase ≠ .boarding k)
    (hb : f.Boards now n c m) : m.Fills f c := by
  cases hb with
  | hit v c₁ hl =>
      obtain ⟨es, ev, rfl⟩ := Cache.exists_of_lookUp hl
      exact fun m w hw => (value_depart hw).imp_right fun ⟨hm, hr⟩ => ⟨hm ▸ hf, hphase, hr⟩
  | ask c₁ hl =>
      obtain ⟨es, ev, rfl⟩ := Cache.exists_of_lookUp hl
      exact ⟨fun _ => rfl, fun m hm => .inl (hf.trans hm)⟩

/-- What a move makes of the cells. -/
theorem Moves.fills {m : Move} (hm : f.Moves now me c m) : m.Fills f c := by
  cases hm with
  | blank => exact fun _ _ h => .inl h
  | hit _ _ v c₁ hl =>
      obtain ⟨es, ev, rfl⟩ := Cache.exists_of_lookUp hl
      exact fun _ _ h => .inl h
  | miss _ _ c₁ hl =>
      obtain ⟨es, ev, rfl⟩ := Cache.exists_of_lookUp hl
      exact ⟨fun _ => rfl, nofun⟩
  | find _ n c₁ ho v hv =>
      intro m w hw
      rw [cell_depart, Cache.cell_openCell ho] at hw
      exact .inl hw
  | enter _ n c₁ ho hv gate | join _ n c₁ ho hv gate =>
      refine ⟨fun m => ?_, fun m hm => .inr ?_⟩
      · rw [Cache.value_updateGate, Cache.cell_openCell ho]
      · cases hm
        rw [← Cache.cell_openCell ho, hv]
  | share n hphase v hv =>
      intro m w hw
      rw [cell_depart] at hw
      exact .inl hw
  | turn n hphase =>
      exact ⟨fun m => Cache.value_updateGate c n m _,
        fun m hm => .inl (by rw [cell?, hphase]; exact hm)⟩
  | queue n hphase => exact ⟨fun _ => rfl, fun m hm => .inl (by rw [cell?, hphase]; exact hm)⟩
  | board n hphase provider _ hb | permit n hphase provider _ hb =>
      exact Boards.fills (c := { c with provider }) (by rw [cell?, hphase]) (by simp [hphase]) hb

/-- So does the answer of the provider. -/
theorem fills_land {reply result : Landing} (hphase : f.phase = .asking n)
    (hl : f.land now n reply c = (result, c')) : Move.Fills f c (.land result c') := by
  obtain ⟨rfl, es, ev, rfl⟩ := exists_of_land hl
  intro m v hv
  refine (value_depart hv).imp_right ?_
  rintro ⟨hm, hv⟩
  exact ⟨by rw [cell?, hphase, hm], by simp [hphase], hv⟩

end Flight

namespace Traffic

/-- Whatever the lookups of `J` that are under way may be served with is as `P` says: the entries of
the cache and the values of the cells that these lookups are in. -/
structure Offers (s : Traffic) (J : ℕ → Prop) (P : String → Option Embedding → Prop) : Prop where
  attends : s.cache.Attends s.fleet
  keeps : s.cache.Keeps fun key e => P key (some e.vector)
  solid : ∀ i f, s.fleet.flight? i = some f → f.IsSolid
  value : ∀ i, J i → ∀ f n v, s.fleet.flight? i = some f → f.cell? = some n →
    (s.cache.cell n).value = some v → P f.key v

variable {s s' : Traffic} {sign : Sign} {limits : CacheLimits} {now places i : ℕ} {f : Flight}
  {c c' : Cache} {result : Landing} {J : ℕ → Prop} {P P' : String → Option Embedding → Prop}

/-- What the provider brings for a text is as `P` says. -/
def Sign.Brings (P : String → Option Embedding → Prop) : Sign → Prop
  | .answered _ text reply _ _ => ∀ v, Flight.outcome reply = .ok v → P (Digest.ofText text) v
  | _ => True

/-- A lookup of a text comes to a value: to nothing if the text is blank, and to one that is as `P`
says if it is not. -/
def ComesTo (P : String → Option Embedding → Prop) (text : String) (result : Landing) : Prop :=
  ∃ v, result = .ok v ∧ if Text.blank text then v = none else P (Digest.ofText text) v

/-- A lookup of a text that is not blank comes to what is known of its digest. -/
theorem comesTo_of_solid {v : Option Embedding} {text : String} (hblank : Text.blank text = false)
    (hv : P (Digest.ofText text) v) : ComesTo P text (.ok v) :=
  ⟨v, rfl, by rwa [if_neg (Bool.eq_false_iff.1 hblank)]⟩

namespace Offers

theorem mono (h : s.Offers J P) (hP : ∀ k v, P k v → P' k v) : s.Offers J P' where
  attends := h.attends
  keeps := h.keeps.mono fun k _ => hP k _
  solid := h.solid
  value i hJ f n v hi hf hv := hP _ _ (h.value i hJ f n v hi hf hv)

/-- Where nobody is under way, a cache offers what it holds. -/
theorem of_idle (ha : s.cache.Attends s.fleet)
    (hk : s.cache.Keeps fun key e => P key (some e.vector)) (hidle : s.fleet.Idle) :
    s.Offers J P := by
  refine ⟨ha, hk, fun i f hi => ?_, fun i _ f n v hi => ?_⟩ <;>
  · rw [hidle i] at hi
    cases hi

/-- A place for a lookup is added. -/
theorem append_none (h : s.Offers J P) :
    Traffic.Offers { s with fleet := s.fleet ++ [none] } J P where
  attends := h.attends.append_none
  keeps := h.keeps
  solid := fun i f hi => h.solid i f (by rwa [Fleet.flight?_append_none] at hi)
  value := fun i hJ f n v hi => h.value i hJ f n v (by rwa [Fleet.flight?_append_none] at hi)

/-- What is found in the cache is as it should be. -/
theorem of_lookUp {v : Embedding} {key : String} (h : s.Offers J P)
    (hentries : c.entries = s.cache.entries) (hl : c.lookUp now key = (some v, c')) :
    P key (some v) := by
  obtain ⟨e, he, rfl, -, -⟩ := Cache.exists_of_lookUp_some hl
  exact h.keeps.entry key e (hentries ▸ he)

/-- A lookup that is past its first look is of a text that is not blank. -/
theorem comesTo (h : s.Offers J P) (hi : s.fleet.flight? i = some f) (hphase : f.phase ≠ .arriving)
    {v : Option Embedding} (hv : P f.key v) : ComesTo P f.text (.ok v) :=
  comesTo_of_solid ((h.solid i f hi).resolve_left hphase) (h.attends.key_eq hi ▸ hv)

/-- **A lookup is served with what is as it should be.** -/
theorem landing {m : Flight.Move} (h : s.Offers J P) (hJ : ∀ n, f.phase = .boarding n → J i)
    (hi : s.fleet.flight? i = some f) (hm : f.Moves s.now i s.cache m)
    (hland : m = .land result c') :
    ComesTo P f.text result := by
  have hboards : ∀ {n provider}, f.phase ≠ .arriving →
      f.Boards s.now n { s.cache with provider } m → ComesTo P f.text result := by
    intro n provider hphase hb
    cases hb with
    | hit v c₁ hl =>
        cases hland
        exact h.comesTo hi hphase (h.of_lookUp (c := { s.cache with provider }) rfl hl)
    | ask => cases hland
  cases hm with
  | blank _ hblank =>
      cases hland
      exact ⟨none, rfl, by rw [if_pos hblank]⟩
  | hit _ hblank v c₁ hl =>
      cases hland
      exact comesTo_of_solid hblank (h.attends.key_eq hi ▸ h.of_lookUp rfl hl)
  | find hphase n c₁ ho v hv =>
      -- The cell of a lookup that has only just missed is open, so it has no value.
      obtain ⟨hc, hmem⟩ := h.attends.openCell ho
      rw [(hc.of_mem_pending hmem).2] at hv
      cases hv
  | share n hphase v hv =>
      cases hland
      exact h.comesTo hi (by simp [hphase])
        (h.value i (hJ n hphase) f n v hi (by rw [Flight.cell?, hphase]) hv)
  | board n hphase provider _ hb | permit n hphase provider _ hb =>
      exact hboards (by simp [hphase]) hb
  | miss | enter | join | turn | queue => cases hland

/-- A lookup that begins is in no cell. -/
theorem value_began (h : s.Offers J P) (hi : s.fleet[i]? = some none) (text : String) (j : ℕ)
    (hJ : J j) (g : Flight) (n : ℕ) (v : Option Embedding)
    (hj : Fleet.flight? (s.fleet.set i (some (Flight.start text))) j = some g)
    (hg : g.cell? = some n) (hv : (s.cache.cell n).value = some v) : P g.key v := by
  rw [Fleet.flight?_set hi] at hj
  split at hj
  · cases hj
    cases hg
  · exact h.value j hJ g n v hj hg hv

/-- The lookups that a batch begins are in no cell. -/
theorem value_batched {slots : List BatchSlot} {texts : List String} (h : s.Offers J P)
    (hl : Batch.lookUp s.now s.cache texts = (slots, c)) (j : ℕ) (hJ : J j) (g : Flight) (n : ℕ)
    (v : Option Embedding) (hj : Fleet.flight? (s.fleet ++ batchFleet slots) j = some g)
    (hg : g.cell? = some n) (hv : (c.cell n).value = some v) : P g.key v := by
  obtain ⟨started, entries, evictions, hits, rfl⟩ := Batch.exists_of_lookUp hl
  rw [Fleet.flight?_append] at hj
  split at hj
  · exact h.value j hJ g n v hj hg hv
  · obtain ⟨text, -, hf⟩ := List.mem_map.1 (Fleet.mem_of_flight? hj)
    cases hf
    cases hg

/-- A lookup that is dropped fills no cell. -/
theorem value_dropped (h : s.Offers J P) (hi : s.fleet.flight? i = some f) (j : ℕ) (hJ : J j)
    (g : Flight) (n : ℕ) (v : Option Embedding)
    (hj : Fleet.flight? (s.fleet.set i none) j = some g) (hg : g.cell? = some n)
    (hv : ((f.abandon i s.cache).cell n).value = some v) : P g.key v := by
  rw [Fleet.flight?_set (Fleet.getElem?_of_flight? hi)] at hj
  split at hj
  · cases hj
  · rw [Flight.value_abandon] at hv
    exact h.value j hJ g n v hj hg hv

/-- A lookup that goes on. -/
theorem value_go {phase : Phase} (h : s.Offers J P) (hi : s.fleet.flight? i = some f)
    (hm : Flight.Move.Fills f s.cache (.go phase c')) (j : ℕ) (hJ : J j) (g : Flight) (n : ℕ)
    (v : Option Embedding) (hj : Fleet.flight? (s.fleet.set i (some { f with phase })) j = some g)
    (hg : g.cell? = some n) (hv : (c'.cell n).value = some v) : P g.key v := by
  rw [hm.1] at hv
  rw [Fleet.flight?_set (Fleet.getElem?_of_flight? hi)] at hj
  split at hj
  · rename_i hij
    cases hj
    rcases hm.2 n hg with hf | hnone
    · exact h.value i (hij ▸ hJ) f n v hi hf hv
    · rw [hnone] at hv
      cases hv
  · exact h.value j hJ g n v hj hg hv

/-- A lookup that leaves with what is as it should be. -/
theorem value_land (h : s.Offers J P) (hi : s.fleet.flight? i = some f)
    (hm : Flight.Move.Fills f s.cache (.land result c'))
    (hP : ∀ n v, f.cell? = some n → (∀ k, f.phase ≠ .boarding k) → result = .ok v → P f.key v)
    (j : ℕ) (hJ : J j) (g : Flight) (n : ℕ) (v : Option Embedding)
    (hj : Fleet.flight? (s.fleet.set i none) j = some g)
    (hg : g.cell? = some n) (hv : (c'.cell n).value = some v) : P g.key v := by
  rw [Fleet.flight?_set (Fleet.getElem?_of_flight? hi)] at hj
  split at hj
  · cases hj
  · rcases hm n v hv with hv | ⟨hf, hphase, hresult⟩
    · exact h.value j hJ g n v hj hg hv
    · rw [← h.attends.key_eq_of_cell hi hj hf hg]
      exact hP n v hf hphase hresult

/-- A lookup that is served leaves with what it is served with. -/
theorem value_served (h : s.Offers J P) (hi : s.fleet.flight? i = some f)
    (hm : f.step s.now i s.cache = .land result c') (n : ℕ) (v : Option Embedding)
    (hf : f.cell? = some n) (hboarding : ∀ k, f.phase ≠ .boarding k) (hv : result = .ok v) :
    P f.key v := by
  have hmoves := Flight.moves_of_step hm nofun
  obtain ⟨v', hv', hP⟩ := h.landing (fun k hk => absurd hk (hboarding k)) hi hmoves rfl
  have hphase : f.phase ≠ .arriving := fun hp => by simp [Flight.cell?, hp] at hf
  rw [(h.solid i f hi).resolve_left hphase, if_neg Bool.false_ne_true, ← h.attends.key_eq hi] at hP
  cases hv'.symm.trans hv
  exact hP

end Offers

/-- **Whatever happens, lookups may be served with what is as it should be**, if the provider brings
nothing else. -/
theorem Step.offers (hs : s.Step sign s') (h : s.Offers J P) (hP : sign.Brings P) :
    s'.Offers J P where
  attends := hs.attends h.attends
  keeps := hs.keeps h.attends h.keeps (fun _ _ => id) fun i text v result company hsign hv => by
    subst hsign
    exact hP _ (congrArg Except.ok (Option.filter_eq_some_iff.2 ⟨rfl, by simpa using hv⟩))
  solid := hs.solid h.solid
  value := by
    cases hs with
    | began text hi => exact h.value_began hi text
    | batched hl => exact h.value_batched hl
    | moved hi hm => exact h.value_go hi (Flight.moves_of_step hm nofun).fills
    | served hi hm =>
        exact h.value_land hi (Flight.moves_of_step hm nofun).fills (h.value_served hi hm)
    | answered reply hi hphase hl =>
        obtain ⟨hresult, -⟩ := Flight.exists_of_land hl
        refine h.value_land hi (Flight.fills_land hphase hl) fun _ v _ _ hv => ?_
        rw [h.attends.key_eq hi]
        exact hP v (hresult.symm.trans hv)
    | dropped hi => exact h.value_dropped hi
    | purged | invalidated | waited => exact h.value

end Traffic

/-! ### Books -/

/-- What the lookups of a key come to; nothing if the provider breaks down over it. -/
abbrev Book : Type := String → Option Landing

namespace Book

/-- What a lookup of a text comes to. -/
def landing? (b : Book) (text : String) : Option Landing :=
  if Text.blank text then some (.ok none) else b (Digest.ofText text)

/-- A lookup of a blank text comes to nothing. -/
theorem landing?_of_blank {b : Book} {text : String} (h : Text.blank text = true) :
    b.landing? text = some (.ok none) := if_pos h

/-- A lookup of any other text comes to what the book has for its digest. -/
theorem landing?_of_solid {b : Book} {text : String} (h : Text.blank text = false) :
    b.landing? text = b (Digest.ofText text) := by
  rw [landing?, h, if_neg (by decide)]

/-- What texts come to can be put in a book, if no two of them have one digest. -/
theorem exists_of_injOn {texts : Set String} (hinj : Set.InjOn Digest.ofText texts)
    (landing : String → Option Landing) :
    ∃ b : Book, ∀ text ∈ texts, b (Digest.ofText text) = landing text :=
  ⟨fun key => landing (Function.invFunOn Digest.ofText texts key), fun _ htext =>
    congrArg landing (hinj.leftInvOn_invFunOn htext)⟩

end Book

namespace Traffic

/-- What a book says of lookups under way: the entries of the cache are in it, and so are the values
of the cells that lookups are in. -/
structure Tells (s : Traffic) (b : Book) : Prop where
  attends : s.cache.Attends s.fleet
  keeps : s.cache.Keeps fun key e => b key = some (.ok (some e.vector))
  solid : ∀ i f, s.fleet.flight? i = some f → f.IsSolid
  value : ∀ i f n v, s.fleet.flight? i = some f → f.cell? = some n →
    (s.cache.cell n).value = some v → b f.key = some (.ok v)

variable {s s' : Traffic} {sign : Sign} {trace : List (ℕ × Sign)} {limits : CacheLimits}
  {now places i n : ℕ} {f : Flight} {c c' : Cache} {result : Landing} {b : Book}

/-- What a lookup comes to that has its outcome. -/
def Sign.landing? : Sign → Option (String × Landing)
  | .served _ text result | .answered _ text _ result _ => some (text, result)
  | _ => none

/-- The provider answers as the book says. -/
def Sign.Agrees (b : Book) : Sign → Prop
  | .answered _ text reply _ _ => b (Digest.ofText text) = some (Flight.outcome reply)
  | _ => True

namespace Tells

/-- What the book says of a lookup that is past its first look. -/
theorem landing?_eq (h : s.Tells b) (hi : s.fleet.flight? i = some f)
    (hphase : f.phase ≠ .arriving) : b.landing? f.text = b f.key := by
  rw [Book.landing?_of_solid ((h.solid i f hi).resolve_left hphase), h.attends.key_eq hi]

/-- A cache that tells what a book says offers nothing else. -/
theorem offers (h : s.Tells b) : s.Offers (fun _ => True) fun key v => b key = some (.ok v) :=
  ⟨h.attends, h.keeps, h.solid, fun i _ => h.value i⟩

end Tells

/-- A cache that offers what is in the book tells what is in it. -/
theorem Offers.tells (h : s.Offers (fun _ => True) fun key v => b key = some (.ok v)) :
    s.Tells b := ⟨h.attends, h.keeps, h.solid, fun i => h.value i trivial⟩

/-- **Whatever happens, a cache tells what the book says**, if the provider does. -/
theorem Step.tells (hs : s.Step sign s') (h : s.Tells b) (hb : sign.Agrees b) : s'.Tells b := by
  refine (hs.offers h.offers ?_).tells
  cases sign with
  | answered i text reply result company =>
      exact fun v hv => (hb : b _ = some (Flight.outcome reply)).trans (congrArg some hv)
  | began | batched | moved | served | dropped | purged | invalidated | waited => trivial

/-- **What a lookup comes to is in the book.** -/
theorem Step.landing (hs : s.Step sign s') (h : s.Tells b) (hb : sign.Agrees b) {text : String}
    (hl : sign.landing? = some (text, result)) : b.landing? text = some result := by
  cases hs with
  | served hi hm =>
      cases hl
      have hcomes := h.offers.landing (fun _ _ => trivial) hi (Flight.moves_of_step hm nofun) rfl
      obtain ⟨v, rfl, hv⟩ := hcomes
      split at hv
      · rename_i hblank
        rw [Book.landing?_of_blank hblank, hv]
      · rename_i hblank
        rw [Book.landing?_of_solid (Bool.eq_false_iff.2 hblank), hv]
  | answered reply hi hphase hland =>
      cases hl
      obtain ⟨rfl, -⟩ := Flight.exists_of_land hland
      rw [h.landing?_eq hi (by simp [hphase]), h.attends.key_eq hi]
      exact hb
  | began | batched | moved | dropped | purged | invalidated | waited => cases hl

/-- A cache that has not been used tells whatever is in the book. -/
theorem tells_fresh (limits : CacheLimits) (now places : ℕ) (b : Book) :
    (fresh limits now places).Tells b := by
  have hidle := idle_fresh limits now places
  refine ⟨attends_replicate (Cache.attends_fresh limits) places, .fresh limits _,
    fun i f hi => ?_, fun i f n v hi => ?_⟩ <;>
  · rw [hidle i] at hi
    cases hi

/-- **Every lookup of every run comes to what the book says**, if the provider always answers so. -/
theorem Run.landing (hr : (fresh limits now places).Run trace s)
    (hb : ∀ p ∈ trace, p.2.Agrees b) : s.Tells b ∧ ∀ p ∈ trace, ∀ text result,
      p.2.landing? = some (text, result) → b.landing? text = some result := by
  induction hr with
  | refl => exact ⟨tells_fresh limits now places b, List.forall_mem_nil _⟩
  | step _ hs ih =>
      obtain ⟨htells, hlanding⟩ := ih fun p hp => hb p (List.mem_cons_of_mem _ hp)
      have hagrees := hb _ List.mem_cons_self
      refine ⟨hs.tells htells hagrees, List.forall_mem_cons.2 ⟨fun text result hl => ?_, hlanding⟩⟩
      exact hs.landing htells hagrees hl

end Traffic

end Archivist
