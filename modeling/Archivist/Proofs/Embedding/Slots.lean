import Archivist.Proofs.Embedding.Entries
import Archivist.Proofs.Order.Stable

/-!
# Slots of a Batch

A batch routes what it comes to by slots. Its first look leaves one slot for each text
(`Batch.lookUp_fst`): what is known of the text, or the text itself if it has to be fetched. Each
text that has to be fetched is fetched once, in the order in which the texts occur first, and what
the lookups come to is put into the slots again (`Batch.conclude`).

This module is about the routing alone, whatever the endings of the lookups are: a batch that
succeeds has for each text what was known of it, or the ending of its own lookup
(`Batch.routes_of_conclude`), and one that fails has the failure of the first text whose lookup has
failed (`Batch.exists_of_conclude_error`).
-/

namespace Archivist

namespace Cache

variable {c c' : Cache} {now : ℕ} {k key : String}

/-- The vector of a key that has a good entry. -/
def known? (c : Cache) (now : ℕ) (key : String) : Option Embedding := (c.lookUp now key).1

/-- What is known of a key is the vector of its entry, if that is good. -/
theorem known?_eq (c : Cache) (now : ℕ) (key : String) : c.known? now key =
    (c.find? key).bind fun e => if c.isExpired now e then none else some e.vector := by
  rw [known?, lookUp]
  simp only [find?]
  cases (c.entries.find? (·.1 = key)).map (·.2) with
  | none => rfl
  | some e => exact apply_ite Prod.fst _ _ _

/-- Only entries and limits matter. -/
theorem known?_congr (hlimits : c'.limits = c.limits) (hfind : c'.find? key = c.find? key) :
    c'.known? now key = c.known? now key := by
  have hexpired : ∀ e, c'.isExpired now e = c.isExpired now e := fun e => by
    rw [isExpired, isExpired, hlimits]
  simp only [known?_eq, hfind, hexpired]

/-- Counting makes nothing known. -/
theorem known?_countHit (c : Cache) (now : ℕ) (key : String) :
    c.countHit.known? now key = c.known? now key := known?_congr rfl rfl

/-- **What is known stays known when another key is looked up**, and when the same is. -/
theorem known?_of_lookUp {o : Option Embedding} (h : c.lookUp now k = (o, c')) (key : String) :
    c'.known? now key = c.known? now key := by
  have hlimits : c'.limits = c.limits := by
    obtain ⟨es, ev, rfl⟩ := exists_of_lookUp h
    rfl
  by_cases hkey : key = k
  · subst hkey
    -- What was found is in front now, and what was not is not there.
    cases o with
    | none =>
        have hfind : c'.find? key = none := by
          rw [find?, entries_of_lookUp_none h, others, List.find?_filter]
          simp
        rw [known?_eq, hfind, known?, h]
        rfl
    | some v =>
        obtain ⟨e, he, rfl, hgood, hentries⟩ := exists_of_lookUp_some h
        have hfind : c'.find? key = some e := by simp [find?, hentries]
        have hexpired : c'.isExpired now e = false := by simpa [isExpired, hlimits] using hgood
        rw [known?_eq, hfind, Option.bind_some, hexpired, known?, h]
        rfl
  · have hothers : (c.others k).find? (·.1 = key) = c.entries.find? (·.1 = key) := by
      rw [others, List.find?_filter]
      congr 1
      funext p
      by_cases hp : p.1 = key <;> simp [hp, hkey]
    refine known?_congr hlimits ?_
    cases o with
    | none => rw [find?, entries_of_lookUp_none h, hothers, find?]
    | some v =>
        obtain ⟨e, -, -, -, hentries⟩ := exists_of_lookUp_some h
        rw [find?, hentries, List.find?_cons_of_neg (by simpa using Ne.symm hkey), hothers, find?]

/-- Looking up a key makes no entry for another one. -/
theorem notMem_of_lookUp {o : Option Embedding} (h : c.lookUp now k = (o, c'))
    (hkey : key ∉ c.entries.map (·.1)) : key ∉ c'.entries.map (·.1) := by
  have hothers : key ∉ (c.others k).map (·.1) := fun hmem =>
    hkey (((c.others_sublist k).map _).subset hmem)
  cases o with
  | none => rwa [entries_of_lookUp_none h]
  | some v =>
      obtain ⟨e, he, -, -, hentries⟩ := exists_of_lookUp_some h
      rw [hentries, List.map_cons, List.mem_cons, not_or]
      exact ⟨fun heq => hkey (heq ▸ List.mem_map_of_mem he), hothers⟩

end Cache

namespace Batch

variable {now : ℕ} {c c' : Cache} {texts : List String} {slots : List BatchSlot} {text : String}
  {endings : List (Ending (Option Embedding))}

/-! ### The first look -/

/-- What the first look of a batch leaves for a text. -/
def slot (now : ℕ) (c : Cache) (text : String) : BatchSlot :=
  if Text.blank text then .settled none
  else match c.known? now (Digest.ofText text) with
    | some v => .settled (some v)
    | none => .open text

/-- A text has to be fetched. -/
def IsMissing (now : ℕ) (c : Cache) (text : String) : Prop :=
  Text.blank text = false ∧ c.known? now (Digest.ofText text) = none

/-- A blank text is settled without a vector. -/
theorem slot_of_blank (h : Text.blank text = true) : slot now c text = .settled none := if_pos h

/-- A text that is known is settled with its vector. -/
theorem slot_of_known {v : Embedding} (h : Text.blank text = false)
    (hv : c.known? now (Digest.ofText text) = some v) : slot now c text = .settled (some v) := by
  rw [slot, if_neg (Bool.eq_false_iff.1 h), hv]

/-- A text that is missing leaves its slot open. -/
theorem slot_of_isMissing (h : IsMissing now c text) : slot now c text = .open text := by
  rw [slot, if_neg (Bool.eq_false_iff.1 h.1), h.2]

/-- The open slots are those of missing texts. -/
theorem slot_eq_open_iff {t : String} :
    slot now c t = .open text ↔ t = text ∧ IsMissing now c text := by
  refine ⟨fun h => ?_, fun ⟨ht, h⟩ => ht ▸ slot_of_isMissing (ht ▸ h)⟩
  rw [slot] at h
  split at h
  · cases h
  · rename_i hblank
    split at h
    · cases h
    · rename_i hnone
      cases h
      exact ⟨rfl, Bool.eq_false_iff.2 hblank, hnone⟩

/-- Slots depend on what is known alone. -/
theorem slot_congr (h : ∀ key, c'.known? now key = c.known? now key) :
    slot now c' = slot now c := by
  funext text
  rw [slot, slot, h]

/-- **The first look leaves one slot for each text**, the same for a text wherever it stands. -/
theorem lookUp_fst (now : ℕ) (c : Cache) (texts : List String) :
    (lookUp now c texts).1 = texts.map (slot now c) := by
  induction texts generalizing c with
  | nil => rfl
  | cons text rest ih =>
      rw [lookUp, List.map_cons]
      split
      · rename_i hblank
        rw [slot_of_blank hblank, ← ih c]
      · rename_i hblank
        have hsolid := Bool.eq_false_iff.2 hblank
        rcases hl : c.lookUp now (Digest.ofText text) with ⟨_ | v, c₁⟩
        · have hmissing : IsMissing now c text := ⟨hsolid, by rw [Cache.known?, hl]⟩
          rw [slot_of_isMissing hmissing, ← slot_congr (Cache.known?_of_lookUp hl), ← ih c₁]
        · have hknown : ∀ key, c₁.countHit.known? now key = c.known? now key := fun key =>
            (c₁.known?_countHit now key).trans (Cache.known?_of_lookUp hl key)
          rw [slot_of_known hsolid (by rw [Cache.known?, hl]), ← slot_congr hknown,
            ← ih c₁.countHit]

/-! ### Texts that have to be fetched -/

/-- The first look makes no entries. -/
theorem notMem_lookUp {key : String} (texts : List String) (hkey : key ∉ c.entries.map (·.1)) :
    key ∉ (lookUp now c texts).2.entries.map (·.1) :=
  lookUp_induct (I := fun c => key ∉ c.entries.map (·.1))
    (fun hkey hl => Cache.notMem_of_lookUp hl hkey) id rfl hkey

/-- After the first look there is no entry for a text that has to be fetched. -/
theorem digest_notMem_lookUp (htext : text ∈ texts) (hmissing : IsMissing now c text) :
    Digest.ofText text ∉ (lookUp now c texts).2.entries.map (·.1) := by
  induction texts generalizing c with
  | nil => cases htext
  | cons t rest ih =>
      rw [lookUp]
      split
      · rename_i hblank
        have hne : text ≠ t := by
          rintro rfl
          rw [hmissing.1] at hblank
          cases hblank
        exact ih ((List.mem_cons.1 htext).resolve_left hne) hmissing
      · rcases hl : c.lookUp now (Digest.ofText t) with ⟨_ | v, c₁⟩
        all_goals
          have hmissing' : IsMissing now c₁ text :=
            ⟨hmissing.1, (Cache.known?_of_lookUp hl _).trans hmissing.2⟩
        · by_cases ht : text = t
          · subst ht
            refine notMem_lookUp rest ?_
            rw [Cache.entries_of_lookUp_none hl]
            exact c.not_mem_others _
          · exact ih ((List.mem_cons.1 htext).resolve_left ht) hmissing'
        · have hne : text ≠ t := by
            rintro rfl
            rw [IsMissing, Cache.known?, hl] at hmissing
            cases hmissing.2
          exact ih ((List.mem_cons.1 htext).resolve_left hne)
            ⟨hmissing.1, (c₁.known?_countHit now _).trans hmissing'.2⟩

/-- The texts that are sent on are missing. -/
theorem isMissing_of_mem_openTexts (htext : text ∈ openTexts (texts.map (slot now c))) :
    text ∈ texts ∧ IsMissing now c text := by
  obtain ⟨s, hs, htext⟩ := List.mem_filterMap.1 (mem_of_mem_firstOfEach htext)
  obtain ⟨t, ht, rfl⟩ := List.mem_map.1 hs
  cases hopen : slot now c t with
  | settled v =>
      rw [hopen] at htext
      cases htext
  | «open» u =>
      rw [hopen] at htext
      cases htext
      obtain ⟨rfl, hmissing⟩ := slot_eq_open_iff.1 hopen
      exact ⟨ht, hmissing⟩

/-- No two texts that are sent on have one digest. -/
theorem nodup_openTexts (slots : List BatchSlot) :
    ((openTexts slots).map Digest.ofText).Nodup := nodup_map_firstOfEach _ _ _

/-- Each text that has to be fetched is, or one of its digest. -/
theorem exists_mem_openTexts (hslot : .open text ∈ slots) :
    ∃ t ∈ openTexts slots, Digest.ofText t = Digest.ofText text :=
  exists_mem_firstOfEach (List.mem_filterMap.2 ⟨_, hslot, rfl⟩) List.not_mem_nil

/-- Texts are fetched in the order in which they occur first. -/
theorem exists_of_openTexts_eq_append {before after : List String}
    (h : openTexts (texts.map (slot now c)) = before ++ text :: after) :
    ∃ earlier later, texts = earlier ++ text :: later ∧ IsMissing now c text ∧
      ∀ t ∈ earlier, IsMissing now c t → ∃ u ∈ before, Digest.ofText u = Digest.ofText t := by
  obtain ⟨us, vs, heq, hus⟩ := exists_of_firstOfEach_eq_append h
  rw [List.filterMap_map] at heq
  obtain ⟨earlier, rest, rfl, rfl, hrest⟩ := List.filterMap_eq_append_iff.1 heq
  obtain ⟨skipped, t, later, rfl, hskipped, ht, rfl⟩ := List.filterMap_eq_cons_iff.1 hrest
  have hopen : slot now c t = .open text := by
    cases hs : slot now c t with
    | settled v =>
        rw [Function.comp_apply, hs] at ht
        cases ht
    | «open» u =>
        rw [Function.comp_apply, hs] at ht
        cases ht
        rfl
  obtain ⟨rfl, hmissing⟩ := slot_eq_open_iff.1 hopen
  refine ⟨earlier ++ skipped, later, by rw [List.append_assoc], hmissing, fun u hu hmissing => ?_⟩
  have hu' : (slotText? ∘ slot now c) u = some u := by
    rw [Function.comp_apply, slot_of_isMissing hmissing]
    rfl
  rcases List.mem_append.1 hu with hu | hu
  · exact List.mem_map.1 ((hus u (List.mem_filterMap.2 ⟨u, hu, hu'⟩)).resolve_left List.not_mem_nil)
  · rw [hskipped u hu] at hu'
    cases hu'

/-! ### The endings of the lookups -/

/-- What a batch comes to whose lookups have these endings, in the order of their texts. -/
def conclude (slots : List BatchSlot) (endings : List (Ending (Option Embedding))) :
    Ending (List (Option Embedding)) :=
  match gather ((openTexts slots).zip endings) with
  | .value (.ok fetched) => .value (.ok (slots.map (fill fetched)))
  | .value (.error e) => .value (.error e)
  | .late => .late
  | .crashed => .crashed

/-- A lookup that has ended with a vector, or without one. -/
def succeeded (p : String × Option Embedding) : String × Ending (Option Embedding) :=
  (p.1, .value (.ok p.2))

/-- Outcomes that are gathered are outcomes that all lookups have. -/
theorem eq_of_gather_ok {pairs : List (String × Ending (Option Embedding))}
    {fetched : List (String × Option Embedding)} (h : gather pairs = .value (.ok fetched)) :
    pairs = fetched.map succeeded := by
  induction pairs generalizing fetched with
  | nil =>
      cases h
      rfl
  | cons pair rest ih =>
      obtain ⟨text, (e | v) | _ | _⟩ := pair <;> rw [gather] at h
      · cases h
      · split at h
        · rename_i fetched' hrest
          cases h
          rw [ih hrest, List.map_cons, succeeded]
        · rename_i hrest
          exact absurd h (hrest _)
      · cases h
      · cases h

/-- The failure of a batch is the first of all its lookups. -/
theorem exists_of_gather_error {pairs : List (String × Ending (Option Embedding))} {e : Failure}
    (h : gather pairs = .value (.error e)) :
    ∃ (fetched : List (String × Option Embedding)) (text : String)
      (rest : List (String × Ending (Option Embedding))),
      pairs = fetched.map succeeded ++ (text, .value (.error e)) :: rest := by
  induction pairs with
  | nil => cases h
  | cons pair rest ih =>
      obtain ⟨text, (e' | v) | _ | _⟩ := pair <;> rw [gather] at h
      · cases h
        exact ⟨[], text, rest, rfl⟩
      · split at h
        · cases h
        · obtain ⟨fetched, text', rest', hrest⟩ := ih h
          exact ⟨(text, v) :: fetched, text', rest', by rw [hrest]; rfl⟩
      · cases h
      · cases h

/-- A batch breaks down with one of its lookups, and is late with one of them. -/
theorem exists_of_gather_eq (pairs : List (String × Ending (Option Embedding))) :
    (gather pairs = .crashed → ∃ text, (text, .crashed) ∈ pairs) ∧
      (gather pairs = .late → ∃ text, (text, .late) ∈ pairs) := by
  induction pairs with
  | nil => simp [gather]
  | cons pair rest ih =>
      have hlater : ∀ {e : Ending (Option Embedding)}, (∃ text, (text, e) ∈ rest) →
          ∃ text, (text, e) ∈ pair :: rest := by
        rintro e ⟨text, hmem⟩
        exact ⟨text, List.mem_cons_of_mem _ hmem⟩
      obtain ⟨text, (e | v) | _ | _⟩ := pair <;> rw [gather]
      · simp
      · split
        · simp
        · exact ⟨fun h => hlater (ih.1 h), fun h => hlater (ih.2 h)⟩
      · simp
      · simp

/-- The vector that was fetched for the text of a slot. -/
theorem fill_open {fetched : List (String × Option Embedding)} {t : String} {v : Option Embedding}
    (hnodup : (fetched.map fun p => Digest.ofText p.1).Nodup) (hmem : (t, v) ∈ fetched)
    (ht : Digest.ofText t = Digest.ofText text) : fill fetched (.open text) = v := by
  induction fetched with
  | nil => cases hmem
  | cons p rest ih =>
      obtain ⟨u, x⟩ := p
      rw [List.map_cons, List.nodup_cons] at hnodup
      rcases List.mem_cons.1 hmem with heq | hmem
      · cases heq
        simp [fill, ht]
      · have hne : Digest.ofText u ≠ Digest.ofText text := fun heq =>
          hnodup.1 (List.mem_map.2 ⟨_, hmem, ht.trans heq.symm⟩)
        rw [← ih hnodup.2 hmem, fill, fill, List.find?_cons_of_neg (by simpa using hne)]

/-- Where the vector of a text comes from: a blank text has none, one that is known has what is
known of it, and any other has what the lookup for its digest has ended with. -/
inductive Routes (now : ℕ) (c : Cache) (opened : List String)
    (endings : List (Ending (Option Embedding))) (text : String) : Option Embedding → Prop where
  | blank (hblank : Text.blank text = true) : Routes now c opened endings text none
  | known (v : Embedding) (hblank : Text.blank text = false)
      (hv : c.known? now (Digest.ofText text) = some v) :
      Routes now c opened endings text (some v)
  | fetched (n : ℕ) (t : String) (v : Option Embedding) (hmissing : IsMissing now c text)
      (ht : opened[n]? = some t) (hdigest : Digest.ofText t = Digest.ofText text)
      (hv : endings[n]? = some (.value (.ok v))) : Routes now c opened endings text v

/-- A text is blank, known or missing. -/
theorem blank_or_known_or_isMissing (now : ℕ) (c : Cache) (text : String) :
    Text.blank text = true ∨
      (∃ v, Text.blank text = false ∧ c.known? now (Digest.ofText text) = some v) ∨
      IsMissing now c text := by
  cases hblank : Text.blank text with
  | true => exact .inl rfl
  | false =>
      cases hknown : c.known? now (Digest.ofText text) with
      | some v => exact .inr (.inl ⟨v, rfl, rfl⟩)
      | none => exact .inr (.inr ⟨hblank, hknown⟩)

section Conclude

variable {opened : List String} {pairs : List (String × Ending (Option Embedding))}

/-- Lookups that have all succeeded, or that stand before the first failure. -/
theorem getElem?_of_mem_fetched {fetched : List (String × Option Embedding)} {t : String}
    {v : Option Embedding} (hmem : (t, v) ∈ fetched)
    (heq : opened.zip endings = fetched.map succeeded ++ pairs) :
    ∃ n : ℕ, opened[n]? = some t ∧ endings[n]? = some (.value (.ok v)) := by
  obtain ⟨n, hn⟩ := List.mem_iff_getElem?.1 hmem
  have hlt : n < (fetched.map succeeded).length := by
    rw [List.length_map]
    exact (List.getElem?_eq_some_iff.1 hn).1
  have hzip : (opened.zip endings)[n]? = some (succeeded (t, v)) := by
    rw [heq, List.getElem?_append_left hlt, List.getElem?_map, hn, Option.map_some]
  exact ⟨n, List.getElem?_zip_eq_some.1 hzip⟩

end Conclude

/-- If a batch breaks down or is late, so does or is one of its lookups. -/
theorem exists_of_conclude_eq (slots : List BatchSlot)
    (endings : List (Ending (Option Embedding))) :
    (conclude slots endings = .crashed → ∃ (n : ℕ) (text : String),
        (openTexts slots)[n]? = some text ∧ endings[n]? = some .crashed) ∧
      (conclude slots endings = .late → .late ∈ endings) := by
  obtain ⟨hcrashed, hlate⟩ := exists_of_gather_eq ((openTexts slots).zip endings)
  rw [conclude]
  split
  · simp
  · simp
  · rename_i hgather
    obtain ⟨text, hmem⟩ := hlate hgather
    simpa using (List.of_mem_zip hmem).2
  · rename_i hgather
    obtain ⟨text, hmem⟩ := hcrashed hgather
    obtain ⟨n, hn⟩ := List.mem_iff_getElem?.1 hmem
    refine ⟨fun _ => ⟨n, text, List.getElem?_zip_eq_some.1 hn⟩, ?_⟩
    rintro ⟨⟩

section Outcome

variable (hlength : endings.length = (openTexts (texts.map (slot now c))).length)

include hlength

/-- **A batch that succeeds has a vector for each text**, at the place of the text. -/
theorem routes_of_conclude {vs : List (Option Embedding)}
    (h : conclude (texts.map (slot now c)) endings = .value (.ok vs)) :
    vs.length = texts.length ∧ ∀ (i : ℕ) text v, texts[i]? = some text → vs[i]? = some v →
      Routes now c (openTexts (texts.map (slot now c))) endings text v := by
  rw [conclude] at h
  split at h
  · rename_i fetched hgather
    cases h
    have hpairs := eq_of_gather_ok hgather
    have hopened : openTexts (texts.map (slot now c)) = fetched.map (·.1) := by
      rw [← List.map_fst_zip (Nat.le_of_eq hlength.symm), hpairs, List.map_map]
      rfl
    have hnodup : (fetched.map fun p => Digest.ofText p.1).Nodup := by
      have hnodup := nodup_openTexts (texts.map (slot now c))
      rwa [hopened, List.map_map] at hnodup
    refine ⟨by simp, fun i text v htext hv => ?_⟩
    rw [List.map_map, List.getElem?_map, htext] at hv
    cases hv
    rw [Function.comp_apply]
    rcases blank_or_known_or_isMissing now c text with hblank | ⟨v, hblank, hv⟩ | hmissing
    · rw [slot_of_blank hblank]
      exact .blank hblank
    · rw [slot_of_known hblank hv]
      exact .known v hblank hv
    · rw [slot_of_isMissing hmissing]
      have hslot : .open text ∈ texts.map (slot now c) :=
        List.mem_map.2 ⟨text, List.mem_of_getElem? htext, slot_of_isMissing hmissing⟩
      obtain ⟨t, ht, hdigest⟩ := exists_mem_openTexts hslot
      obtain ⟨⟨t, v⟩, hmem, rfl⟩ := List.mem_map.1 (hopened ▸ ht)
      rw [fill_open hnodup hmem hdigest]
      obtain ⟨n, ht, hv⟩ :=
        getElem?_of_mem_fetched hmem (hpairs.trans (List.append_nil _).symm)
      exact .fetched n t v hmissing ht hdigest hv
  all_goals cases h

/-- **A batch that fails has the failure of the first text whose lookup has failed**: those of all
texts that occur before it have not. -/
theorem exists_of_conclude_error {e : Failure}
    (h : conclude (texts.map (slot now c)) endings = .value (.error e)) :
    ∃ earlier text later, ∃ n : ℕ, texts = earlier ++ text :: later ∧ IsMissing now c text ∧
      (openTexts (texts.map (slot now c)))[n]? = some text ∧
      endings[n]? = some (.value (.error e)) ∧
      ∀ t ∈ earlier, ∃ v, Routes now c (openTexts (texts.map (slot now c))) endings t v := by
  rw [conclude] at h
  split at h
  · cases h
  · rename_i e' hgather
    cases h
    obtain ⟨fetched, text, rest, hpairs⟩ := exists_of_gather_error hgather
    have hopened : openTexts (texts.map (slot now c)) =
        fetched.map (·.1) ++ text :: rest.map (·.1) := by
      rw [← List.map_fst_zip (Nat.le_of_eq hlength.symm), hpairs, List.map_append, List.map_map]
      rfl
    obtain ⟨earlier, later, htexts, hmissing, hearlier⟩ := exists_of_openTexts_eq_append hopened
    have hn : ((openTexts (texts.map (slot now c))).zip endings)[fetched.length]? =
        some (text, .value (.error e)) := by
      rw [hpairs, List.getElem?_append_right (by simp), List.length_map, Nat.sub_self]
      rfl
    obtain ⟨htext, he⟩ := List.getElem?_zip_eq_some.1 hn
    refine ⟨earlier, text, later, fetched.length, htexts, hmissing, htext, he, fun t ht => ?_⟩
    rcases blank_or_known_or_isMissing now c t with hblank | ⟨v, hblank, hv⟩ | hmissing
    · exact ⟨none, .blank hblank⟩
    · exact ⟨some v, .known v hblank hv⟩
    · obtain ⟨u, hu, hdigest⟩ := hearlier t ht hmissing
      obtain ⟨⟨u, v⟩, hmem, rfl⟩ := List.mem_map.1 hu
      obtain ⟨n, hu, hv⟩ := getElem?_of_mem_fetched hmem hpairs
      exact ⟨v, .fetched n u v hmissing hu hdigest hv⟩
  all_goals cases h

end Outcome

/-- A batch is its first look, the lookups that it sends on, and what it concludes from them. -/
theorem run_eq {env : Environment} (texts : List String) (w : World env) :
    run texts w =
      ((({ w with cache := (lookUp w.clock w.cache texts).2 } : World env).join none
          ((openTexts (texts.map (slot w.clock w.cache))).map lane)).1.elim .crashed
          (conclude (texts.map (slot w.clock w.cache))),
        (({ w with cache := (lookUp w.clock w.cache texts).2 } : World env).join none
          ((openTexts (texts.map (slot w.clock w.cache))).map lane)).2) := by
  rw [← lookUp_fst, run]
  rcases lookUp w.clock w.cache texts with ⟨slots, cache⟩
  dsimp only
  rcases World.join { w with cache } none ((openTexts slots).map lane) with ⟨_ | endings, w'⟩
  · rfl
  · simp only [Option.map_some, Option.elim_some, conclude]
    split <;> simp_all

end Batch

end Archivist
