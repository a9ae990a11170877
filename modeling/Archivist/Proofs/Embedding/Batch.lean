import Archivist.Proofs.Concurrency.Seeking

/-!
# What a Batch Comes To

A batch that succeeds has a vector for each text at the place of the text, and the vector is what
the provider has given for exactly this text; one that fails has the failure of the first text whose
lookup has failed, and what has been fetched for other texts is in the cache. `Batch.Settles` says
so, and that no text is asked for twice. It does not matter what else is looked up meanwhile, how
full the cache is, nor in which order the answers of the provider come.

## Main results

* `Hall.Ended.settles`: a batch settles whose lanes have ended, each with its text.
* `Hall.Run.settles`: a batch among others settles.
-/

namespace Archivist

namespace Batch

/-- The provider has answered with a failure what was asked for a text. -/
def Fails (asked : List Exchange) (text : String) (e : Failure) : Prop :=
  ∃ response : Response (.embedding text), ⟨.embedding text, response⟩ ∈ asked ∧
    response.outcome = some (.error e)

/-- A vector is that of a text, with a cache `c`: a blank text has none, one that is known has what
is known of it, which the provider had given for it, and any other has what it was given. -/
inductive Fits (now : ℕ) (c : Cache) (log : List Exchange)
    (gave : String → Option Embedding → Prop) (text : String) : Option Embedding → Prop where
  | blank (hblank : Text.blank text = true) : Fits now c log gave text none
  | known (v : Embedding) (hblank : Text.blank text = false)
      (hknown : c.known? now (Digest.ofText text) = some v) (hv : Provided log text (some v)) :
      Fits now c log gave text (some v)
  | fetched (v : Option Embedding) (hmissing : IsMissing now c text) (hv : gave text v) :
      Fits now c log gave text v

/-- What is right about a batch that has begun with a cache `c`: what it has asked, and what it
comes to, where a vector `fits` a text. What it has fetched is `cached`, unless a lookup of it was
dropped. -/
structure Settles (now : ℕ) (c : Cache) (texts : List String) (asked : List Exchange)
    (fits : String → Option Embedding → Prop) (dropped : Prop) (cached : String → Embedding → Prop)
    (result : Ending (List (Option Embedding))) : Prop where
  /-- Only texts that are missing are asked for. -/
  missing : ∀ x ∈ asked, ∃ text ∈ texts, IsMissing now c text ∧ x.question = .embedding text
  /-- None of them is asked for twice. -/
  once : (asked.map (·.question)).Nodup
  /-- If the batch succeeds, each text has its vector at its place. -/
  aligned : ∀ vs, result = .value (.ok vs) → vs.length = texts.length ∧
    ∀ (i : ℕ) text v, texts[i]? = some text → vs[i]? = some v → fits text v
  /-- If the batch fails, it fails as the first text that has failed. -/
  failed : ∀ e, result = .value (.error e) → ∃ earlier text later,
    texts = earlier ++ text :: later ∧ Fails asked text e ∧ ∀ t ∈ earlier, ∀ e', ¬ Fails asked t e'
  /-- There is no other reason for a batch to come to nothing than that the provider breaks down
  over a text of it, or that it is dropped. -/
  crashed : result = .crashed → ∃ text, ∃ response : Response (.embedding text),
    ⟨.embedding text, response⟩ ∈ asked ∧ response.outcome = none
  late : result = .late → dropped
  /-- In any case, what has been fetched is cached. -/
  cached : ¬dropped → ∀ text (response : Response (.embedding text)) v,
    ⟨.embedding text, response⟩ ∈ asked →
      response.outcome.map Flight.outcome = some (.ok (some v)) → cached text v

end Batch

namespace Hall

variable {env : Environment} {start h : Hall env} {asked : List (ℕ × Exchange)}
  {texts : List String} {text : String} {endings : List (Ending (Option Embedding))} {n : ℕ}

/-- What a batch has asked that has begun in `start`. -/
def askedFor (start : Hall env) (texts : List String) (asked : List (ℕ × Exchange)) :
    List Exchange :=
  (asked.filter fun p => decide (start.lanes.length ≤ p.1) &&
    decide (p.1 < start.lanes.length + (start.missing texts).length)).map (·.2)

/-- The lanes of a batch that has begun in `start` have come to their ends. -/
def Ends (start : Hall env) (texts : List String) (endings : List (Ending (Option Embedding)))
    (h : Hall env) : Prop :=
  (h.lanes.drop start.lanes.length).take (start.missing texts).length = endings.map .ended

/-- The texts that a batch has to fetch are those that its first look leaves open. -/
theorem missing_eq (start : Hall env) (texts : List String) : start.missing texts =
    Batch.openTexts (texts.map (Batch.slot start.world.clock start.world.cache)) := by
  rw [missing, Batch.lookUp_fst]

/-- A text that has to be fetched is not blank and not known. -/
theorem isMissing_of_missing (hn : (start.missing texts)[n]? = some text) :
    text ∈ texts ∧ Batch.IsMissing start.world.clock start.world.cache text :=
  Batch.isMissing_of_mem_openTexts (missing_eq start texts ▸ List.mem_of_getElem? hn)

/-- After its first look a batch has nothing to be served with for a text that it has to fetch. -/
theorem offers_send {P : Option Embedding → Prop} (hsound : start.Sound)
    (hn : (start.missing texts)[n]? = some text) :
    ((start.send texts).world.traffic (start.send texts).lanes).Offers (· = start.lanes.length + n)
      fun key v => key = Digest.ofText text → P v := by
  have hoffers := ((Step.batched start texts).sound hsound).offers
  obtain ⟨htext, hmissing⟩ := isMissing_of_missing hn
  refine ⟨hoffers.attends, ⟨hoffers.keeps.length_le, hoffers.keeps.nodup, ?_⟩, hoffers.solid, ?_⟩
  · rintro key e he rfl
    exact absurd (List.mem_map_of_mem he) (Batch.digest_notMem_lookUp htext hmissing)
  · -- The lookup has only just missed, so it is in no cell.
    rintro i rfl f m v hi hm
    rw [World.flight?_traffic _ (getElem?_send hn)] at hi
    cases hi
    cases hm

/-- Places of texts that have to be fetched are those of their digests. -/
theorem eq_of_digest_eq {m : ℕ} {t : String} (hn : (start.missing texts)[n]? = some text)
    (hm : (start.missing texts)[m]? = some t) (hdigest : Digest.ofText text = Digest.ofText t) :
    n = m := by
  have hnodup := Batch.nodup_openTexts (Batch.lookUp start.world.clock start.world.cache texts).1
  have hn' : ((start.missing texts).map Digest.ofText)[n]? = some (Digest.ofText text) := by
    rw [List.getElem?_map, hn, Option.map_some]
  have hm' : ((start.missing texts).map Digest.ofText)[m]? = some (Digest.ofText text) := by
    rw [List.getElem?_map, hm, Option.map_some, hdigest]
  refine (List.getElem?_inj ?_ hnodup).1 (hn'.trans hm'.symm)
  exact (List.getElem?_eq_some_iff.1 hn').1

/-- A question is a lane's if the lane has asked it. -/
theorem mem_askedBy {i : ℕ} {x : Exchange} : x ∈ askedBy i asked ↔ (i, x) ∈ asked := by
  simp [askedBy]

/-- What a batch has asked, its lanes have asked. -/
theorem mem_askedFor {x : Exchange} : x ∈ start.askedFor texts asked ↔
    ∃ n < (start.missing texts).length, (start.lanes.length + n, x) ∈ asked := by
  simp only [askedFor, List.mem_map, List.mem_filter, Bool.and_eq_true, decide_eq_true_eq]
  constructor
  · rintro ⟨⟨i, x⟩, ⟨hmem, hle, hlt⟩, rfl⟩
    refine ⟨i - start.lanes.length, by omega, ?_⟩
    rwa [Nat.add_sub_cancel' hle]
  · rintro ⟨n, hlt, hmem⟩
    exact ⟨_, ⟨hmem, by omega, by omega⟩, rfl⟩

/-- What the lane of a text has asked, the batch has asked. -/
theorem mem_askedFor_of_eq {x : Exchange} (hn : (start.missing texts)[n]? = some text)
    (hx : askedBy (start.lanes.length + n) asked = [x]) : x ∈ start.askedFor texts asked := by
  refine mem_askedFor.2 ⟨n, (List.getElem?_eq_some_iff.1 hn).1, ?_⟩
  rw [← mem_askedBy, hx]
  exact List.mem_singleton_self x

/-! ### Lanes that have ended -/

/-- The lanes of a batch have come to these endings, each with its text: they were `served`, or
something has `landed`. -/
structure Ended (start : Hall env) (texts : List String)
    (served : String → Option Embedding → Prop) (landed : String → Landing → Prop)
    (asked : List (ℕ × Exchange)) (endings : List (Ending (Option Embedding))) : Prop where
  length_eq : endings.length = (start.missing texts).length
  seeks : ∀ (n : ℕ) text e, (start.missing texts)[n]? = some text → endings[n]? = some e →
    (Lane.ended e).Seeks text (served text) (landed text) (askedBy (start.lanes.length + n) asked)

namespace Ended

variable {served : String → Option Embedding → Prop} {landed : String → Landing → Prop}
  {v : Option Embedding} (hended : start.Ended texts served landed asked endings)

include hended

/-- A lane of a batch asks for its text, and once. -/
theorem askedBy_eq {x : Exchange} (hn : (start.missing texts)[n]? = some text)
    (hx : (start.lanes.length + n, x) ∈ asked) :
    ∃ response : Response (.embedding text), x = ⟨.embedding text, response⟩ ∧
      askedBy (start.lanes.length + n) asked = [x] := by
  have hlt : n < endings.length := hended.length_eq ▸ (List.getElem?_eq_some_iff.1 hn).1
  have hseeks := hended.seeks n text _ hn (List.getElem?_eq_getElem hlt)
  have hx' := mem_askedBy.2 hx
  rcases hseeks.asksOnce with hnil | ⟨response, hone⟩
  · rw [hnil] at hx'
    cases hx'
  · rw [hone] at hx'
    obtain rfl := List.mem_singleton.1 hx'
    exact ⟨response, rfl, hone⟩

/-- What a batch has asked is about the text of the lane that has asked it. -/
theorem exists_of_mem_askedFor {x : Exchange} (hx : x ∈ start.askedFor texts asked) :
    ∃ n text, ∃ response : Response (.embedding text), (start.missing texts)[n]? = some text ∧
      x = ⟨.embedding text, response⟩ ∧ askedBy (start.lanes.length + n) asked = [x] := by
  obtain ⟨n, hlt, hmem⟩ := mem_askedFor.1 hx
  obtain ⟨response, hx, hone⟩ := hended.askedBy_eq (List.getElem?_eq_getElem hlt) hmem
  exact ⟨n, _, response, List.getElem?_eq_getElem hlt, hx, hone⟩

/-- No text is asked for twice. -/
theorem nodup_askedFor : ((start.askedFor texts asked).map (·.question)).Nodup := by
  rw [askedFor, List.map_map, List.Nodup, List.pairwise_map, List.pairwise_iff_forall_sublist]
  rintro ⟨i, x⟩ ⟨j, y⟩ hsub heq
  have hplace : ∀ p ∈ [(i, x), (j, y)], ∃ n text, ∃ response : Response (.embedding text),
      p.1 = start.lanes.length + n ∧ (start.missing texts)[n]? = some text ∧
      p.2 = ⟨.embedding text, response⟩ ∧ askedBy p.1 asked = [p.2] := by
    intro p hp
    obtain ⟨hmem, hp⟩ := List.mem_filter.1 (hsub.subset hp)
    simp only [Bool.and_eq_true, decide_eq_true_eq] at hp
    obtain ⟨n, hn⟩ := Nat.exists_eq_add_of_le hp.1
    have hlt : n < (start.missing texts).length := by omega
    have hmem' : (start.lanes.length + n, p.2) ∈ asked := hn ▸ hmem
    obtain ⟨response, hx, hone⟩ := hended.askedBy_eq (List.getElem?_eq_getElem hlt) hmem'
    exact ⟨n, _, response, hn, List.getElem?_eq_getElem hlt, hx, hn ▸ hone⟩
  obtain ⟨n, t, response, hi, hn, hx, hone⟩ := hplace (i, x) (by simp)
  obtain ⟨m, u, response', hj, hm, hy, -⟩ := hplace (j, y) (by simp)
  simp only at hi hj hx hy hone
  -- Two lanes with one text are one lane, which has asked once.
  have htext : t = u := by
    simp only [Function.comp_apply, hx, hy] at heq
    exact Ask.embedding.inj heq
  obtain rfl : n = m := eq_of_digest_eq hn hm (congrArg Digest.ofText htext)
  obtain rfl : i = j := hi.trans hj.symm
  have hsub' : (askedBy i [(i, x), (i, y)]).Sublist (askedBy i asked) :=
    ((hsub.trans List.filter_sublist).filter _).map _
  have hlength := hsub'.length_le
  rw [hone] at hlength
  simp [askedBy] at hlength

/-- What the lookup of a text has come to, the provider has given for the text, or the lookup was
served with it. -/
theorem provided_or_served (hn : (start.missing texts)[n]? = some text)
    (he : endings[n]? = some (.value (.ok v))) :
    Provided (start.askedFor texts asked) text v ∨ served text v := by
  refine (hended.seeks n text _ hn he).comes_of_ended.provided_or_served.imp_left fun hv => ?_
  refine hv.mono fun x hx => mem_askedFor.2 ⟨n, (List.getElem?_eq_some_iff.1 hn).1, ?_⟩
  exact mem_askedBy.1 hx

/-- A lookup that has failed has been answered with a failure. -/
theorem fails {e : Failure} (hn : (start.missing texts)[n]? = some text)
    (he : endings[n]? = some (.value (.error e))) :
    Batch.Fails (start.askedFor texts asked) text e := by
  have hcomes := (hended.seeks n text _ hn he).comes_of_ended
  generalize hxs : askedBy (start.lanes.length + n) asked = xs at hcomes
  generalize hresult : Except.error e = result at hcomes
  cases hcomes with
  | served v' hv => cases hresult
  | answered response reply ho hlanded =>
      refine ⟨response, mem_askedFor_of_eq hn hxs, ?_⟩
      cases reply with
      | error e' =>
          cases hresult
          exact ho
      | ok v => cases hresult

/-- A lookup that has come to a vector, or to none, has not failed. -/
theorem not_fails (hn : (start.missing texts)[n]? = some text)
    (he : endings[n]? = some (.value (.ok v))) (e : Failure) :
    ¬ Batch.Fails (start.askedFor texts asked) text e := by
  rintro ⟨response, hmem, hfailed⟩
  obtain ⟨m, t, response', hm, hx, hone⟩ := hended.exists_of_mem_askedFor hmem
  cases hx
  obtain rfl := eq_of_digest_eq hn hm rfl
  have hcomes := (hended.seeks n text _ hn he).comes_of_ended
  rw [hone] at hcomes
  generalize hresult : Except.ok v = result at hcomes
  cases hcomes with
  | answered _ reply ho hlanded =>
      rw [hfailed] at ho
      cases ho
      cases hresult

/-- Over the text of a lookup that has broken down, the provider has. -/
theorem breaksDown (hn : (start.missing texts)[n]? = some text)
    (he : endings[n]? = some .crashed) : ∃ response : Response (.embedding text),
      ⟨.embedding text, response⟩ ∈ start.askedFor texts asked ∧ response.outcome = none := by
  have hseeks := hended.seeks n text _ hn he
  generalize hxs : askedBy (start.lanes.length + n) asked = xs at hseeks
  cases hseeks with
  | crashed response ho => exact ⟨response, mem_askedFor_of_eq hn hxs, ho⟩

/-- What a lookup has fetched has landed, unless it was dropped. -/
theorem landed_of_mem (hlate : .late ∉ endings) {response : Response (.embedding text)}
    (hmem : ⟨.embedding text, response⟩ ∈ start.askedFor texts asked) {result : Landing}
    (hresult : response.outcome.map Flight.outcome = some result) : landed text result := by
  obtain ⟨n, t, response', hn, hx, hone⟩ := hended.exists_of_mem_askedFor hmem
  cases hx
  have hlt : n < endings.length := hended.length_eq ▸ (List.getElem?_eq_some_iff.1 hn).1
  have hseeks := hended.seeks n text _ hn (List.getElem?_eq_getElem hlt)
  have hne : endings[n] ≠ .late := fun heq => hlate (heq ▸ List.getElem_mem hlt)
  exact hseeks.landed_of_ended hne (hone ▸ List.mem_singleton_self _) hresult

/-- If a batch fails, it fails as the first text that has failed. -/
theorem exists_of_error {e : Failure}
    (he : Batch.conclude (texts.map (Batch.slot start.world.clock start.world.cache)) endings =
      .value (.error e)) :
    ∃ earlier text later, texts = earlier ++ text :: later ∧
      Batch.Fails (start.askedFor texts asked) text e ∧
      ∀ t ∈ earlier, ∀ e', ¬ Batch.Fails (start.askedFor texts asked) t e' := by
  obtain ⟨earlier, text, later, n, htexts, hmissing, hn, he, hearlier⟩ :=
    Batch.exists_of_conclude_error (missing_eq start texts ▸ hended.length_eq) he
  rw [← missing_eq] at hn
  refine ⟨earlier, text, later, htexts, hended.fails hn he, fun t ht e' hfails => ?_⟩
  -- The text is missing, for otherwise it would not have been asked for.
  obtain ⟨response, hmem, ho⟩ := id hfails
  obtain ⟨m, u, response', hm, hx, -⟩ := hended.exists_of_mem_askedFor hmem
  cases hx
  obtain ⟨-, hblank, hunknown⟩ := isMissing_of_missing hm
  obtain ⟨v, hroute⟩ := hearlier t ht
  cases hroute with
  | blank hblank' =>
      rw [hblank] at hblank'
      cases hblank'
  | known v hblank' hknown =>
      rw [hunknown] at hknown
      cases hknown
  | fetched n' u v hmissing' hn' hu hv =>
      rw [← missing_eq] at hn'
      obtain rfl := eq_of_digest_eq hn' hm hu
      obtain rfl := Option.some.inj (hn'.symm.trans hm)
      exact hended.not_fails hn' hv e' hfails

/-- The place of a text has what fits the text, if no two texts have one digest. -/
theorem fits_of_routes (hsound : start.Sound) {gave : String → Option Embedding → Prop}
    (hdigest : Set.InjOn Digest.ofText
      (start.world.embedded ∪ {text | text ∈ texts ∧ Text.blank text = false}))
    (hgave : ∀ text ∈ texts, Text.blank text = false → ∀ v,
      Provided (start.askedFor texts asked) text v ∨ served text v → gave text v)
    (hmem : text ∈ texts)
    (hroutes : Batch.Routes start.world.clock start.world.cache (start.missing texts) endings
      text v) :
    Batch.Fits start.world.clock start.world.cache start.world.log gave text v := by
  cases hroutes with
  | blank hblank => exact .blank hblank
  | known v hblank hknown =>
      have hlook : start.world.cache.lookUp start.world.clock (Digest.ofText text) =
          (some v, _) := Prod.ext hknown rfl
      obtain ⟨t, hkey, hv⟩ := hsound.offers.of_lookUp rfl hlook
      have ht : t ∈ start.world.embedded := by
        obtain ⟨response, hmem, -⟩ := hv
        exact ⟨_, hmem, rfl⟩
      obtain rfl := hdigest (.inl ht) (.inr ⟨hmem, hblank⟩) hkey
      exact .known v hblank hknown hv
  | fetched n t v hmissing hn ht hv =>
      obtain ⟨htext, hmissing'⟩ := isMissing_of_missing hn
      obtain rfl : t = text := hdigest (.inr ⟨htext, hmissing'.1⟩) (.inr ⟨hmem, hmissing.1⟩) ht
      exact .fetched v hmissing (hgave t hmem hmissing.1 v (hended.provided_or_served hn hv))

/-- **A batch settles whose lanes have ended**: what they come to is put into the right places. The
vectors are those of the texts if no two texts have one digest. -/
theorem settles (hsound : start.Sound) {distinct dropped : Prop}
    {gave : String → Option Embedding → Prop} {cached : String → Embedding → Prop}
    (hdigest : distinct → Set.InjOn Digest.ofText
      (start.world.embedded ∪ {text | text ∈ texts ∧ Text.blank text = false}))
    (hgave : distinct → ∀ text ∈ texts, Text.blank text = false → ∀ v,
      Provided (start.askedFor texts asked) text v ∨ served text v → gave text v)
    (hdropped : .late ∈ endings → dropped)
    (hcached : ∀ text v, landed text (.ok (some v)) → cached text v) :
    Batch.Settles start.world.clock start.world.cache texts (start.askedFor texts asked)
      (fun text v => distinct →
        Batch.Fits start.world.clock start.world.cache start.world.log gave text v)
      dropped cached
      (Batch.conclude (texts.map (Batch.slot start.world.clock start.world.cache)) endings) := by
  obtain ⟨hcrashed, hlate⟩ := Batch.exists_of_conclude_eq
    (texts.map (Batch.slot start.world.clock start.world.cache)) endings
  refine ⟨fun x hx => ?_, hended.nodup_askedFor, fun vs hvs => ?_, fun e => hended.exists_of_error,
    fun hresult => ?_, fun hresult => hdropped (hlate hresult),
    fun hnot text response v hx hv => ?_⟩
  · obtain ⟨n, text, response, hn, rfl, -⟩ := hended.exists_of_mem_askedFor hx
    obtain ⟨htext, hmissing⟩ := isMissing_of_missing hn
    exact ⟨text, htext, hmissing, rfl⟩
  · obtain ⟨hlength, hroutes⟩ :=
      Batch.routes_of_conclude (missing_eq start texts ▸ hended.length_eq) hvs
    refine ⟨hlength, fun i text v htext hv hdistinct => ?_⟩
    have hroute := hroutes i text v htext hv
    rw [← missing_eq] at hroute
    exact hended.fits_of_routes hsound (hdigest hdistinct) (hgave hdistinct)
      (List.mem_of_getElem? htext) hroute
  · obtain ⟨n, text, hn, he⟩ := hcrashed hresult
    rw [← missing_eq] at hn
    exact ⟨text, hended.breaksDown hn he⟩
  · exact hcached text v (hended.landed_of_mem (fun hlate => hnot (hdropped hlate)) hx hv)

end Ended

/-! ### Batches among others -/

section Settling

variable (hsound : start.Sound) (hr : (start.send texts).Run asked h)

include hsound hr

/-- How the lane of a text that has to be fetched has ended. -/
theorem Run.exists_ending (hends : start.Ends texts endings h)
    (hn : (start.missing texts)[n]? = some text) :
    ∃ e, endings[n]? = some e ∧
      (Lane.ended e).Seeks text (fun v => (start.send texts).GivesFor (Digest.ofText text) v h)
        ((start.send texts).Stores (Digest.ofText text) h)
        (askedBy (start.lanes.length + n) asked) := by
  obtain ⟨l, hl, hseeks⟩ := (hr.seeks ((Step.batched start texts).sound hsound)
    (isMissing_of_missing hn).2.1 (offers_send hsound hn)
    (seeks_send hn)).2
  have hlt := (List.getElem?_eq_some_iff.1 hn).1
  have hended : (endings.map Lane.ended)[n]? = some l := by
    rw [← hends, List.getElem?_take_of_lt hlt, List.getElem?_drop, hl]
  rw [List.getElem?_map] at hended
  obtain ⟨e, he, rfl⟩ := Option.map_eq_some_iff.1 hended
  exact ⟨e, he, hseeks⟩

/-- Each lane of a batch keeps to its text. -/
theorem Run.ended (hends : start.Ends texts endings h) :
    start.Ended texts (fun text v => (start.send texts).GivesFor (Digest.ofText text) v h)
      (fun text => (start.send texts).Stores (Digest.ofText text) h) asked endings := by
  refine ⟨Nat.le_antisymm ?_ (Nat.le_of_not_lt fun hlt => ?_), fun n text e hn he => ?_⟩
  · rw [← List.length_map Lane.ended, ← hends]
    exact List.length_take_le _ _
  · obtain ⟨e, he, -⟩ := hr.exists_ending hsound hends (List.getElem?_eq_getElem hlt)
    exact Nat.lt_irrefl _ (List.getElem?_eq_some_iff.1 he).1
  · obtain ⟨e', he', hseeks⟩ := hr.exists_ending hsound hends hn
    exact Option.some.inj (he'.symm.trans he) ▸ hseeks

/-- **A batch among others settles**, in whatever order lanes go on and whenever the provider
answers. -/
theorem Run.settles (hends : start.Ends texts endings h) :
    Batch.Settles start.world.clock start.world.cache texts (start.askedFor texts asked)
      (fun text v =>
        Set.InjOn Digest.ofText
          (h.world.embedded ∪ {text | text ∈ texts ∧ Text.blank text = false}) →
        Batch.Fits start.world.clock start.world.cache start.world.log
          (fun text v =>
            Provided (start.askedFor texts asked) text v ∨ (start.send texts).Gives text v h)
          text v)
      (.late ∈ endings) (fun text v => (start.send texts).Caches (Digest.ofText text) v h)
      (Batch.conclude (texts.map (Batch.slot start.world.clock start.world.cache)) endings) := by
  have hsubset : start.world.embedded ⊆ h.world.embedded := by
    rintro text ⟨x, hx, hquestion⟩
    exact ⟨x, hr.log_subset hx, hquestion⟩
  refine (hr.ended hsound hends).settles hsound
    (fun hdigest => hdigest.mono (Set.union_subset_union_left _ hsubset))
    (fun hdigest text htext hblank v => ?_) id fun text v hstores => hstores v rfl
  -- What has been given for the digest of the text has been given for the text.
  refine Or.imp_right ?_
  rintro ⟨t, hkey, hg⟩
  obtain ⟨response, hmem, -⟩ := hg.provided
  exact hdigest (.inl ⟨_, hmem, rfl⟩) (.inr ⟨htext, hblank⟩) hkey ▸ hg

end Settling

end Hall

end Archivist
