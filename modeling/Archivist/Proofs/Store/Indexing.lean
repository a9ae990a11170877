import Archivist.Proofs.Embedding.Fetching
import Archivist.Store.Answer
import Mathlib.Data.List.Forall2

/-!
# Indexing the Corpus

Indexing embeds the texts of all documents without an embedding as one batch, and takes the vectors
back to the documents by counting along. A document that had an embedding keeps it, and one that had
none gets what the batch has for its own text (`StoredDocument.Gains`); if the batch fails, nothing
changes.
-/

namespace Archivist

variable {fits : String → Option Embedding → Prop}

/-- A batch without texts asks for nothing. -/
theorem Batch.run_nil {env : Environment} (w : World env) :
    Batch.run [] w = (.value (.ok []), w) := by
  have hrun := World.run_ended none w 0 ([] : List (Ending (Option Embedding)))
  have hjoin : w.join none ([] : List (Lane (Option Embedding))) = (some [], w) := by
    rw [List.map_nil] at hrun
    rw [World.join, hrun]
    rfl
  rw [Batch.run_eq]
  exact congrArg (fun p => (p.1.elim .crashed (Batch.conclude []), p.2)) hjoin

/-- A batch that succeeds has a vector that fits for each of its texts. -/
theorem Batch.Settles.forall₂ {now : ℕ} {c : Cache} {texts : List String} {asked : List Exchange}
    {dropped : Prop} {cached : String → Embedding → Prop}
    {result : Ending (List (Option Embedding))}
    (h : Batch.Settles now c texts asked fits dropped cached result)
    {vs : List (Option Embedding)} (hvs : result = .value (.ok vs)) :
    List.Forall₂ fits texts vs := by
  obtain ⟨hlength, hfits⟩ := h.aligned vs hvs
  refine List.forall₂_iff_get.2 ⟨hlength.symm, fun i h₁ h₂ => hfits i _ _ ?_ ?_⟩
  · exact List.getElem?_eq_getElem h₁
  · exact List.getElem?_eq_getElem h₂

/-- What becomes of a document when texts are given vectors that fit. -/
inductive StoredDocument.Gains (fits : String → Option Embedding → Prop) :
    StoredDocument → StoredDocument → Prop where
  /-- A document that has an embedding keeps it. -/
  | kept (d : StoredDocument) (h : d.embedding ≠ none) : Gains fits d d
  | filled (d : StoredDocument) (h : d.embedding = none) (v : Option Embedding)
      (hv : fits d.record.text v) : Gains fits d { d with embedding := v }

theorem StoredDocument.Gains.mono {fits' : String → Option Embedding → Prop}
    {d d' : StoredDocument} (h : d.Gains fits d') (hfits : ∀ text v, fits text v → fits' text v) :
    d.Gains fits' d' := by
  cases h with
  | kept h => exact .kept d h
  | filled h v hv => exact .filled d h v (hfits _ v hv)

namespace Corpus

variable {c : Corpus} {ds : List StoredDocument} {found : List (Option Embedding)}

/-- The number of documents that have gained an embedding. -/
def gained (before after : List StoredDocument) : ℕ :=
  (before.zip after).countP fun p => p.1.embedding.isNone && p.2.embedding.isSome

/-- What indexing makes of a corpus when a batch of the texts of its documents without an embedding
has come to a result: if it has succeeded, each of these documents gets what fits its text, and the
number of those that have gained an embedding is told; if not, nothing changes. -/
inductive Indexes (fits : String → Option Embedding → Prop) (c : Corpus) :
    Ending (List (Option Embedding)) → Ending ℕ × Corpus → Prop where
  | indexed (found : List (Option Embedding)) (documents : List StoredDocument)
      (h : List.Forall₂ (StoredDocument.Gains fits) c.documents documents) :
      Indexes fits c (.value (.ok found))
        (.value (.ok (gained c.documents documents)), { c with documents })
  | failed (e : Failure) : Indexes fits c (.value (.error e)) (.value (.error e), c)
  | crashed : Indexes fits c .crashed (.crashed, c)
  | late : Indexes fits c .late (.late, c)

/-- A document with an embedding is passed over. -/
theorem fillEmbeddings_of_some {d : StoredDocument} (hd : d.embedding ≠ none) :
    fillEmbeddings (d :: ds) found = d :: fillEmbeddings ds found := by
  rw [fillEmbeddings]
  rintro v rest hnone -
  exact hd hnone

/-- A document without an embedding takes the next vector. -/
theorem fillEmbeddings_of_none {d : StoredDocument} (hd : d.embedding = none)
    (v : Option Embedding) : fillEmbeddings (d :: ds) (v :: found) =
      { d with embedding := v } :: fillEmbeddings ds found := by
  obtain ⟨record, embedding⟩ := d
  cases hd
  rfl

/-- **Vectors are taken back to the documents of their texts**, and counted. -/
theorem fillEmbeddings_gains (h : List.Forall₂ fits
      ((ds.filter (·.embedding.isNone)).map (·.record.text)) found) :
    List.Forall₂ (StoredDocument.Gains fits) ds (fillEmbeddings ds found) ∧
      gained ds (fillEmbeddings ds found) = (found.filter (·.isSome)).length := by
  induction ds generalizing found with
  | nil =>
      cases h
      exact ⟨.nil, rfl⟩
  | cons d rest ih =>
      by_cases hd : d.embedding = none
      · rw [List.filter_cons_of_pos (by simp [hd]), List.map_cons] at h
        cases h with
        | @cons _ v _ found hv hrest =>
            obtain ⟨hgains, hcount⟩ := ih hrest
            rw [fillEmbeddings_of_none hd]
            refine ⟨.cons (.filled d hd v hv) hgains, ?_⟩
            rw [gained] at hcount ⊢
            rw [List.zip_cons_cons, List.countP_cons, hcount]
            cases v with
            | none => simp
            | some v => simp [hd]
      · rw [List.filter_cons_of_neg (by simpa using hd)] at h
        obtain ⟨hgains, hcount⟩ := ih h
        rw [fillEmbeddings_of_some hd]
        refine ⟨.cons (.kept d hd) hgains, ?_⟩
        rw [gained, List.zip_cons_cons, List.countP_cons_of_neg (by simp [hd])]
        exact hcount

/-- A batch that gives the texts of a corpus vectors that fit indexes the corpus. -/
theorem indexes_indexed {result : Ending (List (Option Embedding))}
    (hfits : ∀ vs, result = .value (.ok vs) → List.Forall₂ fits c.unembedded vs) :
    c.Indexes fits result (c.indexed result) := by
  rcases result with (e | vs) | _ | _
  · exact .failed e
  · obtain ⟨hgains, hcount⟩ := fillEmbeddings_gains (hfits vs rfl)
    rw [indexed, withEmbeddings, ← hcount]
    exact .indexed vs _ hgains
  · exact .crashed
  · exact .late

/-- Without vectors nothing is filled in. -/
theorem fillEmbeddings_nil (ds : List StoredDocument) : fillEmbeddings ds [] = ds := by
  induction ds with
  | nil => rfl
  | cons d rest ih =>
      rw [fillEmbeddings, ih]
      rintro v found - ⟨⟩

/-- It makes no difference that nothing is embedded if there is nothing to embed. -/
theorem embed_eq {env : Environment} (c : Corpus) (w : World env) : c.embed w =
    (c.indexed (Batch.run c.unembedded w).1, (Batch.run c.unembedded w).2) := by
  rw [embed]
  cases htexts : c.unembedded with
  | cons text rest => rfl
  | nil =>
      rw [Batch.run_nil, indexed, withEmbeddings, fillEmbeddings_nil]
      rfl

end Corpus

/-- **A batch is aligned, and so is the index that is made with it.** Among others it settles
whenever its lookups have ended, in whatever order they go on and are answered; by itself it comes
to its end, and leaves in the cache what it has fetched, as far as there is room. In both cases the
documents whose texts it has embedded get the vectors of their texts. -/
theorem Hall.Reached.batch_settles {env : Environment} {limits : CacheLimits} {start : Hall env}
    (hr : Hall.Reached limits start) (texts : List String) :
    (∀ asked h endings, (start.send texts).Run asked h → start.Ends texts endings h →
      let gave text v :=
        Provided (start.askedFor texts asked) text v ∨ (start.send texts).Gives text v h
      let fits text v :=
        Set.InjOn Digest.ofText
          (h.world.embedded ∪ {text | text ∈ texts ∧ Text.blank text = false}) →
        Batch.Fits start.world.clock start.world.cache start.world.log gave text v
      let result :=
        Batch.conclude (texts.map (Batch.slot start.world.clock start.world.cache)) endings
      Batch.Settles start.world.clock start.world.cache texts (start.askedFor texts asked) fits
          (.late ∈ endings) (fun text v => (start.send texts).Caches (Digest.ofText text) v h)
          result ∧
        ∀ c : Corpus, c.unembedded = texts → c.Indexes fits result (c.indexed result)) ∧
    (start.lanes = [] → ∃ asked fetched,
      let fits text v :=
        Set.InjOn Digest.ofText
          (start.world.embedded ∪ {text | text ∈ texts ∧ Text.blank text = false}) →
        Batch.Fits start.world.clock start.world.cache start.world.log (Provided asked) text v
      let cached text v := Batch.entryOf start.world.clock text v ∈ fetched
      let result := (Batch.run texts start.world).1
      Batch.Settles start.world.clock start.world.cache texts asked fits False cached result ∧
        Batch.Leaves start.world.clock start.world.cache texts asked fetched
          (Batch.run texts start.world).2.cache ∧
        (Batch.run texts start.world).2.log = start.world.log ++ asked ∧
        ∀ c : Corpus, c.unembedded = texts →
          (c.embed start.world).2 = (Batch.run texts start.world).2 ∧
            c.Indexes fits result (c.embed start.world).1) := by
  constructor
  · intro asked h endings hrun hends gave fits result
    have hsettles := hrun.settles hr.sound hends
    refine ⟨hsettles, fun c htexts => Corpus.indexes_indexed fun vs hvs => ?_⟩
    rw [htexts]
    exact hsettles.forall₂ hvs
  · -- With nobody else in the hall the run of the batch is the only one.
    intro hlanes
    obtain ⟨asked, fetched, endings, hf, hlate, hresult⟩ := exists_fetches hr.sound hlanes texts
    have hsettles := hf.settles hr.sound hlanes hlate
    rw [← hresult] at hsettles
    refine ⟨_, fetched, hsettles, hf.leaves, hf.run.log_eq, fun c htexts => ?_⟩
    subst texts
    rw [Corpus.embed_eq]
    exact ⟨rfl, Corpus.indexes_indexed fun vs hvs => hsettles.forall₂ hvs⟩

/-- A provider that embeds every text at once. -/
def encoder : Environment where
  State := Unit
  respond
    | .embedding text, s => (⟨0, some (.ok (some [if text = "令" then 1 else 2]))⟩, s)
    | _, s => (⟨0, none⟩, s)

/-- Documents of which one has an embedding; two others have one text, and one has none. -/
def notices : Corpus where
  documents := [
    ⟨⟨"N-1", [("subject", "令")]⟩, none⟩, ⟨⟨"N-2", []⟩, none⟩,
    ⟨⟨"N-3", [("subject", "開會")]⟩, none⟩, ⟨⟨"N-4", [("subject", "令")]⟩, none⟩,
    ⟨⟨"N-5", [("subject", "公告")]⟩, some [0]⟩]

namespace Hall

/-- Nothing has been looked up yet; there is room for one entry. -/
def quiet : Hall encoder :=
  ⟨{ cache := .fresh ⟨1, 1, 1⟩, permits := { free := 1 }, state := () }, []⟩

/-- One of the texts is about to be looked up by another lane. -/
def busy : Hall encoder :=
  { quiet with lanes := [.ready false none (.ask (.embedding "開會") .done)] }

/-- The quiet hall is one that there can be. -/
theorem reached_quiet : Reached ⟨1, 1, 1⟩ quiet := .opened _ rfl

/-- So is the busy one. -/
theorem reached_busy : Reached ⟨1, 1, 1⟩ busy := reached_quiet.step (.joined _ _ trivial)

/-- Whether a lookup has ended with a vector. -/
def found : Ending (Option Embedding) → Bool
  | .value (.ok v) => v.isSome
  | _ => false

/-- Whether a question is for a text of the notices. -/
def isNotice (x : Exchange) : Bool :=
  match x.question with
  | .embedding text => text ∈ ["令", "開會"]
  | _ => true

/-- The texts of the notices have different digests. -/
theorem injOn_notices {texts : Set String} (h : texts ⊆ {"令", "開會"}) :
    Set.InjOn Digest.ofText
      (texts ∪ {text | text ∈ notices.unembedded ∧ Text.blank text = false}) := by
  have hne : Digest.ofText "令" ≠ Digest.ofText "開會" := by decide +kernel
  have hinj : Set.InjOn Digest.ofText {"令", "開會"} := Set.injOn_pair.2 fun heq => absurd heq hne
  have hsolid : ∀ text ∈ notices.unembedded,
      Text.blank text = false → text ∈ ["令", "開會"] := by decide +kernel
  refine hinj.mono (Set.union_subset h ?_)
  rintro text ⟨hmem, hblank⟩
  simpa using hsolid text hmem hblank

/-- Lanes that have all found something after some turns. -/
theorem exists_run (h : Hall encoder) {n k : ℕ}
    (hturns : (((World.turns n h.world 0 h.lanes).1.mapM Lane.ending?).map (·.map found),
      (World.turns n h.world 0 h.lanes).2.log.all isNotice) =
        (some (List.replicate k true), true)) :
    ∃ (es : List (Ending (Option Embedding))) (w : World encoder),
      h.world.run none 0 h.lanes = (es.map .ended, w) ∧
      es.map found = List.replicate k true ∧ w.embedded ⊆ {"令", "開會"} := by
  obtain ⟨hfound, hlog⟩ := Prod.ext_iff.1 hturns
  obtain ⟨es, hes, hfound⟩ := Option.map_eq_some_iff.1 hfound
  have hturns := World.eq_map_ended hes
  refine ⟨es, _, (World.run_eq_turns none hturns).trans (Prod.ext hturns rfl), hfound, ?_⟩
  rintro text ⟨x, hx, hquestion⟩
  have hnotice := List.all_eq_true.1 hlog x hx
  rw [isNotice, hquestion] at hnotice
  simpa using hnotice

/-- Two lookups that have found something conclude the batch. -/
theorem exists_conclude {e e' : Ending (Option Embedding)} (he : found e = true)
    (he' : found e' = true) : ∃ vs,
      Batch.conclude (notices.unembedded.map (Batch.slot 0 quiet.world.cache)) [e, e'] =
        .value (.ok vs) := by
  have hopen : Batch.openTexts (notices.unembedded.map (Batch.slot 0 quiet.world.cache)) =
      ["令", "開會"] := by decide +kernel
  rw [Batch.conclude, hopen]
  obtain (_ | _ | v) | _ | _ := e <;> cases he
  obtain (_ | _ | v') | _ | _ := e' <;> cases he'
  exact ⟨_, rfl⟩

/-- A batch of the texts of the notices beside another lane, and the index that is made with it when
it is by itself. -/
theorem notices_settle :
    (∃ asked h endings vs, (busy.send notices.unembedded).Run asked h ∧
      busy.Ends notices.unembedded endings h ∧
      Batch.conclude (notices.unembedded.map (Batch.slot 0 busy.world.cache)) endings =
        .value (.ok vs) ∧
      List.Forall₂ (Batch.Fits 0 busy.world.cache []
        fun text v => Provided (busy.askedFor notices.unembedded asked) text v ∨
          (busy.send notices.unembedded).Gives text v h) notices.unembedded vs) ∧
    ∃ asked documents, (notices.embed quiet.world).1 =
        (.value (.ok (Corpus.gained notices.documents documents)), { notices with documents }) ∧
      List.Forall₂
        (StoredDocument.Gains (Batch.Fits 0 quiet.world.cache [] (Provided asked)))
        notices.documents documents := by
  constructor
  · -- In the busy hall another lane is under way beside the two of the batch.
    obtain ⟨es, w, hrun, hes, hembedded⟩ := exists_run (n := 40) (k := 3)
      (busy.send notices.unembedded) (by decide +kernel)
    obtain ⟨asked, hasked⟩ := (busy.send notices.unembedded).run_run none 0
    rw [hrun] at hasked
    obtain ⟨e, e₁, e₂, rfl⟩ := List.length_eq_three.1 (by simpa using congrArg List.length hes)
    have hends : busy.Ends notices.unembedded [e₁, e₂] ⟨w, [e, e₁, e₂].map .ended⟩ := by
      have hmissing : busy.missing notices.unembedded = ["令", "開會"] := by decide +kernel
      rw [Ends, hmissing]
      rfl
    simp only [List.map_cons, List.replicate_succ, List.cons.injEq] at hes
    obtain ⟨vs, hvs⟩ := exists_conclude hes.2.1 hes.2.2.1
    obtain ⟨hsettles, -⟩ := (reached_busy.batch_settles notices.unembedded).1 asked _ _ hasked hends
    refine ⟨asked, _, _, vs, hasked, hends, hvs, ?_⟩
    exact (hsettles.forall₂ hvs).imp fun _ _ hfits => hfits (injOn_notices hembedded)
  · obtain ⟨es, w, hrun, hes, -⟩ := exists_run (n := 40) (k := 2) (quiet.send notices.unembedded)
      (by decide +kernel)
    obtain ⟨e₁, e₂, rfl⟩ := List.length_eq_two.1 (by simpa using congrArg List.length hes)
    simp only [List.map_cons, List.replicate_succ, List.cons.injEq] at hes
    obtain ⟨vs, hvs⟩ := exists_conclude hes.1 hes.2.1
    obtain ⟨asked, fetched, -, -, -, hcorpus⟩ :=
      (reached_quiet.batch_settles notices.unembedded).2 rfl
    obtain ⟨-, hindexes⟩ := hcorpus notices rfl
    have hbatch : (Batch.run notices.unembedded quiet.world).1 = .value (.ok vs) := by
      rw [run_batch rfl, World.join_fst, hrun]
      exact hvs
    rw [hbatch] at hindexes
    generalize hindexed : (notices.embed quiet.world).1 = indexed at hindexes ⊢
    cases hindexes with
    | indexed _ documents hgains =>
        refine ⟨asked, documents, rfl, hgains.imp fun _ _ hd => hd.mono fun _ _ hfits => ?_⟩
        exact hfits (injOn_notices (by rintro text ⟨x, hx, -⟩; cases hx))

end Hall

end Archivist
