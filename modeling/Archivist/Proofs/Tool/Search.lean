import Archivist.Proofs.Concurrency.Lane
import Archivist.Proofs.Retrieval.Search
import Archivist.Proofs.Tool.Filter
import Archivist.Proofs.Tool.Round

/-!
# Searches for Documents

A search for documents that comes to a value has gone through four parts: it has widened its terms,
read its dates, found candidates and had them judged. `DocumentSearch` is what it has been told in
each part and what came of it, and the value is made of that (`Toolbox.exists_documentSearch`).

## Main results

* `Workshop.exists_yields_of_round`: a call that succeeds in a round has its value from its tool,
  with answers that the environment gives.
* `Workshop.search_delivers`: what a search for documents finds in a corpus.
-/

namespace Archivist

/-- A search for documents that has come to its end. -/
structure DocumentSearch (t : Toolbox) (args : DocumentsArgs) where
  terms : List String
  dates : DateRange
  /-- The candidates. -/
  found : List Document
  /-- The order in which a language model puts the candidates. -/
  order : Option (List ℕ)
  /-- What has been asked to widen the terms, to find candidates and to have them judged. -/
  widening : List (Answered Reply)
  finding : List (Answered Reply)
  judging : List (Answered Reply)
  yields_terms : (t.documentTerms args).Yields widening terms
  readDates_eq : ToolRequest.readDates .searchDocuments args.dateFrom args.dateTo = .ok dates
  yields_found : (Retrieval.candidates (args.text terms) terms (args.filter dates)
    (Count.wrap (max (t.limit args.limit) 1 * Retrieval.candidateFactor))
    (args.strategy.getD .hybrid)).Yields finding found
  yields_order : (t.ranker.judgment (args.judged.getD t.judged) (args.text terms) found).Yields
    judging order

namespace DocumentSearch

variable {t : Toolbox} {args : DocumentsArgs}

/-- Everything that has been asked. -/
def trail (s : DocumentSearch t args) : List (Answered Reply) :=
  s.widening ++ (s.finding ++ s.judging)

/-- The documents that are returned. -/
def documents (s : DocumentSearch t args) : List Document :=
  (t.ranker.rankBy s.terms s.found s.order).take (t.limit args.limit)

/-- What the text of the search was embedded as. -/
def IsVector (s : DocumentSearch t args) (v : Embedding) : Prop :=
  ⟨.embedding (args.text s.terms), .ok (some v)⟩ ∈ s.trail

/-- The relevance of documents, if they have been judged. -/
def relevance? (s : DocumentSearch t args) : Option (String → Score) :=
  s.order.map (Ranking.relevance s.found)

/-- **A search delivers what it promises** if a corpus is behind the store. -/
theorem delivers (s : DocumentSearch t args) {c : Corpus} (hc : ∀ x ∈ s.trail, c.Allows x) :
    Retrieval.Delivers c t.ranker.weights (args.filter s.dates) s.terms s.IsVector s.relevance?
      (t.limit args.limit) s.documents := by
  have hfinding : ∀ x ∈ s.finding, x ∈ s.trail := fun x hx =>
    List.mem_append_right _ (List.mem_append_left _ hx)
  exact Retrieval.delivers_rankBy t.ranker s.order _ <| Retrieval.offers_of_candidates
    (fun x hx => hc x (hfinding x hx)) s.yields_found fun v hv => hfinding _ hv

end DocumentSearch

namespace Toolbox

variable {t : Toolbox} {args : DocumentsArgs} {xs : List (Answered Reply)} {output : ToolOutput}

/-- A call has at least one result to give, and at most fifty. -/
theorem limit_mem (t : Toolbox) (requested : Option ℕ) :
    1 ≤ t.limit requested ∧ t.limit requested ≤ maxLimit := by
  rw [limit]
  exact ⟨le_min (Nat.le_max_right _ _) (by decide), Nat.min_le_right _ _⟩

/-- **A search for documents comes to a value by its four parts.** -/
theorem exists_documentSearch (h : (t.searchDocuments args).Yields xs output) :
    ∃ s : DocumentSearch t args, s.trail = xs ∧ output = .documents s.documents := by
  rw [searchDocuments, Action.yields_bind_iff] at h
  obtain ⟨widening, xs, terms, rfl, hterms, h⟩ := h
  obtain ⟨ys, zs, dates, rfl, hdates, h'⟩ := Action.yields_bind_iff.1 h
  obtain ⟨rfl, hread⟩ := Action.yields_ofExcept_iff.1 hdates
  obtain ⟨docs, hsearch, rfl⟩ := Action.yields_bind_pure_iff.1 h'
  obtain ⟨finding, judging, found, order, rfl, hfound, horder, rfl⟩ :=
    Retrieval.yields_search_iff.1 hsearch
  exact ⟨⟨terms, dates, found, order, widening, finding, judging, hterms, hread, hfound, horder⟩,
    by simp [DocumentSearch.trail], rfl⟩

end Toolbox

namespace Workshop

variable {env : Environment} {A : Answered Reply → Prop} {s : Workshop} {w : World env}
  {limit : Option ℕ} {calls : List ToolCall} {results : List ToolResult} {r : ToolResult}

/-- The lane of a call goes along the trail of its tool. -/
theorem follows_lane (s : Workshop) {call : ToolCall} {request : ToolRequest}
    (h : ToolRequest.ofCall call = .ok request) :
    (s.lane call).Follows A (s.toolbox.run request).run := by
  rw [lane, h]
  exact ⟨[], List.forall_mem_nil _, .refl _⟩

/-- A call that succeeds has come to a value. -/
theorem exists_ending_of_success {call : ToolCall} {e : Ending ToolOutput}
    (h : (s.result call e).success = true) :
    ∃ output, e = .value (.ok output) ∧ s.result call e = .succeeded call output := by
  rcases e with (e | output) | _ | _
  · cases h
  · exact ⟨output, rfl, rfl⟩
  · cases h
  · cases h

/-- **A call that succeeds has its value from its tool**, and the tool has it from answers that the
environment gives. -/
theorem exists_yields_of_round (hA : env.Gives A) (h : (s.round limit calls w).1 = some results)
    (hr : r ∈ results) (hsuccess : r.success = true) :
    ∃ request output xs, ToolRequest.ofCall r.call = .ok request ∧ r.data = some output ∧
      (∀ x ∈ xs, A x) ∧ (s.toolbox.run request).Yields xs output := by
  rw [round_fst, World.join_fst] at h
  obtain ⟨endings, hendings, rfl⟩ := Option.map_eq_some_iff.1 h
  obtain ⟨i, hi⟩ := List.mem_iff_getElem?.1 hr
  obtain ⟨call, e, hcall, he, rfl⟩ := List.getElem?_zipWith_eq_some.1 hi
  obtain ⟨output, rfl, hresult⟩ := exists_ending_of_success hsuccess
  have hlane : (calls.map s.lane)[i]? = some (s.lane call) := by
    rw [List.getElem?_map, hcall, Option.map_some]
  -- The lane of the call ends with this value, along the trail of whatever program it began with.
  have hyields : ∀ p, (s.lane call).Follows A p → p.LeadsBy A (.done (.ok output)) := by
    intro p hp
    obtain ⟨l, hl, hfollows⟩ := World.follows_run hA hlane hp limit w 0
    rw [World.eq_map_ended hendings, List.getElem?_map, he] at hl
    cases hl
    exact hfollows _ rfl
  rw [hresult]
  cases hcall : ToolRequest.ofCall call with
  | error e =>
      have hended : s.lane call = .ended (.value (.error e)) := by rw [lane, hcall]
      obtain ⟨xs, -, hleads⟩ := hyields (.done (.error e)) <| by
        rw [hended]
        rintro r ⟨⟩
        exact ⟨[], List.forall_mem_nil _, .refl _⟩
      cases (Program.leads_done_iff.1 hleads).2
  | ok request =>
      obtain ⟨xs, hxs, hleads⟩ := hyields _ (s.follows_lane hcall)
      exact ⟨request, output, xs, hcall, rfl, hxs, hleads⟩

end Workshop

/-- A corpus is behind the store and the graph of an environment: what they answer is what the
corpus does, unless they fail. -/
def Corpus.Backs (c : Corpus) (env : Environment) : Prop :=
  ∀ q s r, (env.respond q s).1.outcome = some r → c.Allows ⟨q, r⟩

/-- An environment that a corpus backs gives what the corpus allows. -/
theorem Corpus.Backs.gives {c : Corpus} {env : Environment} (h : c.Backs env) :
    env.Gives c.Allows :=
  ⟨h, fun _ _ _ _ _ hvalue => nomatch hvalue⟩

/-- **What a search for documents finds.** Whatever the embedding of its text and the judgment of
the language model may be: if a call to search documents succeeds, in any round and with any
strategy, it returns documents of the corpus that pass its filter, at most as many as it asks for.
Each has an embedding, and its similarity to a vector of the text, or it holds a search term. They
stand in the order of their scores, which are the weighted sum of the signals. -/
theorem Workshop.search_delivers {env : Environment} {c : Corpus} (hc : c.Backs env)
    (s : Workshop) {w : World env} {limit : Option ℕ} {calls : List ToolCall}
    {results : List ToolResult} (h : (s.round limit calls w).1 = some results) {r : ToolResult}
    (hr : r ∈ results) (htool : r.call.tool? = some .searchDocuments)
    (hsuccess : r.success = true) :
    ∃ args, ∃ search : DocumentSearch s.toolbox args,
      ToolRequest.ofCall r.call = .ok (.searchDocuments args) ∧
      r.data = some (.documents search.documents) ∧
      (∀ x ∈ search.trail, c.Allows x) ∧
      Retrieval.Delivers c s.toolbox.ranker.weights (args.filter search.dates) search.terms
        search.IsVector search.relevance? (s.toolbox.limit args.limit) search.documents ∧
      1 ≤ s.toolbox.limit args.limit ∧ s.toolbox.limit args.limit ≤ Toolbox.maxLimit := by
  obtain ⟨request, output, xs, hcall, hdata, hxs, hyields⟩ :=
    exists_yields_of_round hc.gives h hr hsuccess
  have htool' := (ToolRequest.ofCall_eq_ok_iff.1 hcall).1
  rw [htool, Option.some.injEq] at htool'
  cases request with
  | searchDocuments args =>
      obtain ⟨search, rfl, rfl⟩ := Toolbox.exists_documentSearch hyields
      exact ⟨args, search, hcall, hdata, hxs, search.delivers hxs, s.toolbox.limit_mem _⟩
  | _ => cases htool'

/-- Collaborators with a corpus behind them: they answer at once, and embed every text in the same
way. -/
def Corpus.library (c : Corpus) (v : Embedding) : Environment where
  State := Unit
  respond
    | .embedding _, s => (⟨0, some (.ok (some v))⟩, s)
    | q, s => (⟨0, (c.value? q).map .ok⟩, s)

/-- The corpus backs the environment that looks everything up in it. -/
theorem Corpus.backs_library (c : Corpus) (v : Embedding) : c.Backs (c.library v) := by
  intro q s r hr value value' hvalue hvalue'
  change r = .ok value at hvalue
  cases q with
  | complete | stream | embedding => cases hvalue'
  | _ =>
      cases hvalue.symm.trans (Option.some.inj hr).symm
      exact Option.some.inj hvalue'

namespace Workshop

/-- A corpus of two documents on roads, one of them with an embedding. -/
def roadShelf : Corpus where
  documents := [
    ⟨⟨"A-1", [("sender", "工務局"), ("subject", "道路整修")]⟩, some [1, 0]⟩,
    ⟨⟨"A-2", [("sender", "教育局"), ("subject", "道路安全")]⟩, none⟩]

/-- A world in which nothing has been looked for yet. -/
def roadWorld : World (roadShelf.library [1, 0]) :=
  { cache := .fresh ⟨8, 1, 1⟩, permits := { free := 1 }, state := () }

/-- A workshop in which tools run one after the other. -/
def desk : Workshop where
  toolbox := {
    ranker := ⟨⟨0.7, 0.3, 0⟩, 5⟩
    expander := { index := ⟨[]⟩ }
    defaultLimit := 10
    judged := false }
  allowance := 1000
  maxParallel := 1

/-- A search for what one agency has sent about roads. -/
def roadSearch : ToolCall where
  name := "search_documents"
  arguments := [("keywords", .arr [.str "道路"]), ("limit", .num (.whole 1)),
    ("sender", .str "工務局")]

/-- The arguments of the search as they are read. -/
def roadArgs : DocumentsArgs :=
  ⟨"", ["道路"], none, none, some "工務局", none, some 1, none, none, none⟩

/-- The search finds the document of this agency, by its embedding. -/
theorem road_found : ∃ search : DocumentSearch desk.toolbox roadArgs,
    (desk.round none [roadSearch] roadWorld).1 =
      some [.succeeded roadSearch (.documents search.documents)] ∧
    search.documents.map (fun d => (d.id, d.source)) = [("A-1", .vector)] ∧
    Retrieval.Delivers roadShelf desk.toolbox.ranker.weights (roadArgs.filter search.dates)
      search.terms search.IsVector search.relevance? 1 search.documents := by
  have htool : roadSearch.tool? = some .searchDocuments := by decide +kernel
  have hrequest : ToolRequest.ofCall roadSearch = .ok (.searchDocuments roadArgs) := by
    rw [ToolRequest.ofCall, htool]
    rfl
  have hlane : desk.lane roadSearch =
      .ready true (some 1000) (desk.toolbox.run (.searchDocuments roadArgs)).run := by
    rw [lane, hrequest]
    rfl
  obtain ⟨docs, hturns, hids⟩ : ∃ docs,
      (World.turns 12 roadWorld 0
        [.ready true (some 1000) (desk.toolbox.run (.searchDocuments roadArgs)).run]).1 =
          [Ending.value (.ok (.documents docs))].map .ended ∧
        docs.map (fun d => (d.id, d.source)) = [("A-1", .vector)] :=
    ⟨_, rfl, by decide +kernel⟩
  have hround : (desk.round none [roadSearch] roadWorld).1 =
      some [.succeeded roadSearch (.documents docs)] := by
    rw [round_fst, World.join_fst, List.map_singleton, hlane, World.run_eq_turns none hturns,
      hturns]
    rfl
  obtain ⟨args, search, hcall, hdata, -, hdelivers, -⟩ := search_delivers
    (roadShelf.backs_library [1, 0]) desk hround (List.mem_singleton.2 rfl) htool rfl
  cases hrequest.symm.trans hcall
  cases hdata
  exact ⟨search, hround, hids, hdelivers⟩

end Workshop

end Archivist
