import Archivist.Proofs.Concurrency.Alone
import Archivist.Proofs.Expansion.Terms
import Archivist.Proofs.Tool.Call
import Archivist.Proofs.Tool.Request
import Archivist.Proofs.Tool.Round
import Archivist.Turn.Assembly

/-!
# Malformed Calls

A call is malformed if it makes no request, or if it gives a tool that takes dates a text that is no
date. The first is found out before the call has a lane; the second by the tool, which reads its
dates before it asks the store. A search for documents does one thing earlier: it widens its terms,
and for that it asks the graph.

So a malformed call always fails, and it asks nothing unless it is such a search.

## Main results

* `Toolbox.meets_run_of_readDates`: what a tool asks before it fails over its dates.
* `Workshop.malformed_costs_nothing_iff`: when a malformed call costs nothing.
* `Workshop.search_asks_graph`: a malformed call that asks the graph.
-/

namespace Archivist

/-- A call that makes no request, or one whose date is a text that is no date. -/
def ToolCall.IsMalformed (c : ToolCall) : Prop :=
  (∃ e, ToolRequest.ofCall c = .error e) ∨
    ∃ tool ∈ Plan.dateTools, c.tool? = some tool ∧ ∃ key ∈ ToolRequest.dateKeys, ∃ raw,
      c.text? key = some raw ∧ Date.read? (Text.trimmed raw) = none

/-! ### Dates -/

namespace ToolRequest

variable {raw : String}

/-- A text that is no date is refused. -/
theorem readDate_eq_error (tool : ToolName) (key : String) (hraw : Text.trimmed raw ≠ "")
    (h : Date.read? (Text.trimmed raw) = none) : ∃ e, readDate tool key (some raw) = .error e := by
  rw [readDate, Option.map_some, Option.filter_some, if_pos (by simpa using hraw)]
  simp only [h]
  exact ⟨_, rfl⟩

/-- If one of two dates is none, they are no range. -/
theorem readDates_eq_error {tool : ToolName} {first last : Option String}
    (hdate : first = some raw ∨ last = some raw)
    (hraw : Text.trimmed raw ≠ "") (h : Date.read? (Text.trimmed raw) = none) :
    ∃ e, readDates tool first last = .error e := by
  rw [readDates]
  cases hfirst : readDate tool "date_from" first with
  | error e => exact ⟨e, rfl⟩
  | ok date =>
      rcases hdate with rfl | rfl
      · obtain ⟨e, he⟩ := readDate_eq_error tool "date_from" hraw h
        exact nomatch he.symm.trans hfirst
      · obtain ⟨e, he⟩ := readDate_eq_error tool "date_to" hraw h
        exact ⟨e, by rw [he]; rfl⟩

end ToolRequest

namespace Expander

open Archivist.Action

variable {V : Option (Except Failure (List String)) → Prop}

/-- Without a graph there is nobody to ask. -/
theorem meets_addAliases_of_not_hasGraph (x : Expander) (hx : x.hasGraph = false)
    (terms names : List String) :
    (x.addAliases terms names).Meets (fun _ => False) fun o => ∃ found, o = some (.ok found) := by
  induction terms generalizing names with
  | nil => exact meets_pure ⟨names, rfl⟩
  | cons term rest ih =>
      have haliases : (x.aliases term).Meets (fun _ => False) (·.isSome) := by
        simp only [aliases, hx]
        exact meets_pure rfl
      exact haliases.caught.bind_ok fun found => ih _

/-- There is a graph, and a term to ask it about. -/
def Consults (x : Expander) (terms : List String) : Prop :=
  x.hasGraph = true ∧ ∃ term ∈ terms, Text.trimmed term ≠ ""

/-- **Terms are widened by asking the graph**, if there is one and a term to ask it about. -/
theorem meets_expand_consults (x : Expander) (terms : List String) :
    (x.expand terms).Meets (fun q => x.Consults terms ∧ q.IsGraph)
      fun o => ∃ found, o = some (.ok found) := by
  by_cases hc : x.Consults terms
  · exact Program.Meets.mono (x.meets_expand terms) (fun q hq => ⟨hc, hq⟩) fun _ => id
  · refine Program.Meets.mono (P := fun _ => False) ?_ (fun _ => False.elim) fun _ => id
    cases hx : x.hasGraph with
    | false => exact x.meets_addAliases_of_not_hasGraph hx _ _
    | true =>
        have hnil : terms.foldl pushTerm [] = [] := (foldl_pushTerm_eq_nil_iff terms []).2
          ⟨rfl, fun term hterm => by_contra fun hne => hc ⟨hx, term, hterm, hne⟩⟩
        show (x.addAliases (terms.foldl pushTerm []) _).Meets _ _
        rw [hnil]
        exact meets_pure ⟨_, rfl⟩

/-- Widening begins with a question if there is one to ask. -/
theorem exists_ask_of_consults {x : Expander} {terms : List String} (h : x.Consults terms) :
    ∃ term next, (x.expand terms).run = .ask (.aliasesNamed term) next := by
  obtain ⟨hx, term, hterm, hne⟩ := h
  cases hasked : terms.foldl pushTerm [] with
  | nil => exact absurd (((foldl_pushTerm_eq_nil_iff terms []).1 hasked).2 term hterm) hne
  | cons first rest =>
      have hexpand : x.expand terms =
          x.addAliases (first :: rest) (x.withSynonyms (first :: rest)) := hasked ▸ rfl
      rw [hexpand]
      simp only [addAliases, aliases, hx]
      exact ⟨first, _, rfl⟩

end Expander

namespace Toolbox

open Archivist.Action

variable {r : ToolRequest} {e : Failure}

/-- The request is a search for documents whose terms the graph is asked about. -/
def Widens (t : Toolbox) : ToolRequest → Prop
  | .searchDocuments args =>
    args.expand = some true ∧ t.expander.Consults (searchTerms args)
  | _ => False

/-- Gathering terms asks the graph if they are to be widened, and does not fail. -/
theorem meets_documentTerms (t : Toolbox) (args : DocumentsArgs) :
    (t.documentTerms args).Meets (fun q => t.Widens (.searchDocuments args) ∧ q.IsGraph)
      fun o => ∃ found, o = some (.ok found) := by
  cases hexpand : args.expand.getD false with
  | false =>
      rw [documentTerms, hexpand]
      exact meets_pure ⟨_, rfl⟩
  | true =>
      have hsome : args.expand = some true := by
        cases he : args.expand with
        | none => rw [he] at hexpand; cases hexpand
        | some b => rw [he] at hexpand; exact congrArg some hexpand
      rw [documentTerms, hexpand]
      exact Program.Meets.mono (t.expander.meets_expand_consults _)
        (fun q hq => ⟨⟨hsome, hq.1⟩, hq.2⟩) fun _ => id

/-- **If the dates of a request are none, its tool fails.** Only a search that widens its terms asks
for something before it does, namely the graph. -/
theorem meets_run_of_readDates (t : Toolbox)
    (h : ToolRequest.readDates r.tool r.dates.1 r.dates.2 = .error e) :
    (t.run r).Meets (fun q => t.Widens r ∧ q.IsGraph) (· = some (.error e)) := by
  have hfail : ∀ {α β : Type} {dates : Except Failure α} {f : α → Action β} {P : Ask → Prop},
      dates = .error e → (ofExcept dates >>= f).Meets P (· = some (.error e)) := by
    rintro α β dates f P rfl
    exact rfl
  cases r with
  | searchDocuments args => exact (t.meets_documentTerms args).bind_ok fun terms => hfail h
  | searchDispatchOrders args => exact hfail h
  | getStatistics args => exact hfail h
  | searchEntities args => cases h
  | getEntityDetail args => cases h
  | findSimilar args => cases h

/-- A search that widens its terms asks the graph first. -/
theorem exists_ask_of_widens {t : Toolbox} (h : t.Widens r) :
    ∃ term next, (t.run r).run = .ask (.aliasesNamed term) next := by
  cases r with
  | searchDocuments args =>
      obtain ⟨hexpand, hconsults⟩ := h
      obtain ⟨term, next, hask⟩ := Expander.exists_ask_of_consults hconsults
      have hterms : (t.documentTerms args).run = .ask (.aliasesNamed term) next := by
        rw [documentTerms, hexpand]
        exact hask
      have hrun : ∀ {β : Type} (f : List String → Action β), ∃ next',
          (t.documentTerms args >>= f).run = .ask (.aliasesNamed term) next' := by
        intro β f
        show ∃ next', Program.bind (t.documentTerms args).run _ = _
        rw [hterms]
        exact ⟨_, rfl⟩
      exact ⟨term, hrun _⟩
  | searchDispatchOrders args => cases h
  | getStatistics args => cases h
  | searchEntities args => cases h
  | getEntityDetail args => cases h
  | findSimilar args => cases h

end Toolbox

namespace Workshop

variable {s : Workshop} {c : ToolCall} {r : ToolRequest} {env : Environment} {w : World env}

/-- The call is a search for documents whose terms the graph is asked about. -/
def Widens (s : Workshop) (c : ToolCall) : Prop :=
  ∃ r, ToolRequest.ofCall c = .ok r ∧ s.toolbox.Widens r

/-- If a malformed call makes a request at all, a date of it is none. -/
theorem readDates_of_isMalformed (hc : c.IsMalformed) (hr : ToolRequest.ofCall c = .ok r) :
    ∃ e, ToolRequest.readDates r.tool r.dates.1 r.dates.2 = .error e := by
  rcases hc with ⟨e, he⟩ | ⟨tool, ht, htool, key, hkey, raw, hraw, hdate⟩
  · exact nomatch he.symm.trans hr
  · obtain ⟨hget, hblank⟩ := ToolCall.text?_eq_some hraw
    rw [ToolRequest.ofCall, htool] at hr
    exact ToolRequest.readDates_eq_error (ToolRequest.date_of_ofParts ht hkey hr hget)
      (Text.trimmed_ne_empty hblank) hdate

/-- The lane of a malformed call has ended, or its tool is about to fail. -/
theorem lane_of_isMalformed (hc : c.IsMalformed) :
    (∃ e, s.lane c = .ended (.value (.error e)) ∧ ¬ s.Widens c) ∨
      ∃ r e, s.lane c = .ready true (some s.allowance) (s.toolbox.run r).run ∧
        (s.Widens c ↔ s.toolbox.Widens r) ∧
        (s.toolbox.run r).Meets (fun q => s.Widens c ∧ q.IsGraph) (· = some (.error e)) := by
  cases hr : ToolRequest.ofCall c with
  | error e =>
      refine .inl ⟨e, by rw [lane, hr], ?_⟩
      rintro ⟨r, hr', -⟩
      rw [hr] at hr'
      cases hr'
  | ok r =>
      obtain ⟨e, he⟩ := readDates_of_isMalformed hc hr
      have hwidens : s.Widens c ↔ s.toolbox.Widens r := by
        refine ⟨?_, fun h => ⟨r, hr, h⟩⟩
        rintro ⟨r', hr', h⟩
        obtain rfl : r = r' := Except.ok.inj (hr.symm.trans hr')
        exact h
      refine .inr ⟨r, e, by rw [lane, hr], hwidens, ?_⟩
      simp only [hwidens]
      exact s.toolbox.meets_run_of_readDates he

-- Otherwise Lean reads the call to see what a goal about its lane unfolds to.
attribute [local irreducible] lane

/-- **A malformed call asks nothing**, unless it is a search that widens its terms, and then the
graph alone. -/
theorem asks_lane_of_isMalformed (hc : c.IsMalformed) :
    (s.lane c).Asks fun q => s.Widens c ∧ q.IsGraph := by
  obtain ⟨e, hlane, -⟩ | ⟨r, e, hlane, -, hmeets⟩ := lane_of_isMalformed (s := s) hc
  · rw [hlane]
    trivial
  · rw [hlane]
    exact Program.Meets.mono hmeets (fun _ => id) fun _ _ => trivial

/-- The lane of a malformed call fails. -/
theorem fails_lane_of_isMalformed (hc : c.IsMalformed) : (s.lane c).Fails := by
  obtain ⟨e, hlane, -⟩ | ⟨r, e, hlane, -, hmeets⟩ := lane_of_isMalformed (s := s) hc
  · rw [hlane]
    rintro output ⟨⟩
  · rw [hlane]
    refine Program.Meets.mono hmeets (fun _ _ => trivial) ?_
    rintro o rfl output ⟨⟩

/-- The result of a call that has come to no value. -/
theorem exists_failed {e : Ending ToolOutput} (he : (Lane.ended e).Fails) :
    ∃ reason, s.result c e = .failed c reason := by
  rcases e with (e | output) | _ | _
  · exact ⟨_, rfl⟩
  · exact absurd rfl (he output)
  · exact ⟨_, rfl⟩
  · exact ⟨_, rfl⟩

/-- **A malformed call fails**, whatever else is called and however the calls take turns. -/
theorem failed_of_isMalformed (hc : c.IsMalformed) {limit : Option ℕ} {calls : List ToolCall}
    {results : List ToolResult} (h : (s.round limit calls w).1 = some results) {i : ℕ}
    (hi : calls[i]? = some c) : ∃ reason, results[i]? = some (.failed c reason) := by
  rw [round_fst, World.join_fst] at h
  obtain ⟨endings, hendings, rfl⟩ := Option.map_eq_some_iff.1 h
  have hlane : (calls.map s.lane)[i]? = some (s.lane c) := by
    rw [List.getElem?_map, hi, Option.map_some]
  obtain ⟨l, hl, hfails⟩ := World.fails_run hlane (fails_lane_of_isMalformed hc) limit w 0
  rw [World.eq_map_ended hendings, List.getElem?_map] at hl
  obtain ⟨e, he, rfl⟩ := Option.map_eq_some_iff.1 hl
  obtain ⟨reason, hreason⟩ := exists_failed (s := s) (c := c) hfails
  exact ⟨reason, by rw [List.getElem?_zipWith, hi, he, ← hreason]⟩

/-- A malformed call by itself comes to an end if a permit is free, and asks the graph first if its
terms are to be widened. -/
theorem join_of_isMalformed (hc : c.IsMalformed) (hfree : 0 < w.permits.free) :
    ∃ e, (w.join none [s.lane c]).1 = some [e] ∧
      (s.Widens c → w.log.length < (w.join none [s.lane c]).2.log.length) := by
  have hunhindered : w.Unhindered (s.lane c) := by
    obtain ⟨e, hlane, -⟩ | ⟨r, e, hlane, -⟩ := lane_of_isMalformed (s := s) hc
    · rw [hlane]
      trivial
    · rw [hlane]
      exact hfree
  obtain ⟨e, hrun, hlog⟩ := World.run_alone w (fun _ h => h.2.ne_embedding _ rfl)
    (asks_lane_of_isMalformed hc) hunhindered
  have hjoin : w.join none [s.lane c] = (some [e], (w.run none 0 [s.lane c]).2) := by
    rcases World.join_cases w none [s.lane c] with ⟨found, hls, hj⟩ | ⟨hnone, -⟩
    · rw [hrun] at hls
      obtain ⟨e', rfl, he⟩ := List.map_eq_singleton_iff.1 hls.symm
      obtain rfl : e' = e := Lane.ended.inj he
      exact hj
    · rw [hrun] at hnone
      cases hnone
  rw [hjoin]
  refine ⟨e, rfl, fun hwidens => ?_⟩
  obtain ⟨e, -, hno⟩ | ⟨r, e, hlane, hiff, -⟩ := lane_of_isMalformed (s := s) hc
  · exact absurd hwidens hno
  · obtain ⟨term, next, hask⟩ := Toolbox.exists_ask_of_widens (hiff.1 hwidens)
    refine hlog (.aliasesNamed term) next nofun ?_
    rw [hlane]
    exact hask

/-- A malformed call that does not widen its terms asks nothing. -/
theorem log_of_not_widens (hc : c.IsMalformed) (hwidens : ¬ s.Widens c) (limit : Option ℕ)
    (w : World env) : (s.round limit [c] w).2.log = w.log := by
  obtain ⟨xs, hlog, hxs⟩ := World.join_asked w limit
    (List.forall_mem_singleton.2 (asks_lane_of_isMalformed (s := s) hc))
  have hnil : xs = [] := List.eq_nil_iff_forall_not_mem.2 fun x hx => hwidens (hxs x hx).1
  rw [hnil, List.append_nil] at hlog
  exact hlog

/-- **A malformed call costs nothing, unless it is a search that widens its terms.** In any round it
fails, and asks nothing but the graph, which it asks only to widen its terms. By itself it comes to
its failure as soon as a permit is free, and asks nothing if and only if it does not widen terms. -/
theorem malformed_costs_nothing_iff (s : Workshop) (hc : c.IsMalformed) :
    (s.lane c).Asks (fun q => s.Widens c ∧ q.IsGraph) ∧
    (∀ {env : Environment} (w : World env) (limit : Option ℕ) (calls : List ToolCall)
      (results : List ToolResult), (s.round limit calls w).1 = some results →
      ∀ i : ℕ, calls[i]? = some c → ∃ reason, results[i]? = some (.failed c reason)) ∧
    ∀ {env : Environment} (w : World env), 0 < w.permits.free → ∃ reason,
      (s.round none [c] w).1 = some [.failed c reason] ∧
      ((s.round none [c] w).2.log = w.log ↔ ¬ s.Widens c) := by
  refine ⟨asks_lane_of_isMalformed hc, fun w limit calls results h i hi =>
    failed_of_isMalformed hc h hi, fun w hfree => ?_⟩
  obtain ⟨e, hjoin, hlog⟩ := join_of_isMalformed (s := s) hc hfree
  have hround : (s.round none [c] w).1 = some [s.result c e] := by
    rw [round_fst, List.map_singleton, hjoin]
    rfl
  obtain ⟨reason, hreason⟩ := failed_of_isMalformed hc hround (i := 0) rfl
  have hfailed : s.result c e = .failed c reason := Option.some.inj hreason
  refine ⟨reason, hfailed ▸ hround, fun hsame hwidens => ?_,
    fun hno => log_of_not_widens hc hno none w⟩
  rw [round_snd, List.map_singleton] at hsame
  exact absurd (hlog hwidens) (hsame ▸ Nat.lt_irrefl _)

/-- Collaborators that fail at once, whatever they are asked. -/
def offline : Environment where
  State := Unit
  respond := fun _ _ => (⟨0, some (.error (.store "offline"))⟩, ())

/-- A world in which nothing has been done yet. -/
def offlineWorld : World offline :=
  { cache := .fresh ⟨8, 1, 1⟩, permits := { free := 1 }, state := () }

/-- Statistics since a date that is none cost nothing. -/
theorem statistics_cost_nothing : ∃ reason,
    ((({} : Config).workshop { index := ⟨[]⟩ }).round none
        [⟨"get_statistics", [("date_from", .str "去年")]⟩] offlineWorld).1 =
        some [.failed ⟨"get_statistics", [("date_from", .str "去年")]⟩ reason] ∧
      ((({} : Config).workshop { index := ⟨[]⟩ }).round none
        [⟨"get_statistics", [("date_from", .str "去年")]⟩] offlineWorld).2.log = [] := by
  have htool : ToolCall.tool? ⟨"get_statistics", [("date_from", .str "去年")]⟩ =
      some .getStatistics := by decide +kernel
  obtain ⟨-, -, halone⟩ := malformed_costs_nothing_iff (({} : Config).workshop { index := ⟨[]⟩ })
    (c := ⟨"get_statistics", [("date_from", .str "去年")]⟩)
    (.inr ⟨_, by decide, htool, "date_from", by decide, "去年", rfl, by decide +kernel⟩)
  obtain ⟨reason, hround, hlog⟩ := halone offlineWorld (Nat.lt_succ_self 0)
  refine ⟨reason, hround, hlog.2 ?_⟩
  rintro ⟨r, hr, hwidens⟩
  rw [ToolRequest.ofCall, htool] at hr
  cases hr
  exact hwidens

/-- A search with a date that is none; its terms are to be widened. -/
def searchSinceLastYear : ToolCall where
  name := "search_documents"
  arguments := [("date_from", .str "去年"), ("expand", .bool true), ("query", .str "道路")]

/-- A search with a date that is none asks the graph. -/
theorem search_asks_graph : searchSinceLastYear.IsMalformed ∧
    ((({} : Config).workshop { index := ⟨[]⟩ }).round none [searchSinceLastYear]
      offlineWorld).2.log ≠ [] := by
  have htool : searchSinceLastYear.tool? = some .searchDocuments := by decide +kernel
  have hmalformed : searchSinceLastYear.IsMalformed :=
    .inr ⟨_, by decide, htool, "date_from", by decide, "去年", rfl, by decide +kernel⟩
  have hwidens : (({} : Config).workshop { index := ⟨[]⟩ }).Widens searchSinceLastYear := by
    refine ⟨.searchDocuments ⟨"道路", [], some "去年", none, none, none, none, none, some true,
      none⟩, ?_, rfl, rfl, "道路", by decide +kernel, by decide +kernel⟩
    rw [ToolRequest.ofCall, htool]
    rfl
  obtain ⟨e, -, hlog⟩ := join_of_isMalformed (w := offlineWorld) hmalformed (Nat.lt_succ_self 0)
  exact ⟨hmalformed, List.ne_nil_of_length_pos (hlog hwidens)⟩

end Workshop

end Archivist
