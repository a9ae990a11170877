import Archivist.Proofs.Expansion.Terms
import Archivist.Proofs.Ranking.Rerank
import Archivist.Proofs.Text.Margin
import Archivist.Proofs.Tool.Filter
import Archivist.Proofs.Tool.Question
import Mathlib.Data.List.Sort

/-!
# Queries and Their Terms

A text that is cut at separators consists of pieces without separators and of one separator between
each two of them (`Text.Cut`); every text is cut in one way only. The terms of a query are its
pieces, each trimmed, without blank ones, in the order in which they come first. `Splits` says this
of a query and a list without a word on how the list is made, and there is exactly one such list.

What separates terms and what is trimmed off them are two sets of characters, and neither is part of
the other: an ideographic space or a carriage return does not end a term, and a comma is no white
space. So a term may have white space inside. It is still a term of its own when terms are joined
with spaces, because nothing inside cuts it and nothing at its ends is trimmed. `Separable` lists
what that takes.

A search for documents without a query of its own puts its terms together to a text. If these are
the terms of some query, the text stands for exactly them.

## Main results

* `Text.splitAt_eq_iff`: splitting cuts a text, in the one way that there is.
* `eq_termsOf_iff`: what the terms of a query are.
* `termsOf_joined_iff`: which terms come back from their joined text.
* `termsOf_spec`: both, and what a search makes of its terms.
-/

namespace Archivist

/-! ### Texts in pieces -/

namespace Text

variable {p : Char → Bool} {c : Char} {cs piece : List Char} {pieces : List (List Char)}

/-- The text is cut into these pieces at the characters that satisfy `p`. -/
inductive Cut (p : Char → Bool) : List Char → List (List Char) → Prop where
  | whole {piece : List Char} (hpiece : ∀ c ∈ piece, p c = false) : Cut p piece [piece]
  | cons {piece : List Char} (hpiece : ∀ c ∈ piece, p c = false) {c : Char} (hc : p c = true)
      {cs : List Char} {pieces : List (List Char)} (hcut : Cut p cs pieces) :
      Cut p (piece ++ c :: cs) (piece :: pieces)

/-- No piece has a separator. -/
theorem Cut.unseparated (h : Cut p cs pieces) : ∀ piece ∈ pieces, ∀ c ∈ piece, p c = false := by
  induction h with
  | whole hpiece => exact List.forall_mem_singleton.2 hpiece
  | cons hpiece _ _ ih => exact List.forall_mem_cons.2 ⟨hpiece, ih⟩

/-- A text is in one piece at least. -/
theorem Cut.ne_nil (h : Cut p cs pieces) : pieces ≠ [] := by
  cases h <;> exact List.cons_ne_nil _ _

/-- The library has the same function under another recursion. -/
theorem splitAt_eq_splitOnP (p : Char → Bool) (cs : List Char) :
    splitAt p cs = cs.splitOnP p := by
  induction cs with
  | nil => rfl
  | cons c cs ih =>
      obtain ⟨piece, rest, hsplit⟩ := List.exists_cons_of_ne_nil (List.splitOnP_ne_nil p cs)
      rw [splitAt, ih, List.splitOnP_cons_eq_if_modifyHead, hsplit]
      rfl

/-- **Splitting cuts a text.** -/
theorem cut_splitAt (p : Char → Bool) (cs : List Char) : Cut p cs (splitAt p cs) := by
  induction cs with
  | nil => exact .whole (List.forall_mem_nil _)
  | cons c cs ih =>
      obtain ⟨piece, rest, hsplit⟩ := List.exists_cons_of_ne_nil ih.ne_nil
      rw [hsplit] at ih
      rw [splitAt, hsplit]
      split_ifs with hc
      · exact .cons (List.forall_mem_nil _) hc ih
      · -- The character belongs to the first piece of what follows.
        have hpiece : ∀ d ∈ c :: piece, p d = false :=
          List.forall_mem_cons.2 ⟨Bool.eq_false_iff.2 hc, ih.unseparated _ List.mem_cons_self⟩
        cases ih with
        | whole => exact .whole hpiece
        | cons _ hsep hcut => exact .cons hpiece hsep hcut

/-- **A text is cut in one way only**, and splitting finds it. -/
theorem splitAt_eq_iff : splitAt p cs = pieces ↔ Cut p cs pieces := by
  refine ⟨fun h => h ▸ cut_splitAt p cs, fun h => ?_⟩
  rw [splitAt_eq_splitOnP]
  induction h with
  | whole hpiece => exact List.splitOnP_eq_singleton hpiece
  | cons hpiece hc _ ih =>
      rw [List.splitOnP_append_cons _ _ hc, List.splitOnP_eq_singleton hpiece, ih,
        List.singleton_append]

/-- **Pieces are what their joined text is cut into.** -/
theorem cut_intercalate (hc : p c = true) (hne : pieces ≠ [])
    (h : ∀ piece ∈ pieces, ∀ c ∈ piece, p c = false) : Cut p ([c].intercalate pieces) pieces := by
  induction pieces with
  | nil => exact absurd rfl hne
  | cons piece rest ih =>
      rw [List.forall_mem_cons] at h
      cases rest with
      | nil =>
          rw [List.intercalate_singleton]
          exact .whole h.1
      | cons next rest =>
          rw [List.intercalate_cons_cons, List.append_assoc, List.singleton_append]
          exact .cons h.1 hc (ih (List.cons_ne_nil _ _) h.2)

end Text

variable {query text : String} {pieces terms terms' : List String}

/-! ### The first of each piece -/

/-- The terms are the pieces, trimmed, that are not blank, in the order in which they come first. -/
structure Collects (pieces terms : List String) : Prop where
  mem_iff : ∀ term, term ∈ terms ↔
    ∃ piece ∈ pieces, Text.blank piece = false ∧ Text.trimmed piece = term
  ordered : terms.Pairwise fun a b =>
    (pieces.map Text.trimmed).idxOf a < (pieces.map Text.trimmed).idxOf b

/-- The distinct terms of pieces are collected from them. -/
theorem collects_distinctTerms (pieces : List String) : Collects pieces (distinctTerms pieces) where
  mem_iff term := by
    rw [mem_distinctTerms_iff, mem_trimmedTerms_iff]
    constructor
    · rintro ⟨⟨piece, hpiece, rfl⟩, hne⟩
      exact ⟨piece, hpiece, Bool.eq_false_iff.2 fun h => hne (Text.trimmed_of_blank h), rfl⟩
    · rintro ⟨piece, hpiece, hblank, rfl⟩
      exact ⟨⟨piece, hpiece, rfl⟩, Text.trimmed_ne_empty hblank⟩
  ordered := pairwise_idxOf_firstOfEach _ [] (pieces.map Text.trimmed)

/-- Pieces have one list of terms. -/
theorem Collects.eq (h : Collects pieces terms) (h' : Collects pieces terms') : terms = terms' := by
  let before (a b : String) : Prop :=
    (pieces.map Text.trimmed).idxOf a < (pieces.map Text.trimmed).idxOf b
  have hirrefl : Std.Irrefl before := ⟨fun _ => lt_irrefl _⟩
  have hantisymm : Std.Antisymm before := ⟨fun _ _ hab hba => absurd hab (lt_asymm hba)⟩
  exact List.Pairwise.eq_of_mem_iff (r := before) h.ordered h'.ordered fun term =>
    (h.mem_iff term).trans (h'.mem_iff term).symm

/-! ### Terms of a query -/

/-- The query, cut at its separators, has these terms. -/
def Splits (query : String) (terms : List String) : Prop :=
  ∃ pieces : List String,
    Text.Cut (· ∈ termSeparators) query.toList (pieces.map String.toList) ∧ Collects pieces terms

/-- The pieces of a query between its separators. -/
def piecesOf (query : String) : List String :=
  (Text.splitAt (· ∈ termSeparators) query.toList).map String.ofList

/-- A query is cut into its pieces. -/
theorem cut_iff : Text.Cut (· ∈ termSeparators) query.toList (pieces.map String.toList) ↔
    piecesOf query = pieces := by
  rw [← Text.splitAt_eq_iff, piecesOf]
  constructor
  · intro h
    rw [h, List.map_map]
    exact List.map_id'' (fun _ => String.ofList_toList) pieces
  · rintro rfl
    rw [List.map_map]
    exact (List.map_id'' (fun _ => String.toList_ofList) _).symm

/-- A piece of a query is added as a term of its own. -/
theorem addPiece_eq (terms : List String) (piece : List Char) :
    addPiece terms piece = pushTerm terms (String.ofList piece) := by
  rw [addPiece, pushTerm, Text.trimmed, String.toList_ofList]

/-- The terms of a query are the distinct ones among its pieces. -/
theorem termsOf_eq_distinctTerms (query : String) :
    termsOf query = distinctTerms (piecesOf query) := by
  rw [← foldl_pushTerm_nil, piecesOf, List.foldl_map, termsOf, funext₂ addPiece_eq]

/-- The terms of a query are clean. -/
theorem cleanTerms_termsOf (query : String) : CleanTerms (termsOf query) :=
  termsOf_eq_distinctTerms query ▸ cleanTerms_distinctTerms _

/-- The terms of a query are pushed as they are. -/
theorem foldl_pushTerm_termsOf (query : String) :
    (termsOf query).foldl pushTerm [] = termsOf query :=
  foldl_pushTerm_of_clean (cleanTerms_termsOf query)

/-- The terms of a query are collected from its pieces. -/
theorem collects_termsOf (query : String) : Collects (piecesOf query) (termsOf query) :=
  termsOf_eq_distinctTerms query ▸ collects_distinctTerms _

/-- **A query has one list of terms.** -/
theorem eq_termsOf_iff : terms = termsOf query ↔ Splits query terms := by
  constructor
  · rintro rfl
    exact ⟨piecesOf query, cut_iff.2 rfl, collects_termsOf query⟩
  · rintro ⟨pieces, hcut, hterms⟩
    obtain rfl := cut_iff.1 hcut
    exact hterms.eq (collects_termsOf query)

/-! ### Terms that are joined -/

/-- What it takes for terms to be told apart in a query. -/
structure Separable (terms : List String) : Prop where
  nodup : terms.Nodup
  not_blank : ∀ term ∈ terms, Text.blank term = false
  trimmed : ∀ term ∈ terms, Text.trimmed term = term
  unseparated : ∀ term ∈ terms, ∀ c ∈ term.toList, c ∉ termSeparators

/-- Terms that can be told apart are clean. -/
theorem Separable.cleanTerms (h : Separable terms) : CleanTerms terms where
  nodup := h.nodup
  trimmed := h.trimmed
  ne_empty term hterm := h.trimmed term hterm ▸ Text.trimmed_ne_empty (h.not_blank term hterm)

/-- The terms of a query can be told apart. -/
theorem separable_termsOf (query : String) : Separable (termsOf query) where
  nodup := (cleanTerms_termsOf query).nodup
  not_blank term hterm := by
    obtain ⟨piece, -, hblank, rfl⟩ := ((collects_termsOf query).mem_iff term).1 hterm
    rwa [Text.blank, Text.trimmed, String.toList_ofList, Text.allBlank_trim]
  trimmed := (cleanTerms_termsOf query).trimmed
  unseparated term hterm c hc := by
    obtain ⟨piece, hpiece, -, rfl⟩ := ((collects_termsOf query).mem_iff term).1 hterm
    rw [Text.trimmed, String.toList_ofList] at hc
    have hmem : c ∈ piece.toList := (Text.trim_isInfix piece.toList).subset hc
    have hcut := cut_iff.2 (rfl : piecesOf query = piecesOf query)
    exact of_decide_eq_false (hcut.unseparated _ (List.mem_map_of_mem hpiece) c hmem)

/-- Joined with spaces, terms that can be told apart are the pieces of a query. -/
theorem Separable.piecesOf_joined (h : Separable terms) (hne : terms ≠ []) :
    piecesOf (Text.joined " " terms) = terms := by
  rw [← cut_iff, Text.joined, String.toList_intercalate]
  refine Text.cut_intercalate (by decide) (by simpa using hne) ?_
  rw [List.forall_mem_map]
  exact fun term hterm c hc => decide_eq_false (h.unseparated term hterm c hc)

/-- **Terms that can be told apart are the terms of their joined text.** -/
theorem Separable.termsOf_joined (h : Separable terms) :
    termsOf (Text.joined " " terms) = terms := by
  by_cases hne : terms = []
  · rw [hne]
    rfl
  · rw [termsOf_eq_distinctTerms, h.piecesOf_joined hne, ← foldl_pushTerm_nil]
    exact foldl_pushTerm_of_clean h.cleanTerms

/-- **No other terms come back** from their joined text. -/
theorem termsOf_joined_iff : termsOf (Text.joined " " terms) = terms ↔ Separable terms :=
  ⟨fun h => h ▸ separable_termsOf _, Separable.termsOf_joined⟩

/-! ### Searches -/

/-- A question of a search that is about this text and looks for these terms. -/
def Ask.IsAbout (text : String) (terms : List String) : Ask → Prop
  | .embedding embedded => embedded = text
  | .vectorSearch .. => True
  | .keywordSearch filter _ => filter.keywords = terms
  | .complete request => ∃ candidates, request =
      .forTask .rerank [{ role := .user, content := Ranking.judgePrompt text candidates }]
  | _ => False

open Archivist.Action

namespace Retrieval

variable {filter : DocumentFilter}

/-- Candidates by embedding are asked for by the text alone. -/
theorem asks_vectorCandidates (limit : ℕ) :
    (vectorCandidates text filter limit).Asks (Ask.IsAbout text terms) := by
  have hembedding : Ask.IsAbout text terms (.embedding text) := rfl
  have hnear : ∀ v, Ask.IsAbout text terms (.vectorSearch v filter limit) := fun _ => trivial
  refine (asks_attempt hembedding).bind fun reply => ?_
  split
  · exact (asks_ask (hnear _)).bind fun _ => asks_pure _
  · exact asks_pure _

/-- Candidates by keyword are asked for by the terms alone. -/
theorem asks_withKeywords (limit : ℕ) (strategy : SearchStrategy) (near : List Document) :
    (withKeywords terms filter limit strategy near).Asks (Ask.IsAbout text terms) := by
  have hkeywords : Ask.IsAbout text terms
      (.keywordSearch { filter with keywords := terms } limit) := rfl
  rw [withKeywords]
  split
  · exact (asks_ask hkeywords).bind fun _ => asks_pure _
  · exact asks_pure _

/-- Candidates are asked for by the text and the terms. -/
theorem asks_candidates (limit : ℕ) (strategy : SearchStrategy) :
    (candidates text terms filter limit strategy).Asks (Ask.IsAbout text terms) := by
  rw [candidates]
  split
  · exact (asks_vectorCandidates limit).bind (asks_withKeywords limit strategy)
  · exact (asks_pure _).bind (asks_withKeywords limit strategy)

end Retrieval

/-- A judge is asked about the text alone. -/
theorem Ranker.asks_judge (r : Ranker) (found : List Document) :
    (r.judge text found).Asks (Ask.IsAbout text terms) := by
  have hjudge : ∀ candidates, Ask.IsAbout text terms (.complete (.forTask .rerank
      [{ role := .user, content := Ranking.judgePrompt text candidates }])) :=
    fun candidates => ⟨candidates, rfl⟩
  rw [judge]
  split
  · exact asks_pure _
  · refine (asks_attempt (hjudge _)).bind fun reply => ?_
    split <;> exact asks_pure _

/-- **A search asks about its text and its terms**, and about nothing else. -/
theorem Retrieval.asks_search (r : Ranker) (filter : DocumentFilter) (params : SearchParams) :
    (search r text terms filter params).Asks (Ask.IsAbout text terms) := by
  rw [search]
  refine (asks_candidates _ _).bind fun found => ?_
  split
  · rw [Ranker.rankWithJudge_eq]
    exact ((r.asks_judge found).bind fun _ => asks_pure _).bind fun _ => asks_pure _
  · exact (asks_pure _).bind fun _ => asks_pure _

/-- **A search goes on with its terms**, once they are there, and with the text they give it. -/
theorem Toolbox.exists_leads_searchDocuments {t : Toolbox} {args : DocumentsArgs}
    {answers : List (Answered Reply)} (h : (t.documentTerms args).Yields answers terms) :
    ∃ rest : Action ToolOutput, (t.searchDocuments args).run.Leads answers rest.run ∧
      rest.Asks (Ask.IsAbout (args.text terms) terms) := by
  rw [searchDocuments]
  refine ⟨_, h.bind _, ?_⟩
  exact (asks_ofExcept _).bind fun dates =>
    (Retrieval.asks_search _ _ _).bind fun documents => asks_pure _

/-- **The text of a search stands for its terms** exactly if they are the terms of its own query, or
of any query if its own is blank. -/
theorem DocumentsArgs.termsOf_text_iff {args : DocumentsArgs} :
    termsOf (args.text terms) = terms ↔
      ∃ source, termsOf source = terms ∧ (Text.blank args.query = true ∨ args.query = source) := by
  constructor
  · intro h
    refine ⟨args.text terms, h, or_iff_not_imp_left.2 fun hblank => ?_⟩
    rw [text, if_neg hblank]
  · rintro ⟨source, rfl, hsource⟩
    rw [text]
    split_ifs with hblank
    · exact (separable_termsOf source).termsOf_joined
    · rw [hsource.resolve_left hblank]

/-- **What the terms of a query are, and that nothing is lost when they are joined.** They are the
pieces between separators, trimmed, that are not blank, each where it comes first, and they are told
apart when they are joined with spaces. A search asks about one text and looks for its terms,
whatever answers have widened them to what they are, and if terms of a query are put together to
this text, it stands for exactly these terms. -/
theorem termsOf_spec :
    (∀ query, Separable (termsOf query) ∧ (∀ terms, terms = termsOf query ↔ Splits query terms) ∧
      termsOf (Text.joined " " (termsOf query)) = termsOf query) ∧
    ∀ (t : Toolbox) (args : DocumentsArgs) (answers : List (Answered Reply)) (terms : List String),
      (t.documentTerms args).Yields answers terms →
      (∃ rest : Action ToolOutput, (t.searchDocuments args).run.Leads answers rest.run ∧
        rest.Asks (Ask.IsAbout (args.text terms) terms)) ∧
      (termsOf (args.text terms) = terms ↔
        ∃ source, termsOf source = terms ∧ (Text.blank args.query = true ∨ args.query = source)) :=
  ⟨fun query => ⟨separable_termsOf query, fun _ => eq_termsOf_iff,
      (separable_termsOf query).termsOf_joined⟩,
    fun _ _ _ _ hterms =>
      ⟨Toolbox.exists_leads_searchDocuments hterms, DocumentsArgs.termsOf_text_iff⟩⟩

/-- A toolbox without a dictionary, a graph or a judge. -/
def bareToolbox : Toolbox where
  ranker := ⟨⟨0.7, 0.3, 0⟩, 5⟩
  expander := { index := ⟨[]⟩, hasGraph := false }
  defaultLimit := 10
  judged := false

/-- A search by keywords, one of them with an ideographic space inside. -/
def spacedArgs : DocumentsArgs :=
  ⟨"　", ["道路　養護", "工務局"], none, none, none, none, none, none, none, none⟩

/-- The keywords are those that a query has between separators, with other white space around
them; the text that the search is about is another query with the same terms. -/
theorem termsOf_text_spacedArgs :
    termsOf "\r道路　養護、工務局, 道路　養護" = ["道路　養護", "工務局"] ∧
    (bareToolbox.documentTerms spacedArgs).Yields [] ["道路　養護", "工務局"] ∧
    spacedArgs.text ["道路　養護", "工務局"] = "道路　養護 工務局" ∧
    termsOf "道路　養護 工務局" = ["道路　養護", "工務局"] := by
  have hterms : termsOf "\r道路　養護、工務局, 道路　養護" = ["道路　養護", "工務局"] := by
    decide +kernel
  have hyields : (bareToolbox.documentTerms spacedArgs).Yields [] ["道路　養護", "工務局"] :=
    yields_pure_iff.2 ⟨rfl, rfl⟩
  have hblank : Text.blank spacedArgs.query = true := by decide
  have htext : spacedArgs.text ["道路　養護", "工務局"] = "道路　養護 工務局" := by decide +kernel
  have hstands := (termsOf_spec.2 bareToolbox spacedArgs [] _ hyields).2.2
    ⟨_, hterms, .inl hblank⟩
  rw [htext] at hstands
  exact ⟨hterms, hyields, htext, hstands⟩

end Archivist
