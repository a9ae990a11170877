import Archivist.Proofs.Expansion.Dictionary
import Archivist.Proofs.Tool.Question

/-!
# Gathering Search Terms

Widening looks up each term in the knowledge graph, one after the other, and puts together what is
found: the terms that it is given, their synonyms, and the names from the graph. A lookup asks up to
four questions, and any of them may fail. It is told here by the answers that it gets: a `Lookup`
has a term, the answers along one way through the program, and what they come to. What its names are
and where they come from is read off the answers (`Lookup.Sound`), whatever these are.

No lookup takes anything away from what is there, and none depends on the answers that another one
gets. So what widening comes to is put together from its lookups (`Expander.yields_addAliases`).

## Main results

* `Lookup.sound_of_leads`: what one lookup comes to.
* `Expander.expand_gathers`: what widening comes to.
-/

namespace Archivist

open Archivist.Action

variable {term : String} {terms : List String}

/-! ### Adding names -/

/-- Pushing a name adds it, trimmed, or nothing. -/
theorem pushTerm_eq_or (terms : List String) (name : String) :
    pushTerm terms name = terms ∨ pushTerm terms name = terms ++ [Text.trimmed name] := by
  simp only [pushTerm]
  split_ifs
  · exact .inl rfl
  · exact .inr rfl

/-- **Names up to a limit go to the end**, and there are never more than fit. -/
theorem exists_pushUpTo (limit : ℕ) (terms names : List String) :
    ∃ added, pushUpTo limit terms names = terms ++ added ∧
      added.length ≤ limit - terms.length ∧ added ⊆ names.map Text.trimmed := by
  induction names generalizing terms with
  | nil => exact ⟨[], (List.append_nil terms).symm, Nat.zero_le _, List.Subset.refl _⟩
  | cons name names ih =>
      have hstep : pushUpTo limit terms (name :: names) =
          pushUpTo limit (if limit ≤ terms.length then terms else pushTerm terms name) names := rfl
      have hsame : ∃ added, pushUpTo limit terms names = terms ++ added ∧
          added.length ≤ limit - terms.length ∧ added ⊆ (name :: names).map Text.trimmed := by
        obtain ⟨added, heq, hlength, hnames⟩ := ih terms
        exact ⟨added, heq, hlength, List.subset_cons_of_subset _ hnames⟩
      rw [hstep]
      split_ifs with hfull
      · exact hsame
      · rcases pushTerm_eq_or terms name with hskip | hpush
        · rwa [hskip]
        · obtain ⟨added, heq, hlength, hnames⟩ := ih (terms ++ [Text.trimmed name])
          rw [hpush, heq, List.append_assoc]
          refine ⟨_, rfl, ?_, List.cons_subset_cons _ hnames⟩
          rw [List.length_append, List.length_singleton] at hlength
          rw [List.singleton_append, List.length_cons]
          omega

theorem exists_of_mem_map_trimmed {α : Type} {f : α → String} {xs : List α}
    (h : term ∈ (xs.map f).map Text.trimmed) : ∃ x ∈ xs, Text.trimmed (f x) = term := by
  rw [List.map_map] at h
  exact List.mem_map.1 h

/-- Identifiers are collected once each. -/
theorem mem_foldl_id_iff {id : String} (entities : List Entity) (ids : List String) :
    id ∈ entities.foldl (fun ids e => if e.id ∈ ids then ids else ids ++ [e.id]) ids ↔
      id ∈ ids ∨ ∃ e ∈ entities, e.id = id := by
  induction entities generalizing ids with
  | nil => simp
  | cons e entities ih =>
      rw [List.foldl_cons, ih, List.exists_mem_cons_iff]
      split_ifs with hmem
      · constructor
        · exact Or.imp_right .inr
        · rintro (h | rfl | h)
          · exact .inl h
          · exact .inl hmem
          · exact .inr h
      · rw [List.mem_append, List.mem_singleton, or_assoc, eq_comm (a := id)]

/-- **What a lookup of a term in the graph comes to**: a failure, the term alone, or the term with
names of the entities that have it as a name or as an alias. -/
theorem Expander.leads_aliases {x : Expander} {answers : List (Answered Reply)}
    {outcome : Except Failure (List String)} (hclean : CleanTerms [term])
    (h : (x.aliases term).run.Leads answers (.done outcome)) :
    (∃ e, outcome = .error e) ∨ outcome = .ok [term] ∨
      ∃ (named others : List AliasName) (canonical entities : List Entity)
        (ids added : List String),
        answers = [⟨.aliasesNamed term, .ok named⟩, ⟨.entitiesNamed term, .ok canonical⟩,
          ⟨.entitiesById ids, .ok entities⟩, ⟨.aliasesFor ids, .ok others⟩] ∧
        (∀ id, id ∈ ids ↔ (∃ a ∈ named, a.entityId = id) ∨ ∃ e ∈ canonical, e.id = id) ∧
        outcome = .ok (term :: added) ∧ added.length ≤ x.maxAliases ∧
        ∀ name ∈ added, (∃ e ∈ entities, Text.trimmed e.canonicalName = name) ∨
          ∃ a ∈ others, Text.trimmed a.name = name := by
  simp only [aliases, hclean.pushTerm_nil] at h
  split at h
  · exact .inr (.inl (Program.done.inj (Program.leads_done_iff.1 h).2))
  obtain ⟨e, -, he⟩ | ⟨named, ys, rfl, h₁⟩ := leads_ask_bind_done_iff.1 h
  · exact .inl ⟨e, he⟩
  obtain ⟨e, -, he⟩ | ⟨canonical, ys, rfl, h₂⟩ := leads_ask_bind_done_iff.1 h₁
  · exact .inl ⟨e, he⟩
  split at h₂
  · exact .inr (.inl (Program.done.inj (Program.leads_done_iff.1 h₂).2))
  obtain ⟨e, -, he⟩ | ⟨entities, ys, rfl, h₃⟩ := leads_ask_bind_done_iff.1 h₂
  · exact .inl ⟨e, he⟩
  obtain ⟨e, -, he⟩ | ⟨others, ys, rfl, h₄⟩ := leads_ask_bind_done_iff.1 h₃
  · exact .inl ⟨e, he⟩
  obtain ⟨rfl, hdone⟩ := Program.leads_done_iff.1 h₄
  -- The limit is never more than the term and as many names as are allowed, even if it wraps.
  have hlimit : Count.wrap ([term].length + x.maxAliases) ≤ 1 + x.maxAliases := Nat.mod_le _ _
  generalize Count.wrap ([term].length + x.maxAliases) = limit at hdone hlimit
  obtain ⟨known, hknown, hlength, hentities⟩ :=
    exists_pushUpTo limit [term] (entities.map (·.canonicalName))
  obtain ⟨more, hmore, hlength', hothers⟩ :=
    exists_pushUpTo limit ([term] ++ known) (others.map (·.name))
  refine .inr (.inr ⟨named, others, canonical, entities, _, known ++ more, rfl, ?_, ?_, ?_, ?_⟩)
  · exact fun id => (mem_foldl_id_iff canonical _).trans (or_congr_left List.mem_map)
  · rw [Program.done.inj hdone, hknown, hmore]
    rfl
  · rw [List.length_append, List.length_singleton] at hlength'
    rw [List.length_singleton] at hlength
    rw [List.length_append]
    omega
  · rw [List.forall_mem_append]
    exact ⟨fun name hname => .inl (exists_of_mem_map_trimmed (hentities hname)),
      fun name hname => .inr (exists_of_mem_map_trimmed (hothers hname))⟩

/-! ### Lookups -/

/-- A term is looked up in the knowledge graph. -/
structure Lookup where
  term : String
  /-- The questions to the graph and its answers, one after the other. -/
  answers : List (Answered Reply)
  /-- What the answers come to. -/
  outcome : Except Failure (List String)

namespace Lookup

variable {x : Expander} {l : Lookup}

/-- The graph fails to answer some question. -/
def Failed (l : Lookup) : Prop := ∃ q e, (⟨q, .error e⟩ : Answered Reply) ∈ l.answers

/-- The graph answers a question with this value. -/
def Told (l : Lookup) (q : Ask) (value : q.Value) : Prop :=
  (⟨q, .ok value⟩ : Answered Reply) ∈ l.answers

/-- The names that are found for the term, without the term itself. -/
def names (l : Lookup) : List String :=
  match l.outcome with
  | .ok names => names.tail
  | .error _ => []

/-- The graph has the term as an alias or as the name of the entity with this identifier. -/
def Matches (l : Lookup) (id : String) : Prop :=
  (∃ aliases : List AliasName, l.Told (.aliasesNamed l.term) aliases ∧
      ∃ a ∈ aliases, a.entityId = id) ∨
    ∃ entities : List Entity, l.Told (.entitiesNamed l.term) entities ∧ ∃ e ∈ entities, e.id = id

/-- The graph, asked for the entities that it has matched, gives one of this name or with this
alias. -/
def Names (l : Lookup) (name : String) : Prop :=
  ∃ ids, (∀ id, id ∈ ids ↔ l.Matches id) ∧
    ((∃ entities : List Entity, l.Told (.entitiesById ids) entities ∧
        ∃ e ∈ entities, Text.trimmed e.canonicalName = name) ∨
      ∃ aliases : List AliasName, l.Told (.aliasesFor ids) aliases ∧
        ∃ a ∈ aliases, Text.trimmed a.name = name)

/-- A name that a lookup tells is trimmed. -/
theorem Names.trimmed {name : String} (h : l.Names name) : Text.trimmed name = name := by
  obtain ⟨-, -, ⟨-, -, e, -, rfl⟩ | ⟨-, -, a, -, rfl⟩⟩ := h <;> exact Text.trimmed_trimmed _

/-- What holds of a lookup, whatever the answers are. -/
structure Sound (x : Expander) (l : Lookup) : Prop where
  /-- The questions are those for the term, and the answers come to the outcome. -/
  leads : (x.aliases l.term).run.Leads l.answers (.done l.outcome)
  /-- The term itself comes first. -/
  eq_cons : ∀ found, l.outcome = .ok found → found = l.term :: l.names
  /-- There are no more names than allowed. -/
  length_le : l.names.length ≤ x.maxAliases
  /-- The names are of entities that the graph has matched to the term. -/
  names_of_mem : ∀ name ∈ l.names, l.Names name
  /-- There are no names if the graph fails. -/
  names_of_failed : l.Failed → l.names = []

/-- What a lookup tells comes behind the term itself. -/
theorem names_of_ok {found : List String} (h : l.outcome = .ok found) : l.names = found.tail := by
  rw [names, h]

/-- A lookup that fails tells no names. -/
theorem names_of_error {e : Failure} (h : l.outcome = .error e) : l.names = [] := by
  rw [names, h]

/-- Without names there is nothing to say of them. -/
theorem sound_of_names_eq_nil (h : (x.aliases l.term).run.Leads l.answers (.done l.outcome))
    (hnames : l.names = []) (hfound : ∀ found, l.outcome = .ok found → found = [l.term]) :
    l.Sound x where
  leads := h
  eq_cons := hnames ▸ hfound
  length_le := by
    rw [hnames]
    exact Nat.zero_le _
  names_of_mem := by
    rw [hnames]
    exact List.forall_mem_nil _
  names_of_failed _ := hnames

/-- The identifiers that the graph is asked about are those of the entities that it has matched. -/
theorem matches_iff {named others : List AliasName} {canonical entities : List Entity}
    {ids : List String} (h : l.answers = [⟨.aliasesNamed l.term, .ok named⟩,
      ⟨.entitiesNamed l.term, .ok canonical⟩, ⟨.entitiesById ids, .ok entities⟩,
      ⟨.aliasesFor ids, .ok others⟩]) (id : String) :
    l.Matches id ↔ (∃ a ∈ named, a.entityId = id) ∨ ∃ e ∈ canonical, e.id = id := by
  simp only [Matches, Told, h, List.mem_cons, List.not_mem_nil, or_false]
  constructor
  · rintro (⟨_, htold, hid⟩ | ⟨_, htold, hid⟩) <;> rcases htold with heq | heq | heq | heq <;>
      cases heq
    · exact .inl hid
    · exact .inr hid
  · rintro (hid | hid)
    · exact .inl ⟨named, .inl rfl, hid⟩
    · exact .inr ⟨canonical, .inr (.inl rfl), hid⟩

/-- **What one lookup comes to**, whatever the answers are. -/
theorem sound_of_leads (hclean : CleanTerms [l.term])
    (h : (x.aliases l.term).run.Leads l.answers (.done l.outcome)) : l.Sound x := by
  obtain ⟨e, houtcome⟩ | houtcome | ⟨named, others, canonical, entities, ids, added, hanswers, hids,
    houtcome, hlength, hadded⟩ := Expander.leads_aliases hclean h
  · refine sound_of_names_eq_nil h (names_of_error houtcome) fun found hfound => ?_
    cases houtcome.symm.trans hfound
  · refine sound_of_names_eq_nil h (names_of_ok houtcome) fun found hfound => ?_
    exact (Except.ok.inj (houtcome.symm.trans hfound)).symm
  · have hnames : l.names = added := names_of_ok houtcome
    refine ⟨h, fun found hfound => ?_, hnames ▸ hlength,
      fun name hname => ⟨ids, fun id => ?_, ?_⟩, ?_⟩
    · rw [hnames]
      exact (Except.ok.inj (houtcome.symm.trans hfound)).symm
    · rw [matches_iff hanswers, hids]
    · simp only [Told, hanswers]
      exact (hadded name (hnames ▸ hname)).imp (fun hname => ⟨entities, by simp, hname⟩)
        fun hname => ⟨others, by simp, hname⟩
    · rintro ⟨q, e, hmem⟩
      simp only [hanswers, List.mem_cons, List.not_mem_nil, or_false] at hmem
      rcases hmem with heq | heq | heq | heq <;> cases heq

/-- Where the term is already, a lookup adds its names and nothing if it fails. -/
theorem Sound.foldl_pushTerm (h : l.Sound x) (hclean : CleanTerms terms) (hterm : l.term ∈ terms) :
    (match l.outcome with
      | .ok found => found.foldl pushTerm terms
      | .error _ => terms) = l.names.foldl pushTerm terms := by
  cases houtcome : l.outcome with
  | error e => rw [names_of_error houtcome, List.foldl_nil]
  | ok found =>
      change found.foldl pushTerm terms = _
      rw [h.eq_cons found houtcome, List.foldl_cons, hclean.pushTerm_of_mem hterm]

end Lookup

/-! ### Lookups one after the other -/

namespace Expander

variable {names found : List String} {answers : List (Answered Reply)}

/-- **Names are added lookup by lookup**, whatever the answers are. -/
theorem yields_addAliases {x : Expander} (hclean : CleanTerms names) (hterms : terms ⊆ names)
    (h : (x.addAliases terms names).Yields answers found) :
    ∃ lookups : List Lookup, lookups.map (·.term) = terms ∧
      lookups.flatMap (·.answers) = answers ∧ (∀ l ∈ lookups, l.Sound x) ∧
        found = (lookups.flatMap (·.names)).foldl pushTerm names := by
  induction terms generalizing names answers with
  | nil =>
      obtain ⟨rfl, rfl⟩ := yields_pure_iff.1 h
      exact ⟨[], rfl, rfl, List.forall_mem_nil _, rfl⟩
  | cons term rest ih =>
      obtain ⟨ys, zs, outcome, rfl, hlookup, hrest⟩ := yields_bind_iff.1 h
      have hterm : term ∈ names := hterms List.mem_cons_self
      have hsound : (Lookup.mk term ys outcome).Sound x := by
        refine Lookup.sound_of_leads ?_ (yields_caught_iff.1 hlookup)
        exact ⟨List.nodup_singleton _, List.forall_mem_singleton.2 (hclean.trimmed term hterm),
          List.forall_mem_singleton.2 (hclean.ne_empty term hterm)⟩
      have hnext : (x.addAliases rest
          ((Lookup.mk term ys outcome).names.foldl pushTerm names)).Yields zs found := by
        rw [← hsound.foldl_pushTerm hclean hterm]
        exact hrest
      obtain ⟨lookups, hasked, rfl, hlookups, rfl⟩ := ih (hclean.foldl_pushTerm _)
        (fun term hmem => mem_foldl_pushTerm (hterms (List.mem_cons_of_mem _ hmem)) _) hnext
      refine ⟨⟨term, ys, outcome⟩ :: lookups, by rw [List.map_cons, hasked], rfl,
        List.forall_mem_cons.2 ⟨hsound, hlookups⟩, ?_⟩
      rw [List.flatMap_cons, List.foldl_append]

/-- What the terms are widened to if the graph gives these answers. -/
structure Gathers (x : Expander) (terms : List String) (answers : List (Answered Reply))
    (found : List String) (lookups : List Lookup) : Prop where
  /-- No term is blank or comes twice. -/
  clean : CleanTerms found
  /-- The given terms come first, in order. -/
  originals : distinctTerms terms <+: found
  /-- Each of these is looked up, one after the other. -/
  terms_eq : lookups.map (·.term) = distinctTerms terms
  /-- The answers are those that the lookups get. -/
  answers_eq : lookups.flatMap (·.answers) = answers
  /-- What holds of a lookup holds of each, whatever answers the others get. -/
  sound : ∀ l ∈ lookups, l.Sound x
  /-- Synonyms come next, and then the names that the lookups find. -/
  found_eq : found = distinctTerms
    (terms ++ (distinctTerms terms).flatMap x.index.synonyms ++ lookups.flatMap (·.names))
  /-- Nothing else is found. -/
  origin : ∀ term ∈ found, term ∈ distinctTerms terms ∨
    (∃ original ∈ distinctTerms terms, term ∈ x.index.synonyms original) ∨
      ∃ l ∈ lookups, term ∈ l.names

/-- **What widening comes to.** It never fails, whatever becomes of the graph. What it gives has the
given terms first, each trimmed, without blank ones and repetitions, and then their synonyms, in
order; the rest are the names that lookups of these terms find. A lookup finds no more names than
allowed, all of them names or aliases of entities that the graph has matched to the term, and none
if the graph fails to answer one of its questions. -/
theorem expand_gathers (groups : List (List String)) (hasGraph : Bool) (maxAliases : ℕ)
    (terms : List String) :
    (expand ⟨.ofGroups groups, hasGraph, maxAliases⟩ terms).Meets Ask.IsGraph
      (fun o => ∃ found, o = some (.ok found)) ∧
    ∀ answers found, (expand ⟨.ofGroups groups, hasGraph, maxAliases⟩ terms).Yields answers found →
      ∃ lookups, Gathers ⟨.ofGroups groups, hasGraph, maxAliases⟩ terms answers found lookups := by
  refine ⟨meets_expand _ terms, fun answers found h => ?_⟩
  have hsynonyms : ∀ original, ∀ synonym ∈ (SynonymIndex.ofGroups groups).synonyms original,
      Text.trimmed synonym = synonym := fun original synonym =>
    (SynonymIndex.tidy_ofGroups groups).trimmed_of_mem_synonyms
  have hasked : distinctTerms terms ⊆
      withSynonyms ⟨.ofGroups groups, hasGraph, maxAliases⟩ (distinctTerms terms) :=
    fun term hterm => mem_foldl_pushTerm hterm _
  rw [expand, foldl_pushTerm_nil] at h
  obtain ⟨lookups, hterms, hanswers, hsound, hfound⟩ :=
    yields_addAliases ((cleanTerms_distinctTerms terms).foldl_pushTerm _) hasked h
  have heq : found = distinctTerms (terms ++
      (distinctTerms terms).flatMap (SynonymIndex.ofGroups groups).synonyms ++
        lookups.flatMap (·.names)) := by
    rw [hfound, foldl_pushTerm_distinctTerms, foldl_pushTerm_distinctTerms]
  refine ⟨lookups, ?_, ?_, hterms, hanswers, hsound, heq, fun term hterm => ?_⟩
  · exact heq ▸ cleanTerms_distinctTerms _
  · rw [heq, List.append_assoc]
    exact distinctTerms_isPrefix _ _
  · rw [heq, mem_distinctTerms_iff, mem_trimmedTerms_iff] at hterm
    obtain ⟨⟨raw, hraw, rfl⟩, hne⟩ := hterm
    rw [List.mem_append, List.mem_append, List.mem_flatMap, List.mem_flatMap] at hraw
    obtain (hraw | ⟨original, horiginal, hraw⟩) | ⟨l, hl, hraw⟩ := hraw
    · exact .inl (mem_distinctTerms_iff.2 (mem_trimmedTerms_iff.2 ⟨⟨raw, hraw, rfl⟩, hne⟩))
    · rw [hsynonyms original raw hraw]
      exact .inr (.inl ⟨original, horiginal, hraw⟩)
    · rw [((hsound l hl).names_of_mem raw hraw).trimmed]
      exact .inr (.inr ⟨l, hl, hraw⟩)

end Expander

end Archivist
