import Archivist.Proofs.Expansion.Terms
import Mathlib.Data.List.Nodup
import Mathlib.Data.List.Pairwise

/-!
# Synonyms in a Dictionary

A dictionary drops repetitions when a group is cleaned and again when the members of several groups
are put together. In between, it lists the position of each group under all terms of the group and
drops nothing. But a cleaned group has each of its terms in one spelling, so its position is listed
once under each of them, and the lookup finds the groups that hold the term, each of them once
(`SynonymIndex.groupsOf_eq`). The synonyms of a term are the members of these groups. To be in a
group together is symmetric and does not depend on how a term is spelled, so to be a synonym is and
does not either.

The canonical form of a term is the first of its synonyms (`SynonymIndex.head?_synonyms`), but only
the first of its groups has a say in it, while its synonyms are from all of them. So a synonym leads
back to the canonical form of the term exactly if it has the same one
(`SynonymIndex.roundTrips_iff`). All synonyms do if no two groups share a term. Where two do, as
those of two agencies with the same short name, a synonym from the later group has a canonical form
of its own.

## Main results

* `spelledIn_cleanGroup_iff`: cleaning a group loses blank terms and spellings, and nothing else.
* `SynonymIndex.synonyms_ofGroups`: what the synonyms of a term are.
* `SynonymIndex.roundTrips_ofGroups`: which synonyms lead back to the canonical form.
-/

namespace Archivist

/-! ### Lists of positions

A list of keys with positions, made of groups one after the other, gives back the groups with a key,
if no group repeats it.
-/

section

variable {α β κ : Type} [DecidableEq κ] {key : α → κ} {xs : List α}

/-- What has a key comes once or not at all if no key is repeated. -/
theorem filterMap_key (h : (xs.map key).Nodup) (k : κ) (y : β) :
    xs.filterMap (fun x => if key x = k then some y else none) =
      if k ∈ xs.map key then [y] else [] := by
  induction xs with
  | nil => rfl
  | cons x xs ih =>
      rw [List.map_cons, List.nodup_cons] at h
      rw [List.filterMap_cons, ih h.2, List.map_cons]
      by_cases heq : key x = k
      · subst heq
        rw [if_pos rfl, if_neg h.1, if_pos List.mem_cons_self]
      · simp only [heq, if_false, List.mem_cons, Ne.symm heq, false_or]

/-- To list what passes is to filter. -/
theorem flatMap_ite_singleton (p : α → Prop) [DecidablePred p] (xs : List α) :
    (xs.flatMap fun x => if p x then [x] else []) = xs.filter (p ·) := by
  induction xs with
  | nil => rfl
  | cons x xs ih =>
      rw [List.flatMap_cons, ih, List.filter_cons]
      by_cases hx : p x <;> simp [hx]

/-- **A lookup by positions finds the groups with a key**, each of them once and in order. -/
theorem filterMap_postings {groups : List (List α)} (key : α → κ) (k : κ)
    (h : ∀ group ∈ groups, (group.map key).Nodup) :
    ((groups.zipIdx.flatMap fun (group, i) => group.map fun x => (key x, i)).filterMap
      fun (k', i) => if k' = k then some i else none).filterMap (groups[·]?) =
      groups.filter (k ∈ ·.map key) := by
  have hgroup : ∀ p ∈ groups.zipIdx, ((p.1.map fun x => (key x, p.2)).filterMap fun q =>
      (if q.1 = k then some q.2 else none).bind (groups[·]?)) =
        if k ∈ p.1.map key then [p.1] else [] := by
    rintro ⟨group, i⟩ hp
    have hi : groups[i]? = some group := List.mk_mem_zipIdx_iff_getElem?.1 hp
    rw [List.filterMap_map, ← filterMap_key (h group (List.mem_of_getElem? hi))]
    congr 1
    funext x
    by_cases heq : key x = k <;> simp [heq, hi]
  calc _
      = groups.zipIdx.flatMap fun p => if k ∈ p.1.map key then [p.1] else [] := by
        rw [List.filterMap_filterMap, List.filterMap_flatMap]
        exact List.flatMap_congr hgroup
    _ = (groups.zipIdx.map Prod.fst).flatMap fun group =>
          if k ∈ group.map key then [group] else [] := by
        rw [List.flatMap_map]
    _ = groups.filter (k ∈ ·.map key) := by
        rw [List.zipIdx_map_fst, flatMap_ite_singleton]

end

variable {term a b : String} {terms group : List String}

/-! ### Groups -/

/-- Trimming loses blank terms and nothing else. -/
theorem spelledIn_trimmedTerms_iff :
    SpelledIn term (trimmedTerms terms) ↔ SpelledIn term terms ∧ Text.blank term = false := by
  constructor
  · rintro ⟨spelling, hmem, heq⟩
    obtain ⟨⟨raw, hraw, rfl⟩, hne⟩ := mem_trimmedTerms_iff.1 hmem
    rw [foldTerm_trimmed] at heq
    rw [← blank_congr heq, Bool.eq_false_iff]
    exact ⟨⟨raw, hraw, heq⟩, fun hblank => hne (Text.trimmed_of_blank hblank)⟩
  · rintro ⟨⟨raw, hraw, heq⟩, hblank⟩
    rw [← blank_congr heq] at hblank
    exact ⟨Text.trimmed raw,
      mem_trimmedTerms_iff.2 ⟨⟨raw, hraw, rfl⟩, Text.trimmed_ne_empty hblank⟩,
      (foldTerm_trimmed raw).trans heq⟩

/-- A group keeps the first spelling of each term. -/
theorem cleanGroup_eq (group : List String) :
    cleanGroup group = firstOfEach foldTerm [] (trimmedTerms group) := by
  rw [cleanGroup, foldl_addTerm, List.nil_append, List.map_nil, trimmedTerms]

/-- **Cleaning a group loses blank terms** and other spellings, and nothing else. -/
theorem spelledIn_cleanGroup_iff :
    SpelledIn term (cleanGroup group) ↔ SpelledIn term group ∧ Text.blank term = false := by
  rw [cleanGroup_eq, spelledIn_firstOfEach_iff, spelledIn_trimmedTerms_iff]

/-- A cleaned group has each term in one spelling. -/
theorem nodup_map_cleanGroup (group : List String) : ((cleanGroup group).map foldTerm).Nodup :=
  cleanGroup_eq group ▸ nodup_map_firstOfEach foldTerm [] _

/-- The members of a group are clean. -/
theorem cleanTerms_cleanGroup (group : List String) : CleanTerms (cleanGroup group) where
  nodup := List.Nodup.of_map foldTerm (nodup_map_cleanGroup group)
  trimmed term hterm := by
    rw [cleanGroup_eq] at hterm
    obtain ⟨⟨raw, -, rfl⟩, -⟩ := mem_trimmedTerms_iff.1 (mem_of_mem_firstOfEach hterm)
    exact Text.trimmed_trimmed raw
  ne_empty term hterm := by
    rw [cleanGroup_eq] at hterm
    exact (mem_trimmedTerms_iff.1 (mem_of_mem_firstOfEach hterm)).2

namespace SynonymIndex

variable {index : SynonymIndex}

/-- In each group of the dictionary, the terms are clean, and none comes twice in any spelling. -/
structure Tidy (index : SynonymIndex) : Prop where
  nodup : ∀ group ∈ index.groups, (group.map foldTerm).Nodup
  clean : ∀ group ∈ index.groups, CleanTerms group

/-- The groups of a dictionary are those that have members once they are clean. -/
theorem mem_groups_ofGroups_iff {groups : List (List String)} :
    group ∈ (ofGroups groups).groups ↔ (∃ raw ∈ groups, cleanGroup raw = group) ∧ group ≠ [] := by
  rw [ofGroups, List.mem_filter, List.mem_map, decide_eq_true_eq]

/-- A dictionary of any groups is tidy. -/
theorem tidy_ofGroups (groups : List (List String)) : (ofGroups groups).Tidy where
  nodup group hgroup := by
    obtain ⟨⟨raw, -, rfl⟩, -⟩ := mem_groups_ofGroups_iff.1 hgroup
    exact nodup_map_cleanGroup raw
  clean group hgroup := by
    obtain ⟨⟨raw, -, rfl⟩, -⟩ := mem_groups_ofGroups_iff.1 hgroup
    exact cleanTerms_cleanGroup raw

/-! ### The lookup -/

/-- **The lookup finds the groups that hold the term**, each of them once and in order. -/
theorem groupsOf_eq (h : index.Tidy) (term : String) :
    index.groupsOf term = index.groups.filter (foldTerm term ∈ ·.map foldTerm) :=
  filterMap_postings foldTerm (foldTerm term) h.nodup

/-- The groups of a term are those in which it is spelled. -/
theorem mem_groupsOf_iff (h : index.Tidy) :
    group ∈ index.groupsOf term ↔ group ∈ index.groups ∧ SpelledIn term group := by
  rw [groupsOf_eq h, List.mem_filter, decide_eq_true_eq, List.mem_map, SpelledIn]

/-- How a term is spelled makes no difference to the lookup. -/
theorem groupsOf_congr (index : SynonymIndex) (h : foldTerm a = foldTerm b) :
    index.groupsOf a = index.groupsOf b := by
  rw [groupsOf, groupsOf, positions, positions, h]

/-! ### Synonyms -/

/-- The synonyms of a term are the members of its groups, each in its first spelling. -/
theorem synonyms_eq (index : SynonymIndex) (term : String) :
    index.synonyms term = firstOfEach foldTerm [] (index.groupsOf term).flatten := by
  rw [synonyms, foldl_addTerm, List.nil_append, List.map_nil]

/-- Synonyms do not depend on the spelling. -/
theorem synonyms_congr (index : SynonymIndex) (h : foldTerm a = foldTerm b) :
    index.synonyms a = index.synonyms b := by
  rw [synonyms, synonyms, groupsOf_congr index h]

/-- No term is a synonym twice, in whatever spelling. -/
theorem nodup_map_synonyms (index : SynonymIndex) (term : String) :
    ((index.synonyms term).map foldTerm).Nodup :=
  synonyms_eq index term ▸ nodup_map_firstOfEach foldTerm [] _

/-- Synonyms are trimmed, as the terms of the groups are. -/
theorem Tidy.trimmed_of_mem_synonyms (h : index.Tidy) (hb : b ∈ index.synonyms a) :
    Text.trimmed b = b := by
  rw [synonyms_eq] at hb
  obtain ⟨group, hgroup, hmem⟩ := List.mem_flatten.1 (mem_of_mem_firstOfEach hb)
  exact (h.clean group ((mem_groupsOf_iff h).1 hgroup).1).trimmed b hmem

/-- **Synonyms are in a group together.** -/
theorem spelledIn_synonyms_iff (h : index.Tidy) : SpelledIn b (index.synonyms a) ↔
    ∃ group ∈ index.groups, SpelledIn a group ∧ SpelledIn b group := by
  rw [synonyms_eq, spelledIn_firstOfEach_iff]
  constructor
  · rintro ⟨spelling, hmem, heq⟩
    obtain ⟨group, hgroup, hin⟩ := List.mem_flatten.1 hmem
    obtain ⟨hgroup, ha⟩ := (mem_groupsOf_iff h).1 hgroup
    exact ⟨group, hgroup, ha, spelling, hin, heq⟩
  · rintro ⟨group, hgroup, ha, spelling, hin, heq⟩
    exact ⟨spelling, List.mem_flatten.2 ⟨group, (mem_groupsOf_iff h).2 ⟨hgroup, ha⟩, hin⟩, heq⟩

/-- A term that is in a group is among its synonyms. -/
theorem spelledIn_synonyms_self_iff (h : index.Tidy) :
    SpelledIn a (index.synonyms a) ↔ ∃ group ∈ index.groups, SpelledIn a group := by
  simp only [spelledIn_synonyms_iff h, and_self]

/-- A term that has synonyms is one of them. -/
theorem spelledIn_synonyms_of_ne_nil (h : index.Tidy) (hne : index.synonyms a ≠ []) :
    SpelledIn a (index.synonyms a) := by
  obtain ⟨b, hb⟩ := List.exists_mem_of_ne_nil _ hne
  obtain ⟨group, hgroup, ha, -⟩ := (spelledIn_synonyms_iff h).1 (spelledIn_of_mem hb)
  exact (spelledIn_synonyms_self_iff h).2 ⟨group, hgroup, ha⟩

/-- A term without synonyms is in no group. -/
theorem synonyms_eq_nil_iff (h : index.Tidy) :
    index.synonyms a = [] ↔ ∀ group ∈ index.groups, ¬ SpelledIn a group := by
  constructor
  · intro hnil group hgroup ha
    obtain ⟨spelling, hmem, -⟩ := (spelledIn_synonyms_self_iff h).2 ⟨group, hgroup, ha⟩
    rw [hnil] at hmem
    cases hmem
  · intro hnone
    by_contra hne
    obtain ⟨group, hgroup, ha⟩ :=
      (spelledIn_synonyms_self_iff h).1 (spelledIn_synonyms_of_ne_nil h hne)
    exact hnone group hgroup ha

/-- **Synonyms are symmetric.** -/
theorem spelledIn_synonyms_symm (h : index.Tidy) (hb : SpelledIn b (index.synonyms a)) :
    SpelledIn a (index.synonyms b) := by
  obtain ⟨group, hgroup, ha, hb⟩ := (spelledIn_synonyms_iff h).1 hb
  exact (spelledIn_synonyms_iff h).2 ⟨group, hgroup, hb, ha⟩

/-- The groups of a dictionary hold together what the given groups do, but for blank terms. -/
theorem exists_mem_groups_iff (groups : List (List String)) (a b : String) :
    (∃ group ∈ (ofGroups groups).groups, SpelledIn a group ∧ SpelledIn b group) ↔
      Text.blank a = false ∧ Text.blank b = false ∧
        ∃ group ∈ groups, SpelledIn a group ∧ SpelledIn b group := by
  constructor
  · rintro ⟨group, hgroup, ha, hb⟩
    obtain ⟨⟨raw, hraw, rfl⟩, -⟩ := mem_groups_ofGroups_iff.1 hgroup
    rw [spelledIn_cleanGroup_iff] at ha hb
    exact ⟨ha.2, hb.2, raw, hraw, ha.1, hb.1⟩
  · rintro ⟨hblank, hblank', raw, hraw, ha, hb⟩
    have ha' := spelledIn_cleanGroup_iff.2 ⟨ha, hblank⟩
    have hne : cleanGroup raw ≠ [] := by
      obtain ⟨spelling, hmem, -⟩ := ha'
      exact List.ne_nil_of_mem hmem
    exact ⟨cleanGroup raw, mem_groups_ofGroups_iff.2 ⟨⟨raw, hraw, rfl⟩, hne⟩, ha',
      spelledIn_cleanGroup_iff.2 ⟨hb, hblank'⟩⟩

/-- **What the synonyms of a term are.** The groups of a dictionary are the given ones without blank
terms. A term has no synonyms exactly if it is in none of them. Otherwise it is one of its own
synonyms; no term is one twice, in whatever spelling; and up to spelling the synonyms are all
members of all groups that the term is in. A synonym has the term as a synonym, and all spellings of
the term have the same synonyms. A dictionary that loads groups becomes the dictionary of these
groups, and stays what it was if they cannot be had. -/
theorem synonyms_ofGroups (groups : List (List String)) (a : String) :
    (∀ b, (∃ group ∈ (ofGroups groups).groups, SpelledIn b group) ↔
      Text.blank b = false ∧ ∃ group ∈ groups, SpelledIn b group) ∧
    ((ofGroups groups).synonyms a = [] ↔
      ∀ group ∈ (ofGroups groups).groups, ¬ SpelledIn a group) ∧
    ((ofGroups groups).synonyms a ≠ [] → SpelledIn a ((ofGroups groups).synonyms a)) ∧
    (((ofGroups groups).synonyms a).map foldTerm).Nodup ∧
    (∀ b, SpelledIn b ((ofGroups groups).synonyms a) ↔
      Text.blank a = false ∧ Text.blank b = false ∧
        ∃ group ∈ groups, SpelledIn a group ∧ SpelledIn b group) ∧
    (∀ b ∈ (ofGroups groups).synonyms a, SpelledIn a ((ofGroups groups).synonyms b)) ∧
    (∀ b, foldTerm b = foldTerm a → (ofGroups groups).synonyms b = (ofGroups groups).synonyms a) ∧
    ∀ {ε : Type} (old : SynonymIndex) (e : ε),
      old.reload (ε := ε) (.ok groups) = ofGroups groups ∧ old.reload (.error e) = old := by
  have htidy := tidy_ofGroups groups
  refine ⟨fun b => ?_, synonyms_eq_nil_iff htidy, spelledIn_synonyms_of_ne_nil htidy,
    nodup_map_synonyms _ a, fun b => ?_, fun b hb => ?_, fun b => synonyms_congr _, fun old e => ?_⟩
  · have hiff := exists_mem_groups_iff groups b b
    simpa only [and_self, and_self_left] using hiff
  · rw [spelledIn_synonyms_iff htidy, exists_mem_groups_iff]
  · exact spelledIn_synonyms_symm htidy (spelledIn_of_mem hb)
  · exact ⟨rfl, rfl⟩

/-! ### Canonical forms -/

section

attribute [local irreducible] foldTerm

variable {groups : List (List String)} {synonym c : String}

/-- The canonical form does not depend on the spelling. -/
theorem canonical?_congr (index : SynonymIndex) (h : foldTerm a = foldTerm b) :
    index.canonical? a = index.canonical? b := by
  rw [canonical?, canonical?, groupsOf_congr index h]

/-- The first element is kept in front. -/
theorem head?_firstOfEach {α κ : Type} [DecidableEq κ] (key : α → κ) (xs : List α) :
    (firstOfEach key [] xs).head? = xs.head? := by
  cases xs with
  | nil => rfl
  | cons x xs => rw [firstOfEach, if_neg List.not_mem_nil, List.head?_cons, List.head?_cons]

/-- **The canonical form of a term is the first of its synonyms.** -/
theorem head?_synonyms (h : index.Tidy) (term : String) :
    (index.synonyms term).head? = index.canonical? term := by
  rw [synonyms_eq, head?_firstOfEach, canonical?]
  cases hgroups : index.groupsOf term with
  | nil => rfl
  | cons group rest =>
      obtain ⟨spelling, hmem, -⟩ := ((mem_groupsOf_iff h).1 (hgroups ▸ List.mem_cons_self)).2
      rw [List.flatten_cons, List.head?_append_of_ne_nil _ (List.ne_nil_of_mem hmem),
        List.head?_cons, Option.bind_some]

/-- The canonical form of a term is one of its synonyms. -/
theorem mem_synonyms_of_canonical? (h : index.Tidy) (hc : index.canonical? term = some c) :
    c ∈ index.synonyms term :=
  List.mem_of_head? (head?_synonyms h term ▸ hc)

/-- A term with a synonym has a canonical form. -/
theorem exists_canonical? (h : index.Tidy) (hs : synonym ∈ index.synonyms term) :
    ∃ c, index.canonical? term = some c := by
  rw [← head?_synonyms h, List.head?_eq_some_head (List.ne_nil_of_mem hs)]
  exact ⟨_, rfl⟩

/-! ### The way back -/

/-- From the synonym one comes back to the canonical form of the term: it is one of the synonyms of
the synonym, and there just once, and the synonym is displayed as the term is. -/
def RoundTrips (index : SynonymIndex) (term synonym : String) : Prop :=
  (∃ c, index.canonical? term = some c ∧ (index.synonyms synonym).count c = 1) ∧
    index.display synonym = index.display term

/-- **A way leads back if it does not change the canonical form.** -/
theorem roundTrips_iff (h : index.Tidy) (hs : synonym ∈ index.synonyms term) :
    index.RoundTrips term synonym ↔ index.canonical? synonym = index.canonical? term := by
  obtain ⟨c, hc⟩ := exists_canonical? h hs
  obtain ⟨back, hback, -⟩ := spelledIn_synonyms_symm h (spelledIn_of_mem hs)
  obtain ⟨c', hc'⟩ := exists_canonical? h hback
  constructor
  · rintro ⟨-, hdisplay⟩
    rw [display, display, hc, hc', Option.getD_some, Option.getD_some] at hdisplay
    rw [hc, hc', hdisplay]
  · intro heq
    have hmem : c ∈ index.synonyms synonym := mem_synonyms_of_canonical? h (heq.trans hc)
    have hnodup : (index.synonyms synonym).Nodup :=
      List.Nodup.of_map foldTerm (nodup_map_synonyms index synonym)
    exact ⟨⟨c, hc, List.count_eq_one_of_mem hnodup hmem⟩, by rw [display, display, heq, hc]; rfl⟩

/-- The members of each group have one canonical form. -/
def Agrees (index : SynonymIndex) : Prop :=
  ∀ group ∈ index.groups, ∀ a ∈ group, ∀ b ∈ group, index.canonical? a = index.canonical? b

/-- **All ways lead back** if the members of each group have one canonical form, and otherwise some
do not. -/
theorem forall_roundTrips_iff (h : index.Tidy) :
    (∀ term, ∀ synonym ∈ index.synonyms term, index.RoundTrips term synonym) ↔ index.Agrees := by
  constructor
  · intro hback group hgroup a ha b hb
    obtain ⟨s, hs, heq⟩ := (spelledIn_synonyms_iff h).2
      ⟨group, hgroup, spelledIn_of_mem ha, spelledIn_of_mem hb⟩
    rw [← canonical?_congr index heq]
    exact ((roundTrips_iff h hs).1 (hback a s hs)).symm
  · intro hagrees term s hs
    obtain ⟨group, hgroup, ⟨a, ha, haeq⟩, b, hb, hbeq⟩ :=
      (spelledIn_synonyms_iff h).1 (spelledIn_of_mem hs)
    rw [roundTrips_iff h hs, ← canonical?_congr index haeq, ← canonical?_congr index hbeq]
    exact (hagrees group hgroup a ha b hb).symm

/-! ### Groups that share no term -/

/-- No term that is not blank is in two of the groups. -/
def Apart (groups : List (List String)) : Prop :=
  groups.Pairwise fun group group' =>
    ∀ term, SpelledIn term group → SpelledIn term group' → Text.blank term = true

/-- Members of one group are in no other group. -/
theorem groupsOf_eq_of_apart (happart : Apart groups) (hgroup : group ∈ (ofGroups groups).groups)
    (ha : a ∈ group) (hb : b ∈ group) :
    (ofGroups groups).groupsOf a = (ofGroups groups).groupsOf b := by
  have hpairwise : (ofGroups groups).groups.Pairwise fun group group' =>
      ∀ term, SpelledIn term group → ¬ SpelledIn term group' := by
    refine (List.pairwise_map.2 (happart.imp fun {raw raw'} hshared => ?_)).filter _
    intro term hin hin'
    rw [spelledIn_cleanGroup_iff] at hin hin'
    exact Bool.eq_false_iff.1 hin.2 (hshared term hin.1 hin'.1)
  have halone : ∀ group' ∈ (ofGroups groups).groups, ∀ term ∈ group,
      SpelledIn term group' ↔ group' = group := by
    intro group' hgroup' term hterm
    refine ⟨fun hin => by_contra fun hne => ?_, fun heq => heq ▸ spelledIn_of_mem hterm⟩
    have hsymm : Std.Symm fun group group' : List String =>
        ∀ term, SpelledIn term group → ¬ SpelledIn term group' :=
      ⟨fun _ _ hxy term hy hx => hxy term hx hy⟩
    exact hpairwise.forall hgroup' hgroup hne term hin (spelledIn_of_mem hterm)
  rw [groupsOf_eq (tidy_ofGroups groups), groupsOf_eq (tidy_ofGroups groups)]
  refine List.filter_congr fun group' hgroup' => decide_eq_decide.2 ?_
  rw [List.mem_map, List.mem_map]
  exact (halone group' hgroup' a ha).trans (halone group' hgroup' b hb).symm

/-- Where no term is in two groups, the members of each have one canonical form. -/
theorem agrees_of_apart (happart : Apart groups) : (ofGroups groups).Agrees := by
  intro group hgroup a ha b hb
  rw [canonical?, canonical?, groupsOf_eq_of_apart happart hgroup ha hb]

/-! ### Spellings of the canonical form -/

/-- What is a synonym in some spelling is one in just one. -/
theorem countP_synonyms_eq_one (hc : SpelledIn c (index.synonyms term)) :
    (index.synonyms term).countP (foldTerm · = foldTerm c) = 1 := by
  have hcount : (index.synonyms term).countP (foldTerm · = foldTerm c) =
      ((index.synonyms term).map foldTerm).count (foldTerm c) := by
    rw [List.count, List.countP_map]
    congr 1
  rw [hcount]
  exact List.count_eq_one_of_mem (nodup_map_synonyms index term) (List.mem_map.2 hc)

/-- Members of the first group of a term have its canonical form as a synonym. -/
theorem spelledIn_synonyms_canonical? (h : index.Tidy)
    (hfirst : (index.groupsOf term).head? = some group) (hc : index.canonical? term = some c)
    (hs : synonym ∈ group) : SpelledIn c (index.synonyms synonym) := by
  rw [canonical?, hfirst, Option.bind_some] at hc
  have hgroup := ((mem_groupsOf_iff h).1 (List.mem_of_head? hfirst)).1
  exact (spelledIn_synonyms_iff h).2
    ⟨group, hgroup, spelledIn_of_mem hs, spelledIn_of_mem (List.mem_of_head? hc)⟩

/-- **Which ways from a term to a synonym lead back.** Whatever the groups are, a way leads back to
the canonical form of the term exactly if the synonym has the same canonical form, that is, if the
first groups of the two begin with the same term. So all ways lead back exactly if the members of
each group have one canonical form, for instance if no two groups share a term that is not blank.
And members of the first group of a term always have its canonical form as a synonym, in just one
spelling. -/
theorem roundTrips_ofGroups (groups : List (List String)) :
    (∀ term, ∀ synonym ∈ (ofGroups groups).synonyms term,
      ((ofGroups groups).RoundTrips term synonym ↔
        (ofGroups groups).canonical? synonym = (ofGroups groups).canonical? term)) ∧
    ((∀ term, ∀ synonym ∈ (ofGroups groups).synonyms term,
      (ofGroups groups).RoundTrips term synonym) ↔ (ofGroups groups).Agrees) ∧
    (Apart groups → ∀ term, ∀ synonym ∈ (ofGroups groups).synonyms term,
      (ofGroups groups).RoundTrips term synonym) ∧
    ∀ term group c, ((ofGroups groups).groupsOf term).head? = some group →
      (ofGroups groups).canonical? term = some c → ∀ synonym ∈ group,
        ((ofGroups groups).synonyms synonym).countP (foldTerm · = foldTerm c) = 1 := by
  have htidy := tidy_ofGroups groups
  refine ⟨fun term synonym => roundTrips_iff htidy, forall_roundTrips_iff htidy,
    fun happart => (forall_roundTrips_iff htidy).2 (agrees_of_apart happart), ?_⟩
  intro term group c hfirst hc synonym hs
  exact countP_synonyms_eq_one (spelledIn_synonyms_canonical? htidy hfirst hc hs)

end

/-- Two agencies with the same short name. -/
def agencies : List (List String) :=
  [["臺北市政府工務局", "工務局"], ["新北市政府工務局", "工務局"]]

/-- The name of the second agency is a synonym of the short name, but does not lead back to the name
of the first, which is the canonical form of the short name. -/
theorem shared_short_name :
    (∃ group ∈ (ofGroups agencies).groups, SpelledIn "工務局" group) ∧
    "新北市政府工務局" ∈ (ofGroups agencies).synonyms "工務局" ∧
    (ofGroups agencies).canonical? "工務局" = some "臺北市政府工務局" ∧
    ((ofGroups agencies).synonyms "新北市政府工務局").count "臺北市政府工務局" = 0 ∧
    (ofGroups agencies).display "新北市政府工務局" ≠ (ofGroups agencies).display "工務局" ∧
    ¬ (ofGroups agencies).RoundTrips "工務局" "新北市政府工務局" := by
  have hcomputed : (∃ group ∈ (ofGroups agencies).groups, SpelledIn "工務局" group) ∧
      "新北市政府工務局" ∈ (ofGroups agencies).synonyms "工務局" ∧
      (ofGroups agencies).canonical? "工務局" = some "臺北市政府工務局" ∧
      ((ofGroups agencies).synonyms "新北市政府工務局").count "臺北市政府工務局" = 0 ∧
      (ofGroups agencies).display "新北市政府工務局" ≠ (ofGroups agencies).display "工務局" := by
    decide +kernel
  obtain ⟨hgroup, hsynonym, hcanonical, hcount, hdisplay⟩ := hcomputed
  exact ⟨hgroup, hsynonym, hcanonical, hcount, hdisplay, fun hback => hdisplay hback.2⟩

end SynonymIndex

end Archivist
