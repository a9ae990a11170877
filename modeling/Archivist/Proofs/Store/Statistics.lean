import Archivist.Proofs.Store.Search
import Mathlib.Algebra.GroupWithZero.Nat
import Mathlib.Data.String.Basic

/-!
# Statistics

Statistics count the records of a kind in a range of dates. Keyword search has a range of dates too,
and tests it in another way: what lies before the first day or after the last or has no date is left
out. Both tests are for the records that the range covers (`DateRange.admits_iff_covers`,
`DateRange.excludes_iff_not_covers`), so what is counted is what is found if nothing else is asked
for.

Counts are kept in a list that is sorted by label. They stand for the labels that have been counted:
written out, each as often as its count says (`tallied`), they are these labels in another order.
Counting one more adds its label (`Tallies.countUnder`), so after all records the labels of all of
them are there (`Tallies.foldl`).

## Main results

* `Corpus.statistics_spec`: what is counted, in all and under each label.
-/

namespace Archivist

/-! ### Ranges of dates -/

namespace DateRange

variable {range : DateRange} {r : Record}

/-- The record is in the range: the range is open at both ends, or the record has a date that is
neither before the first day nor after the last. -/
def Covers (range : DateRange) (r : Record) : Prop :=
  (range.first = none ∧ range.last = none) ∨ ∃ d, r.date? = some d ∧
    (∀ first, range.first = some first → first ≤ d) ∧ ∀ last, range.last = some last → d ≤ last

/-- A range is open at both ends if it has neither. -/
theorem isBounded_eq_false_iff :
    range.isBounded = false ↔ range.first = none ∧ range.last = none := by
  rw [isBounded, Bool.or_eq_false_iff, Option.isSome_eq_false_iff, Option.isSome_eq_false_iff,
    Option.isNone_iff_eq_none, Option.isNone_iff_eq_none]

/-- A range admits the records that it covers. -/
theorem admits_iff_covers : range.admits r = true ↔ range.Covers r := by
  rw [admits_iff, isBounded_eq_false_iff, Covers]
  exact or_congr_right (exists_congr fun d => and_congr_right fun _ => contains_iff)

instance : Decidable (range.Covers r) := decidable_of_iff _ admits_iff_covers

/-- **Both tests of a range are for the records that it covers.** -/
theorem excludes_iff_not_covers : range.excludes r = true ↔ ¬ range.Covers r := by
  rw [excludes_eq, Bool.not_eq_true', ← admits_iff_covers, Bool.not_eq_true]

end DateRange

/-! ### Labels -/

/-- The record counts under this label: the label is the text of the field, or it is the label for
records without one. -/
def Record.CountsUnder (r : Record) (field label : String) : Prop :=
  (r.field? field = some label ∧ Text.blank label = false) ∨
    (label = Corpus.unknownGroup ∧ ∀ value, r.field? field = some value → Text.blank value = true)

/-- A record is counted under its label. -/
theorem Corpus.groupLabel_eq_iff {r : Record} {field label : String} :
    Corpus.groupLabel field r = label ↔ r.CountsUnder field label := by
  rw [groupLabel, Record.CountsUnder]
  cases r.field? field with
  | none =>
      simp only [Option.bind_none, Option.getD_none, reduceCtorEq, false_and, false_or,
        false_imp_iff, implies_true, and_true]
      exact eq_comm
  | some value =>
      simp only [Option.bind_some, Option.some.injEq, forall_eq']
      cases hblank : Text.blank value with
      | true =>
          rw [Text.unlessBlank, hblank, if_pos rfl, Option.getD_none, and_iff_left rfl]
          refine ⟨fun h => .inr h.symm, ?_⟩
          rintro (⟨rfl, hlabel⟩ | h)
          · exact nomatch hblank.symm.trans hlabel
          · exact h.symm
      | false =>
          rw [Text.unlessBlank, hblank, if_neg Bool.false_ne_true, Option.getD_some]
          refine ⟨?_, ?_⟩
          · rintro rfl
            exact .inl ⟨rfl, hblank⟩
          · rintro (⟨rfl, -⟩ | ⟨-, h⟩)
            · rfl
            · exact absurd h Bool.false_ne_true

instance (r : Record) (field label : String) : Decidable (r.CountsUnder field label) :=
  decidable_of_iff _ Corpus.groupLabel_eq_iff

/-! ### Counts -/

/-- The labels that are counted, each as often as its count says. -/
def tallied (groups : List (String × ℕ)) : List String :=
  groups.flatMap fun (label, n) => List.replicate n label

/-- The list of counts is sorted by label, and counts these labels. -/
structure Tallies (groups : List (String × ℕ)) (labels : List String) : Prop where
  sorted : groups.Pairwise fun a b => a.1 < b.1
  pos : ∀ label n, (label, n) ∈ groups → 0 < n
  perm : (tallied groups).Perm labels

namespace Tallies

open Corpus

variable {groups : List (String × ℕ)} {labels : List String} {label : String} {n : ℕ}

/-- Nothing has been counted. -/
theorem nil : Tallies [] [] := ⟨.nil, nofun, .nil⟩

/-- What is counted after one more has been counted. -/
theorem tallied_countUnder (label : String) (groups : List (String × ℕ)) :
    (tallied (countUnder label groups)).Perm (label :: tallied groups) := by
  induction groups with
  | nil => exact .refl _
  | cons group rest ih =>
      obtain ⟨l, n⟩ := group
      rw [countUnder]
      split_ifs with hlt heq
      · exact .refl _
      · subst heq
        exact .refl _
      · simp only [tallied, List.flatMap_cons] at ih ⊢
        exact (ih.append_left _).trans List.perm_middle

/-- Counts after one more has been counted are counts of before, or of this label. -/
theorem mem_countUnder {group : String × ℕ} (h : group ∈ countUnder label groups) :
    group ∈ groups ∨ (group.1 = label ∧ 0 < group.2) := by
  induction groups with
  | nil => exact .inr (List.mem_singleton.1 h ▸ ⟨rfl, Nat.one_pos⟩)
  | cons first rest ih =>
      obtain ⟨l, n⟩ := first
      rw [countUnder] at h
      split_ifs at h with hlt heq
      · rcases List.mem_cons.1 h with rfl | h
        · exact .inr ⟨rfl, Nat.one_pos⟩
        · exact .inl h
      · rcases List.mem_cons.1 h with rfl | h
        · exact .inr ⟨heq.symm, Nat.succ_pos n⟩
        · exact .inl (List.mem_cons_of_mem _ h)
      · rcases List.mem_cons.1 h with rfl | h
        · exact .inl List.mem_cons_self
        · exact (ih h).imp_left (List.mem_cons_of_mem _)

/-- Counting keeps the labels in order. -/
theorem sorted_countUnder (h : groups.Pairwise fun a b => a.1 < b.1) (label : String) :
    (countUnder label groups).Pairwise fun a b => a.1 < b.1 := by
  induction groups with
  | nil => exact List.pairwise_singleton _ _
  | cons first rest ih =>
      obtain ⟨l, n⟩ := first
      obtain ⟨hfirst, hrest⟩ := List.pairwise_cons.1 h
      rw [countUnder]
      split_ifs with hlt heq
      · refine List.pairwise_cons.2 ⟨fun group hgroup => ?_, h⟩
        rcases List.mem_cons.1 hgroup with rfl | hgroup
        · exact hlt
        · exact hlt.trans (hfirst group hgroup)
      · exact List.pairwise_cons.2 ⟨hfirst, hrest⟩
      · refine List.pairwise_cons.2 ⟨fun group hgroup => ?_, ih hrest⟩
        rcases mem_countUnder hgroup with hgroup | ⟨hlabel, -⟩
        · exact hfirst group hgroup
        · exact hlabel ▸ lt_of_le_of_ne (not_lt.1 hlt) (Ne.symm heq)

/-- **Counting one more adds its label.** -/
theorem countUnder (h : Tallies groups labels) (label : String) :
    Tallies (countUnder label groups) (label :: labels) where
  sorted := sorted_countUnder h.sorted label
  pos l n hmem := (mem_countUnder hmem).elim (h.pos l n) And.right
  perm := (tallied_countUnder label groups).trans (h.perm.cons label)

/-- **In the end, all labels are counted**, one after the other. -/
theorem foldl {α : Type} (h : Tallies groups labels) (key : α → String) (xs : List α) :
    Tallies (xs.foldl (fun groups x => Corpus.countUnder (key x) groups) groups)
      (xs.map key ++ labels) := by
  induction xs generalizing groups labels with
  | nil => exact h
  | cons x xs ih =>
      have hrest := ih (h.countUnder (key x))
      exact ⟨hrest.sorted, hrest.pos, hrest.perm.trans List.perm_middle⟩

/-- A label that is counted has a count. -/
theorem exists_of_mem_tallied (h : label ∈ tallied groups) : ∃ n, (label, n) ∈ groups := by
  obtain ⟨⟨l, n⟩, hgroup, hmem⟩ := List.mem_flatMap.1 h
  obtain rfl := List.eq_of_mem_replicate hmem
  exact ⟨n, hgroup⟩

/-- A label that is listed once is counted as often as its count says. -/
theorem count_tallied (h : groups.Pairwise fun a b => a.1 < b.1) (hmem : (label, n) ∈ groups) :
    (tallied groups).count label = n := by
  induction groups with
  | nil => cases hmem
  | cons first rest ih =>
      obtain ⟨l, m⟩ := first
      obtain ⟨hfirst, hrest⟩ := List.pairwise_cons.1 h
      rw [tallied, List.flatMap_cons, List.count_append, List.count_replicate]
      rcases List.mem_cons.1 hmem with heq | hmem
      · obtain ⟨rfl, rfl⟩ := Prod.mk.inj heq
        have hnone : label ∉ tallied rest := fun hlabel => by
          obtain ⟨k, hk⟩ := exists_of_mem_tallied hlabel
          exact lt_irrefl label (hfirst (label, k) hk)
        rw [beq_self_eq_true, if_pos rfl, ← tallied, List.count_eq_zero_of_not_mem hnone,
          Nat.add_zero]
      · have hne : (l == label) = false := beq_eq_false_iff_ne.2 (hfirst _ hmem).ne
        rw [hne, if_neg Bool.false_ne_true, Nat.zero_add]
        exact ih hrest hmem

/-- **A label is listed with its count**, and just if there is something to count. -/
theorem mem_iff (h : Tallies groups labels) :
    (label, n) ∈ groups ↔ 0 < n ∧ n = labels.count label := by
  rw [← h.perm.count_eq]
  constructor
  · exact fun hmem => ⟨h.pos label n hmem, (count_tallied h.sorted hmem).symm⟩
  · rintro ⟨hpos, rfl⟩
    obtain ⟨n, hmem⟩ := exists_of_mem_tallied (List.count_pos_iff.1 hpos)
    rwa [count_tallied h.sorted hmem]

/-- The counts sum to the number of labels. -/
theorem sum_eq (h : Tallies groups labels) : (groups.map (·.2)).sum = labels.length := by
  rw [← h.perm.length_eq, tallied, List.length_flatMap]
  simp only [List.length_replicate]

end Tallies

/-! ### What is counted -/

namespace Corpus

variable {c : Corpus} {dates : DateRange} {limit : ℕ}

/-- Statistics count as a range admits; a range covers what it admits. -/
theorem countP_admits (dates : DateRange) (records : List Record) :
    records.countP dates.admits = records.countP (dates.Covers ·) := by
  refine List.countP_congr fun r _ => ?_
  rw [decide_eq_true_iff, DateRange.admits_iff_covers]

/-- Of the records that a range admits, those with a label are those that it covers and that count
under the label. -/
theorem count_map_groupLabel (dates : DateRange) (field label : String) (records : List Record) :
    ((records.filter dates.admits).map (groupLabel field)).count label =
      records.countP fun r => dates.Covers r ∧ r.CountsUnder field label := by
  rw [List.count, List.countP_map, List.countP_filter]
  refine List.countP_congr fun r _ => ?_
  rw [Function.comp_apply, Bool.and_eq_true, beq_iff_eq, groupLabel_eq_iff,
    DateRange.admits_iff_covers, decide_eq_true_iff, and_comm]

/-- **Keyword search finds all documents that the range covers** if nothing else is asked for. -/
theorem length_keywordSearch (hlimit : c.documents.length ≤ limit) :
    (c.keywordSearch { dates } limit).length = (c.records .documents).countP (dates.Covers ·) := by
  have hfinds : ∀ r : Record, DocumentFilter.finds { dates } r = dates.admits r := fun r => by
    simp [DocumentFilter.finds, DocumentFilter.admits_eq]
  have hlength : (c.hits { dates }).length = (c.records .documents).countP (dates.Covers ·) := by
    rw [length_hits, ← countP_admits, records, List.countP_map]
    exact List.countP_congr fun s _ => by rw [hfinds, Function.comp_apply]
  have hle : (c.hits { dates }).length ≤ limit := by
    rw [length_hits]
    exact List.countP_le_length.trans hlimit
  rw [keywordSearch_eq, List.take_of_length_le hle, List.length_map, hlength]

/-- **All dispatch orders that the range covers are found** if nothing else is asked for. -/
theorem length_searchDispatchOrders (hlimit : c.dispatchOrders.length ≤ limit) :
    (c.searchDispatchOrders { dates } limit).length =
      (c.records .dispatchOrders).countP (dates.Covers ·) := by
  have hfound : c.searchDispatchOrders { dates } limit =
      (stableSort Record.newer (c.dispatchOrders.filter dates.admits)).take limit := by
    simp [searchDispatchOrders, DispatchFilter.admits]
  have hlength : (stableSort Record.newer (c.dispatchOrders.filter dates.admits)).length =
      (c.records .dispatchOrders).countP (dates.Covers ·) := by
    rw [(stableSort_perm _ _).length_eq, ← List.countP_eq_length_filter, countP_admits, records]
  have hle : (c.records .dispatchOrders).countP (dates.Covers ·) ≤ limit :=
    List.countP_le_length.trans hlimit
  rw [hfound, List.take_of_length_le (hlength ▸ hle), hlength]

/-- The labels that are counted are those of the records that the range covers. -/
theorem tallies_statistics {q : StatisticsQuery} {field : String} (h : q.groupBy = some field) :
    Tallies (c.statistics q).groups
      (((c.records q.kind).filter q.dates.admits).map (groupLabel field)) := by
  have hgroups : (c.statistics q).groups = ((c.records q.kind).filter q.dates.admits).foldl
      (fun groups r => countUnder (groupLabel field r) groups) [] := by
    rw [statistics, h]
  rw [hgroups, ← List.append_nil (List.map _ _)]
  exact Tallies.nil.foldl _ _

/-- **What statistics count.** In all they count the records that the range covers, as many as a
search finds in the same range if nothing else is asked for and the limit leaves room for all of
them. By a field they count each of these records under one label: the text of the field, or the
label for records without one. Labels are listed once and in order, and just those with something to
count. -/
theorem statistics_spec (c : Corpus) (q : StatisticsQuery) :
    (c.statistics q).total = (c.records q.kind).countP (q.dates.Covers ·) ∧
    (q.kind = .documents → ∀ limit, c.documents.length ≤ limit →
      (c.keywordSearch { dates := q.dates } limit).length = (c.statistics q).total) ∧
    (q.kind = .dispatchOrders → ∀ limit, c.dispatchOrders.length ≤ limit →
      (c.searchDispatchOrders { dates := q.dates } limit).length = (c.statistics q).total) ∧
    (q.groupBy = none → (c.statistics q).groups = []) ∧
    ∀ field, q.groupBy = some field →
      (c.statistics q).groups.Pairwise (fun a b => a.1 < b.1) ∧
      ((c.statistics q).groups.map (·.2)).sum = (c.statistics q).total ∧
      ∀ label n, (label, n) ∈ (c.statistics q).groups ↔ 0 < n ∧
        n = (c.records q.kind).countP fun r => q.dates.Covers r ∧ r.CountsUnder field label := by
  have htotal : (c.statistics q).total = (c.records q.kind).countP (q.dates.Covers ·) := by
    rw [statistics, ← List.countP_eq_length_filter, countP_admits]
  refine ⟨htotal, fun hkind limit hlimit => ?_, fun hkind limit hlimit => ?_, fun hnone => ?_,
    fun field hfield => ?_⟩
  · rw [htotal, hkind, length_keywordSearch hlimit]
  · rw [htotal, hkind, length_searchDispatchOrders hlimit]
  · rw [statistics, hnone]
  · have htallies := c.tallies_statistics hfield
    refine ⟨htallies.sorted, ?_, fun label n => ?_⟩
    · rw [htallies.sum_eq, List.length_map, ← List.countP_eq_length_filter, countP_admits, htotal]
    · rw [htallies.mem_iff, count_map_groupLabel]

end Corpus

end Archivist
