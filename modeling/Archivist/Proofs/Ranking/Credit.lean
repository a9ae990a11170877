import Archivist.Proofs.Number.Scalar
import Archivist.Proofs.Text.Margin
import Archivist.Proofs.Text.Mark
import Archivist.Ranking.Coverage
import Mathlib.Algebra.Order.BigOperators.Group.List
import Mathlib.Algebra.Order.Field.Basic
import Mathlib.Data.Rat.Cast.Order
import Mathlib.Tactic.Linarith
import Mathlib.Tactic.NormNum

/-!
# Coverage as a Mean

Without rounding, the coverage of a text is the mean of what the terms that count are credited with,
by their weights (`Coverage.score_eq`): the whole for a term that occurs in the text, a part for one
that shares two neighbouring characters with it, nothing for any other. A mean of numbers between 0
and 1 is 0 or 1 only if all of them are, and it does not depend on their order. What is credited for
a text is credited for every text that contains it, and a text behind a line break is such a text:
the line break keeps its lower-case form apart from that of the text before.

## Main results

* `Coverage.score_bounds`: the bounds of the coverage, when it attains them, and what does not
  change or lower it.
-/

namespace Archivist.Coverage

variable {terms : List String} {term text more : List Char}

/-! ### Terms -/

/-- A term counts: as it is looked for, it has two characters at least and says something. -/
def Counts (t : String) : Prop :=
  2 ≤ (foldTerm t).length ∧ ∀ w ∈ stopWords, w.toList ≠ foldTerm t

/-- Two texts have two neighbouring characters in common. -/
def Touches (term text : List Char) : Prop := ∃ a b, [a, b] <:+: term ∧ [a, b] <:+: text

/-- A term is looked for if it counts. -/
theorem isEffective_foldTerm_iff {t : String} : isEffective (foldTerm t) = true ↔ Counts t := by
  simp [isEffective, Counts]

/-- A pair of characters is in a text where they are neighbours. -/
theorem mem_bigrams_iff {cs : List Char} {a b : Char} : (a, b) ∈ bigrams cs ↔ [a, b] <:+: cs := by
  induction cs with
  | nil => simp [bigrams]
  | cons c cs ih =>
      cases cs with
      | nil => simp [bigrams, List.infix_cons_iff]
      | cons d cs =>
          have hcons : bigrams (c :: d :: cs) = (c, d) :: bigrams (d :: cs) := rfl
          have hinfix : [a, b] <:+: c :: d :: cs ↔ [a, b] <+: c :: d :: cs ∨ [a, b] <:+: d :: cs :=
            List.infix_cons_iff
          rw [hcons, List.mem_cons, ih, hinfix, List.cons_prefix_cons, List.cons_prefix_cons,
            Prod.mk.injEq, and_iff_left List.nil_prefix]

/-- Two texts share a pair if they touch. -/
theorem sharesBigram_iff : sharesBigram term text = true ↔ Touches term text := by
  simp only [sharesBigram, List.any_eq_true, decide_eq_true_eq, Prod.exists, mem_bigrams_iff,
    Touches]

/-! ### Credits -/

/-- The part of its weight that a term earns. -/
def credit (term text : List Char) : ℚ :=
  if Text.occurs term text then 1 else if sharesBigram term text then 7 / 10 else 0

/-- A term is never credited with less than nothing. -/
theorem credit_nonneg (term text : List Char) : 0 ≤ credit term text := by
  rw [credit]
  split_ifs <;> norm_num

/-- A term is never credited with more than its weight. -/
theorem credit_le_one (term text : List Char) : credit term text ≤ 1 := by
  rw [credit]
  split_ifs <;> norm_num

/-- Nothing is credited where the term neither stands nor touches the text. -/
theorem credit_eq_zero_iff :
    credit term text = 0 ↔ ¬ term <:+: text ∧ ¬ Touches term text := by
  rw [← Text.occurs_iff_infix, ← sharesBigram_iff, credit]
  split_ifs <;> simp_all

/-- All is credited exactly where the term stands in the text. -/
theorem credit_eq_one_iff : credit term text = 1 ↔ term <:+: text := by
  rw [← Text.occurs_iff_infix, credit]
  split_ifs with hoccurs hshares
  · exact iff_of_true rfl hoccurs
  · exact iff_of_false (by norm_num) hoccurs
  · exact iff_of_false (by norm_num) hoccurs

/-- What is credited for a text is credited for a text that it is part of. -/
theorem credit_mono {whole : List Char} (h : text <:+: whole) :
    credit term text ≤ credit term whole := by
  by_cases hoccurs : term <:+: text
  · rw [credit_eq_one_iff.2 hoccurs, credit_eq_one_iff.2 (hoccurs.trans h)]
  by_cases htouches : Touches term text
  · obtain ⟨a, b, hterm, htext⟩ := htouches
    have hwhole : sharesBigram term whole = true :=
      sharesBigram_iff.2 ⟨a, b, hterm, htext.trans h⟩
    rw [credit, if_neg (mt Text.occurs_iff_infix.1 hoccurs),
      if_pos (sharesBigram_iff.2 ⟨a, b, hterm, htext⟩), credit, if_pos hwhole]
    split_ifs <;> norm_num
  · rw [credit_eq_zero_iff.2 ⟨hoccurs, htouches⟩]
    exact credit_nonneg _ _

/-- What is earned is the credit by weight. -/
theorem earned_eq (term text : List Char) :
    earned term text = weight term.length * credit term text := by
  rw [earned, credit]
  split_ifs
  · exact (mul_one _).symm
  · change weight term.length * (0.7 : ℚ) = _
    norm_num
  · exact (mul_zero _).symm

/-- A term that counts has a weight. -/
theorem weight_pos (h : isEffective term = true) : 0 < (weight term.length : ℚ) := by
  rw [isEffective, Bool.and_eq_true, decide_eq_true_eq] at h
  have hlength : 2 ≤ min term.length lengthCap := le_min h.1 (by decide)
  have hcast : (2 : ℚ) ≤ (min term.length lengthCap : ℕ) := by exact_mod_cast hlength
  change 0 < (1.0 : ℚ) + 0.25 * ((min term.length lengthCap : ℕ) - 2.0)
  linarith

/-! ### The mean -/

/-- The terms that count, as they are looked for. -/
def counting (terms : List String) : List (List Char) := (terms.map foldTerm).filter isEffective

/-- A term that counts has a weight. -/
theorem weight_pos_of_mem (h : term ∈ counting terms) : 0 < (weight term.length : ℚ) :=
  weight_pos (List.of_mem_filter h)

/-- The terms that count, as they are given and as they are looked for. -/
theorem forall_mem_counting_iff {P : List Char → Prop} :
    (∀ term ∈ counting terms, P term) ↔ ∀ t ∈ terms, Counts t → P (foldTerm t) := by
  simp only [counting, List.mem_filter, List.mem_map, and_imp, forall_exists_index,
    forall_apply_eq_imp_iff₂, isEffective_foldTerm_iff]

/-- There is something to look for if a term counts. -/
theorem counting_ne_nil_iff : counting terms ≠ [] ↔ ∃ t ∈ terms, Counts t := by
  refine ⟨fun h => ?_, fun ⟨t, ht, hcounts⟩ => ?_⟩
  · obtain ⟨term, hterm⟩ := List.exists_mem_of_ne_nil _ h
    obtain ⟨hmem, heffective⟩ := List.mem_filter.1 hterm
    obtain ⟨t, ht, rfl⟩ := List.mem_map.1 hmem
    exact ⟨t, ht, isEffective_foldTerm_iff.1 heffective⟩
  · refine List.ne_nil_of_mem (List.mem_filter.2 ⟨List.mem_map_of_mem ht, ?_⟩)
    exact isEffective_foldTerm_iff.2 hcounts

/-- The weight of the terms that count. -/
def totalWeight (terms : List String) : ℚ :=
  ((counting terms).map fun term => weight term.length).sum

/-- What they are credited with. -/
def totalCredit (terms : List String) (text : List Char) : ℚ :=
  ((counting terms).map fun term => weight term.length * credit term text).sum

/-- Two sums that are added up side by side. -/
theorem foldl_add_eq {β : Type} (f g : β → ℚ) (ts : List β) (a b : ℚ) :
    ts.foldl (fun p t => (p.1 + f t, p.2 + g t)) (a, b) =
      (a + (ts.map f).sum, b + (ts.map g).sum) := by
  induction ts generalizing a b with
  | nil => simp
  | cons t ts ih =>
      rw [List.foldl_cons, ih, List.map_cons, List.map_cons, List.sum_cons, List.sum_cons,
        add_assoc, add_assoc]

/-- The sums are those of weights and of credits. -/
theorem totals_eq (terms : List String) (text : List Char) :
    totals (terms.map foldTerm) text = (totalWeight terms, totalCredit terms text) := by
  have hstep : totals (terms.map foldTerm) text = (terms.map foldTerm).foldl (fun p term =>
      if isEffective term then
        (p.1 + (weight term.length : ℚ), p.2 + weight term.length * credit term text)
      else p) (0, 0) := by
    refine congrArg (fun step => List.foldl step (0, 0) (terms.map foldTerm)) ?_
    funext ⟨total, sum⟩ term
    cases isEffective term with
    | false => rfl
    | true =>
        simp only [if_true, earned_eq, credit]
        cases Text.occurs term text <;> cases sharesBigram term text <;> simp
  rw [hstep, ← List.foldl_filter, foldl_add_eq, zero_add, zero_add]
  rfl

/-- The credit of terms is not negative. -/
theorem totalCredit_nonneg (terms : List String) (text : List Char) :
    0 ≤ totalCredit terms text := by
  refine List.sum_nonneg fun x hx => ?_
  obtain ⟨term, hterm, rfl⟩ := List.mem_map.1 hx
  exact mul_nonneg (weight_pos_of_mem hterm).le (credit_nonneg _ _)

/-- A longer text is credited with no less. -/
theorem totalCredit_mono {whole : List Char} (terms : List String) (h : text <:+: whole) :
    totalCredit terms text ≤ totalCredit terms whole := by
  refine List.sum_le_sum fun term hterm => ?_
  exact mul_le_mul_of_nonneg_left (credit_mono h) (weight_pos_of_mem hterm).le

/-- Terms that are credited with no more than their weights are credited with all of it exactly if
each is. -/
theorem sum_map_eq_iff {β : Type} {ts : List β} {f g : β → ℚ} (h : ∀ t ∈ ts, f t ≤ g t) :
    (ts.map f).sum = (ts.map g).sum ↔ ∀ t ∈ ts, f t = g t := by
  refine ⟨fun heq => ?_, fun heq => congrArg List.sum (List.map_congr_left heq)⟩
  by_contra hne
  push Not at hne
  obtain ⟨t, ht, hlt⟩ := hne
  exact (List.sum_lt_sum f g h ⟨t, ht, lt_of_le_of_ne (h t ht) hlt⟩).ne heq

/-- A credit is at most the weight. -/
theorem mul_credit_le (h : term ∈ counting terms) (text : List Char) :
    (weight term.length : ℚ) * credit term text ≤ weight term.length :=
  mul_le_of_le_one_right (weight_pos_of_mem h).le (credit_le_one _ _)

/-- The credit of all terms is at most their weight. -/
theorem totalCredit_le (terms : List String) (text : List Char) :
    totalCredit terms text ≤ totalWeight terms :=
  List.sum_le_sum fun _ hterm => mul_credit_le hterm text

/-- Nothing is credited in all if nothing is for any term. -/
theorem totalCredit_eq_zero_iff :
    totalCredit terms text = 0 ↔ ∀ term ∈ counting terms, credit term text = 0 := by
  have hnonneg : ∀ term ∈ counting terms, 0 ≤ (weight term.length : ℚ) * credit term text :=
    fun term hterm => mul_nonneg (weight_pos_of_mem hterm).le (credit_nonneg _ _)
  have hsum := sum_map_eq_iff hnonneg
  rw [List.map_const', List.sum_replicate, nsmul_zero, eq_comm] at hsum
  refine hsum.trans (forall₂_congr fun term hterm => ?_)
  rw [eq_comm, mul_eq_zero, or_iff_right (weight_pos_of_mem hterm).ne']

/-- All is credited in all if all is for every term. -/
theorem totalCredit_eq_iff :
    totalCredit terms text = totalWeight terms ↔ ∀ term ∈ counting terms, credit term text = 1 := by
  rw [totalCredit, totalWeight, sum_map_eq_iff fun term hterm => mul_credit_le hterm text]
  exact forall₂_congr fun term hterm => mul_eq_left₀ (weight_pos_of_mem hterm).ne'

/-- Terms that count have a weight together. -/
theorem totalWeight_pos (h : counting terms ≠ []) : 0 < totalWeight terms := by
  obtain ⟨term, hterm⟩ := List.exists_mem_of_ne_nil _ h
  refine lt_of_lt_of_le (weight_pos_of_mem hterm) ?_
  refine List.single_le_sum (fun x hx => ?_) _ (List.mem_map_of_mem hterm)
  obtain ⟨term', hterm', rfl⟩ := List.mem_map.1 hx
  exact (weight_pos_of_mem hterm').le

/-- **The coverage is the mean of the credits**, by weight; 0 if no term counts. -/
theorem score_eq (terms : List String) (text : String) :
    score terms text = totalCredit terms (Text.lower text.toList) / totalWeight terms := by
  by_cases hnil : counting terms = []
  · have hany : (terms.map foldTerm).any isEffective = false := by
      rw [← Bool.not_eq_true, List.any_eq_true]
      rintro ⟨term, hterm, heffective⟩
      exact List.filter_eq_nil_iff.1 hnil term hterm heffective
    simp only [score, hany, totalCredit, totalWeight, hnil]
    simp [Scalar.ofNat_zero]
  · have hany : (terms.map foldTerm).any isEffective = true := by
      obtain ⟨term, hterm⟩ := List.exists_mem_of_ne_nil _ hnil
      exact List.any_eq_true.2 ⟨term, List.mem_of_mem_filter hterm, List.of_mem_filter hterm⟩
    have hpos := totalWeight_pos hnil
    simp only [score, hany, totals_eq, if_true]
    refine Scalar.clampUnit_eq_self (div_nonneg (totalCredit_nonneg _ _) hpos.le) ?_
    exact (div_le_one hpos).2 (totalCredit_le _ _)

/-- **The bounds of the coverage.** It lies between 0 and 1. It is 0 exactly if no term that counts
occurs in the text, put in lower case, or has two neighbouring characters in common with it; and 1
exactly if some term counts and all that do occur in it. It does not depend on the order of the
terms, and further lines of text never lower it. -/
theorem score_bounds (terms : List String) (text : String) :
    (0 ≤ (score terms text : ℚ) ∧ (score terms text : ℚ) ≤ 1) ∧
    ((score terms text : ℚ) = 0 ↔ ∀ t ∈ terms, Counts t →
      ¬ foldTerm t <:+: Text.lower text.toList ∧
        ¬ Touches (foldTerm t) (Text.lower text.toList)) ∧
    ((score terms text : ℚ) = 1 ↔ (∃ t ∈ terms, Counts t) ∧
      ∀ t ∈ terms, Counts t → foldTerm t <:+: Text.lower text.toList) ∧
    (∀ terms' : List String, terms'.Perm terms →
      (score terms' text : ℚ) = score terms text) ∧
    ∀ more : String, (score terms text : ℚ) ≤ score terms (text ++ "\n" ++ more) := by
  have hlower := totalCredit_nonneg terms (Text.lower text.toList)
  have hupper := totalCredit_le terms (Text.lower text.toList)
  have hweight : 0 ≤ totalWeight terms := hlower.trans hupper
  refine ⟨⟨?_, ?_⟩, ?_, ?_, fun terms' hperm => ?_, fun more => ?_⟩
  · rw [score_eq]
    exact div_nonneg hlower hweight
  · rw [score_eq]
    exact div_le_one_of_le₀ hupper hweight
  · -- Without a weight there is no credit either.
    have hzero : totalWeight terms = 0 → totalCredit terms (Text.lower text.toList) = 0 := by
      intro h
      linarith
    rw [score_eq, div_eq_zero_iff, or_iff_left_of_imp hzero, totalCredit_eq_zero_iff,
      forall_mem_counting_iff]
    simp only [credit_eq_zero_iff]
  · rw [← counting_ne_nil_iff]
    -- A term that counts gives a weight to divide by.
    by_cases hnil : counting terms = []
    · refine iff_of_false ?_ fun h => h.1 hnil
      rw [score_eq, totalWeight, hnil]
      simp
    · rw [score_eq, div_eq_one_iff_eq (totalWeight_pos hnil).ne', totalCredit_eq_iff,
        forall_mem_counting_iff, and_iff_right hnil]
      simp only [credit_eq_one_iff]
  · have hcounting : (counting terms').Perm (counting terms) := (hperm.map foldTerm).filter _
    rw [score_eq, score_eq, totalCredit, totalCredit, totalWeight, totalWeight,
      (hcounting.map _).sum_eq, (hcounting.map _).sum_eq]
  · have hinfix : Text.lower text.toList <:+: Text.lower (text ++ "\n" ++ more).toList := by
      have hlist : (text ++ "\n" ++ more).toList = text.toList ++ '\n' :: more.toList := by
        simp
      rw [hlist, Text.lower_append_cons (by decide)]
      exact (List.prefix_append _ _).isInfix
    rw [score_eq, score_eq]
    exact div_le_div_of_nonneg_right (totalCredit_mono terms hinfix) hweight

end Archivist.Coverage
