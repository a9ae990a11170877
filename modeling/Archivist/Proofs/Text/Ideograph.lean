import Archivist.Proofs.Text.Lower
import Archivist.Proofs.Text.Mark
import Archivist.Text.Blank
import Archivist.Text.Case
import Mathlib.Data.List.TakeWhile

/-!
# Ideographs

An ideograph is neither white space nor a letter with case, and no letter with case becomes one in
lower case: the runs of the case table stay clear of the ideographs, and so do the characters that
they lead to (`lowerRuns_avoid`). A word of ideographs therefore stands in the lower-case form of a
text exactly where it stands in the text, and it is not lost when a text is trimmed.

## Main results

* `infix_append_iff_of_forall_notMem`: where a part can occur that shares no character with a text.
* `IsIdeographic.infix_lower_iff`: lower case neither makes nor loses a word of ideographs.
-/

namespace Archivist.Text

variable {part front cs behind : List Char} {p : Char → Bool}

/-! ### Parts that share no character with the rest -/

/-- A text does not begin with a part that lacks its first character. -/
theorem not_prefix_cons (hne : part ≠ []) {c : Char} (hc : c ∉ part) : ¬ part <+: c :: cs := by
  rw [List.prefix_cons_iff]
  rintro (hnil | ⟨rest, rfl, -⟩)
  · exact hne hnil
  · exact hc List.mem_cons_self

/-- A part that shares no character with the front of a text occurs in the text if it occurs behind
the front. -/
theorem infix_append_iff_of_forall_notMem (hne : part ≠ []) (h : ∀ c ∈ front, c ∉ part) :
    part <:+: front ++ cs ↔ part <:+: cs := by
  induction front with
  | nil => rfl
  | cons c front ih =>
      obtain ⟨hc, hfront⟩ := List.forall_mem_cons.1 h
      rw [List.cons_append, List.infix_cons_iff, or_iff_right (not_prefix_cons hne hc), ih hfront]

/-- Characters that are dropped off the front do not matter to a part that has none of them. -/
theorem infix_dropWhile_iff (hne : part ≠ []) (hpart : ∀ c ∈ part, p c = false) :
    part <:+: cs.dropWhile p ↔ part <:+: cs := by
  conv_rhs => rw [← cs.takeWhile_append_dropWhile (p := p)]
  refine (infix_append_iff_of_forall_notMem hne fun c hc hmem => ?_).symm
  exact Bool.eq_false_iff.1 (hpart c hmem) (List.mem_takeWhile_imp hc)

/-- Nor do characters that are dropped off the end. -/
theorem infix_dropEndWhile_iff (hne : part ≠ []) (hpart : ∀ c ∈ part, p c = false) :
    part <:+: dropEndWhile p cs ↔ part <:+: cs := by
  rw [dropEndWhile, ← List.reverse_infix, List.reverse_reverse, infix_dropWhile_iff,
    List.reverse_infix]
  · simpa using hne
  · simpa using hpart

/-! ### Ideographs and case -/

/-- The code points of the block of unified ideographs. -/
abbrev IsIdeographCode (n : ℕ) : Prop := 0x4E00 ≤ n ∧ n ≤ 0x9FFF

/-- A character of this block. -/
def isIdeograph (c : Char) : Bool := decide (IsIdeographCode c.toNat)

/-- Ideographs by their places. -/
theorem isIdeograph_iff {c : Char} : isIdeograph c = true ↔ IsIdeographCode c.toNat :=
  decide_eq_true_iff

/-- No ideograph is white space. -/
theorem isBlank_of_isIdeograph {c : Char} (h : isIdeograph c = true) : isBlank c = false := by
  rw [isIdeograph_iff] at h
  rw [isBlank, decide_eq_false_iff_not]
  omega

/-- Neither the code points of the run nor their lower-case forms are of ideographs. -/
def CaseRun.Avoids (r : CaseRun) : Prop :=
  (r.last < 0x4E00 ∨ 0x9FFF < r.first) ∧
    (r.last + r.shift < 0x4E00 ∨ 0x9FFF < r.first + r.shift)

instance (r : CaseRun) : Decidable r.Avoids := inferInstanceAs (Decidable (_ ∧ _))

/-- No run of letters that have lower case has ideographs in it, or leads to one. -/
theorem lowerRuns_avoid : ∀ r ∈ lowerRuns, r.Avoids := by
  decide +kernel

/-- A character of such a run is no ideograph, and neither is its lower case. -/
theorem CaseRun.Avoids.of_lower? {r : CaseRun} (h : r.Avoids) {n m : ℕ} (hm : r.lower? n = some m) :
    ¬ IsIdeographCode n ∧ ¬ IsIdeographCode m := by
  rw [CaseRun.lower?] at hm
  split at hm
  · obtain ⟨hfrom, himage⟩ := h
    cases hm
    omega
  · cases hm

/-- A code point has a lower-case form because of a run, or it is its own. -/
theorem lowerCode_cases (n : ℕ) (runs : List CaseRun) :
    lowerCode n runs = n ∨ ∃ r ∈ runs, r.lower? n = some (lowerCode n runs) := by
  induction runs with
  | nil => exact .inl rfl
  | cons r runs ih =>
      rw [lowerCode]
      split
      · exact .inl rfl
      · cases hr : r.lower? n with
        | some m => exact .inr ⟨r, List.mem_cons_self, by rw [hr, Option.getD_some]⟩
        | none =>
            rw [Option.getD_none]
            exact ih.imp_right fun ⟨r', hr', h⟩ => ⟨r', List.mem_cons_of_mem r hr', h⟩

/-- **Lower case neither changes an ideograph nor leads to one.** -/
theorem lowerCode_cases_ideograph (n : ℕ) : lowerCode n lowerRuns = n ∨
    ¬ IsIdeographCode n ∧ ¬ IsIdeographCode (lowerCode n lowerRuns) := by
  refine (lowerCode_cases n lowerRuns).imp_right fun ⟨r, hr, h⟩ => ?_
  exact (lowerRuns_avoid r hr).of_lower? h

/-- An ideograph is its own lower case. -/
theorem lowerChar_of_isIdeograph {c : Char} (h : isIdeograph c = true) : lowerChar c = [c] := by
  rw [isIdeograph_iff] at h
  have hdotted : c ≠ 'İ' := by
    rintro rfl
    exact absurd h (by decide)
  rw [lowerChar, if_neg (by omega), if_neg hdotted,
    (lowerCode_cases_ideograph c.toNat).resolve_right fun hno => hno.1 h, Char.ofNat_toNat]

/-- The place of an ideograph is in the block. -/
theorem isIdeographCode_of_ofNat {n : ℕ} (h : isIdeograph (Char.ofNat n) = true) :
    IsIdeographCode n := by
  by_cases hn : n.isValidChar
  · rw [Char.ofNat, dif_pos hn] at h
    exact isIdeograph_iff.1 h
  · rw [Char.ofNat, dif_neg hn] at h
    exact absurd h (by decide)

/-- Only an ideograph becomes one in lower case. -/
theorem isIdeograph_of_mem_lowerChar {c d : Char} (hd : d ∈ lowerChar c)
    (h : isIdeograph d = true) : isIdeograph c = true := by
  rw [lowerChar] at hd
  split_ifs at hd with hascii hupper hdotted
  · obtain rfl := List.mem_singleton.1 hd
    have hcode := isIdeographCode_of_ofNat h
    omega
  · obtain rfl := List.mem_singleton.1 hd
    exact h
  · rcases List.mem_pair.1 hd with rfl | rfl <;> exact absurd h (by decide)
  · obtain rfl := List.mem_singleton.1 hd
    have hcode := isIdeographCode_of_ofNat h
    rcases lowerCode_cases_ideograph c.toNat with hself | ⟨-, hno⟩
    · rwa [isIdeograph_iff, ← hself]
    · exact absurd hcode hno

/-- The next character of a text is an ideograph and stays, or others come of it. -/
theorem lowerAfter_cons_cases (before cs : List Char) (c : Char) :
    isIdeograph c = true ∧ lowerAfter before (c :: cs) = c :: lowerAfter (c :: before) cs ∨
      isIdeograph c = false ∧ ∃ form, lowerAfter before (c :: cs) =
        form ++ lowerAfter (c :: before) cs ∧ form ≠ [] ∧ ∀ d ∈ form, isIdeograph d = false := by
  by_cases hsigma : c = 'Σ'
  · subst hsigma
    refine .inr ⟨by decide, _, rfl, List.cons_ne_nil _ _, fun d hd => ?_⟩
    obtain rfl := List.mem_singleton.1 hd
    split <;> decide
  · rw [lowerAfter, if_neg hsigma]
    cases hc : isIdeograph c with
    | true => exact .inl ⟨rfl, by rw [lowerChar_of_isIdeograph hc, List.singleton_append]⟩
    | false =>
        refine .inr ⟨rfl, _, rfl, lowerChar_ne_nil c, fun d hd => ?_⟩
        exact Bool.eq_false_iff.2 fun h =>
          Bool.eq_false_iff.1 hc (isIdeograph_of_mem_lowerChar hd h)

/-! ### Words of ideographs -/

/-- A word of ideographs. -/
structure IsIdeographic (part : List Char) : Prop where
  ne_nil : part ≠ []
  all : ∀ c ∈ part, isIdeograph c = true

namespace IsIdeographic

/-- A word of ideographs has no other character. -/
theorem notMem (h : IsIdeographic part) {c : Char} (hc : isIdeograph c = false) : c ∉ part :=
  fun hmem => Bool.eq_false_iff.1 hc (h.all c hmem)

/-- Lower case does not change which words of ideographs a text begins with. -/
theorem prefix_lowerAfter_iff (h : ∀ c ∈ part, isIdeograph c = true) (before : List Char) :
    part <+: lowerAfter before cs ↔ part <+: cs := by
  induction cs generalizing part before with
  | nil => rfl
  | cons c cs ih =>
      cases part with
      | nil => exact iff_of_true List.nil_prefix List.nil_prefix
      | cons d part =>
          obtain ⟨-, heq⟩ | ⟨hc, form, heq, hne, hform⟩ := lowerAfter_cons_cases before cs c
          · rw [heq, List.cons_prefix_cons, List.cons_prefix_cons,
              ih (List.forall_mem_cons.1 h).2]
          · have hword : IsIdeographic (d :: part) := ⟨List.cons_ne_nil d part, h⟩
            obtain ⟨e, form, rfl⟩ := List.exists_cons_of_ne_nil hne
            rw [heq]
            exact iff_of_false (not_prefix_cons hword.ne_nil (hword.notMem (hform e (by simp))))
              (not_prefix_cons hword.ne_nil (hword.notMem hc))

/-- **A word of ideographs occurs in the lower-case form of a text exactly where it occurs in the
text.** -/
theorem infix_lowerAfter_iff (h : IsIdeographic part) (before : List Char) :
    part <:+: lowerAfter before cs ↔ part <:+: cs := by
  induction cs generalizing before with
  | nil => rfl
  | cons c cs ih =>
      have hprefix : part <+: lowerAfter before (c :: cs) ↔ part <+: c :: cs :=
        prefix_lowerAfter_iff h.all before
      obtain ⟨-, heq⟩ | ⟨hc, form, heq, -, hform⟩ := lowerAfter_cons_cases before cs c
      · rw [heq] at hprefix ⊢
        rw [List.infix_cons_iff, List.infix_cons_iff, hprefix, ih]
      · have hcons : part <:+: [c] ++ cs ↔ part <:+: cs :=
          infix_append_iff_of_forall_notMem h.ne_nil (by simpa using h.notMem hc)
        rw [heq, infix_append_iff_of_forall_notMem h.ne_nil fun d hd => h.notMem (hform d hd), ih]
        exact hcons.symm

/-- Lower case does not change which words of ideographs are in a text. -/
theorem infix_lower_iff (h : IsIdeographic part) : part <:+: lower cs ↔ part <:+: cs :=
  h.infix_lowerAfter_iff []

end IsIdeographic

end Archivist.Text
