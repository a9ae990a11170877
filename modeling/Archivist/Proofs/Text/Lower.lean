import Archivist.Text.Blank
import Archivist.Text.Case
import Mathlib.Data.List.TakeWhile

/-!
# Beginnings of Lower-Case Texts

The lower-case form of a text is not that of its parts put together: a capital sigma at the end of
a part may or may not stand at the end of a word. That is the only way in which later text changes
the form of earlier text, so a prefix without a small sigma does not notice
(`prefix_lowerAfter_append_iff`). Lower case takes nothing away: every character leaves at least one
(`lower_eq_nil_iff`).
-/

namespace Archivist.Text

/-- A text without a small sigma of either form. -/
def SigmaFree (p : List Char) : Prop := 'σ' ∉ p ∧ 'ς' ∉ p

instance (p : List Char) : Decidable (SigmaFree p) := inferInstanceAs (Decidable (_ ∧ _))

theorem SigmaFree.of_append_right {p q : List Char} (h : SigmaFree (p ++ q)) : SigmaFree q :=
  ⟨fun hq => h.1 (List.mem_append_right p hq), fun hq => h.2 (List.mem_append_right p hq)⟩

/-- Behind a common beginning, two texts have the same prefixes if their rests have. -/
theorem prefix_append_congr {p x y z : List Char} (hp : SigmaFree p)
    (h : ∀ q, SigmaFree q → (q <+: y ↔ q <+: z)) : p <+: x ++ y ↔ p <+: x ++ z := by
  by_cases hx : x <+: p
  · obtain ⟨q, rfl⟩ := hx
    rw [List.prefix_append_right_inj, List.prefix_append_right_inj]
    exact h q hp.of_append_right
  · have hshort : ∀ y, p <+: x ++ y → p <+: x := fun y hy =>
      (List.prefix_or_prefix_of_prefix hy (List.prefix_append x y)).resolve_right hx
    exact ⟨fun hy => (hshort y hy).trans (List.prefix_append x z),
      fun hz => (hshort z hz).trans (List.prefix_append x y)⟩

/-- A prefix of a text that begins with a small sigma is empty if it has none. -/
theorem prefix_sigma_iff {p rest : List Char} {c : Char} (hp : SigmaFree p)
    (hc : c = 'σ' ∨ c = 'ς') : p <+: c :: rest ↔ p = [] := by
  constructor
  · intro h
    rcases List.prefix_cons_iff.1 h with hnil | ⟨q, rfl, -⟩
    · exact hnil
    · rcases hc with rfl | rfl
      · exact absurd List.mem_cons_self hp.1
      · exact absurd List.mem_cons_self hp.2
  · rintro rfl
    exact List.nil_prefix

/-- **A prefix without a small sigma sees the lower-case form of a text as that of its parts.** -/
theorem prefix_lowerAfter_append_iff {p : List Char} (hp : SigmaFree p)
    (before cs more : List Char) :
    p <+: lowerAfter before (cs ++ more) ↔
      p <+: lowerAfter before cs ++ lowerAfter (cs.reverse ++ before) more := by
  induction cs generalizing p before with
  | nil => rfl
  | cons c cs ih =>
      simp only [List.cons_append, lowerAfter, List.append_assoc, List.reverse_cons,
        List.nil_append]
      by_cases hc : c = 'Σ'
      · have hs : ∀ b : Bool, (if b then 'ς' else 'σ') = 'σ' ∨ (if b then 'ς' else 'σ') = 'ς' := by
          decide
        simp only [hc, if_true, List.cons_append, List.nil_append]
        rw [prefix_sigma_iff hp (hs _), prefix_sigma_iff hp (hs _)]
      · simp only [hc, if_false]
        exact prefix_append_congr hp fun q hq => ih hq (c :: before)

/-- What the beginning of a text begins with, the text begins with. -/
theorem prefix_lower_append {p cs : List Char} (hp : SigmaFree p) (h : p <+: lower cs)
    (more : List Char) : p <+: lower (cs ++ more) :=
  (prefix_lowerAfter_append_iff hp [] cs more).2 (h.trans (List.prefix_append _ _))

/-- What a text begins with, its beginning begins with or is a beginning of. -/
theorem prefix_or_prefix_of_prefix_lower {p cs more : List Char} (hp : SigmaFree p)
    (h : p <+: lower (cs ++ more)) : p <+: lower cs ∨ lower cs <+: p :=
  List.prefix_or_prefix_of_prefix ((prefix_lowerAfter_append_iff hp [] cs more).1 h)
    (List.prefix_append _ _)

/-! ### Texts that are empty in lower case -/

/-- Every character has a lower case. -/
theorem lowerChar_ne_nil (c : Char) : lowerChar c ≠ [] := by
  rw [lowerChar]
  split_ifs <;> exact List.cons_ne_nil _ _

/-- Lower case makes no text empty that was not. -/
theorem lower_eq_nil_iff {cs : List Char} : lower cs = [] ↔ cs = [] := by
  cases cs with
  | nil => exact iff_of_true rfl rfl
  | cons c cs =>
      refine iff_of_false (fun h => ?_) (List.cons_ne_nil c cs)
      rw [lower, lowerAfter, List.append_eq_nil_iff] at h
      split at h
      · exact List.cons_ne_nil _ _ h.1
      · exact lowerChar_ne_nil c h.1

end Archivist.Text
