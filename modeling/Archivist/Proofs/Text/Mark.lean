import Archivist.Text.Search
import Mathlib.Data.List.Infix

/-!
# Marks in a Text

`breakOn mark` cuts a text at the first occurrence of a mark. A text that arrives in pieces is
searched before it is complete, so these lemmas say what more text can change: an occurrence that
has been found stays the first one (`breakOn_append`), and text in which no occurrence begins can
be put aside (`breakOn_append_left`).
-/

namespace Archivist.Text

variable {mark cs more before after : List Char}

/-- Nothing is found exactly when the mark does not occur. -/
theorem breakOn_eq_none_iff : breakOn mark cs = none ↔ ¬ mark <:+: cs := by
  induction cs with
  | nil =>
      simp only [breakOn, List.infix_nil]
      split <;> simp_all
  | cons c cs ih =>
      rw [breakOn, List.infix_cons_iff]
      split
      · rename_i hp
        simp [List.isPrefixOf_iff_prefix.1 hp]
      · rename_i hp
        rw [List.isPrefixOf_iff_prefix] at hp
        rw [Option.map_eq_none_iff, ih]
        simp [hp]

/-- Whether a text occurs, by the occurrences themselves. -/
theorem occurs_iff_infix : occurs mark cs = true ↔ mark <:+: cs := by
  induction cs with
  | nil => simp [occurs]
  | cons c cs ih =>
      rw [occurs, List.infix_cons_iff, Bool.or_eq_true, List.isPrefixOf_iff_prefix, ih]

/-- The mark does not occur in the text in front of its first occurrence. -/
theorem not_infix_of_breakOn (hm : mark ≠ []) (h : breakOn mark cs = some (before, after)) :
    ¬ mark <:+: before := by
  induction cs generalizing before with
  | nil =>
      simp only [breakOn, hm, if_false] at h
      cases h
  | cons c cs ih =>
      rw [breakOn] at h
      split at h
      · cases h
        rwa [List.infix_nil]
      · rename_i hp
        rw [List.isPrefixOf_iff_prefix] at hp
        obtain ⟨⟨front, rest⟩, hb, heq⟩ := Option.map_eq_some_iff.1 h
        obtain ⟨rfl, rfl⟩ := Prod.mk.inj heq
        rw [List.infix_cons_iff]
        rintro (hpre | hin)
        · have hcs : cs = front ++ (mark ++ rest) := by
            rw [eq_append_of_breakOn hb, List.append_assoc]
          exact hp (hpre.trans (by rw [hcs]; exact List.prefix_append (c :: front) _))
        · exact ih hb hin

/-- **An occurrence that has been found stays the first one**, whatever text follows. -/
theorem breakOn_append (hm : mark ≠ []) (h : breakOn mark cs = some (before, after))
    (more : List Char) : breakOn mark (cs ++ more) = some (before, after ++ more) := by
  induction cs generalizing before with
  | nil =>
      simp only [breakOn, hm, if_false] at h
      cases h
  | cons c cs ih =>
      rw [breakOn] at h
      split at h
      · rename_i hp
        cases h
        rw [List.isPrefixOf_iff_prefix] at hp
        have hp' : mark.isPrefixOf (c :: (cs ++ more)) = true :=
          List.isPrefixOf_iff_prefix.2 (hp.trans (List.prefix_append (c :: cs) more))
        rw [List.cons_append, breakOn, if_pos hp', ← List.cons_append,
          List.drop_append_of_le_length hp.length_le]
      · rename_i hp
        obtain ⟨⟨front, rest⟩, hb, heq⟩ := Option.map_eq_some_iff.1 h
        obtain ⟨rfl, rfl⟩ := Prod.mk.inj heq
        -- The occurrence lies within `cs`, so a mark at `c` would lie within `c :: cs`.
        have hlen : mark.length ≤ (c :: cs).length := by
          rw [eq_append_of_breakOn hb]
          simp only [List.length_cons, List.length_append]
          omega
        have hp' : ¬ mark.isPrefixOf (c :: (cs ++ more)) = true := by
          rw [List.isPrefixOf_iff_prefix] at hp ⊢
          intro hq
          exact hp (List.prefix_of_prefix_length_le hq (List.prefix_append (c :: cs) more) hlen)
        rw [List.cons_append, breakOn, if_neg hp', ih hb, Option.map_some]

/-- No occurrence begins earlier than the one that is found. -/
theorem length_le_of_breakOn {i : ℕ} (h : breakOn mark cs = some (before, after))
    (hi : mark <+: cs.drop i) : before.length ≤ i := by
  induction cs generalizing before i with
  | nil =>
      simp only [breakOn] at h
      split at h
      · cases h
        exact Nat.zero_le i
      · cases h
  | cons c cs ih =>
      rw [breakOn] at h
      split at h
      · cases h
        exact Nat.zero_le i
      · rename_i hp
        obtain ⟨⟨front, rest⟩, hb, heq⟩ := Option.map_eq_some_iff.1 h
        obtain ⟨rfl, rfl⟩ := Prod.mk.inj heq
        cases i with
        | zero => exact absurd (List.isPrefixOf_iff_prefix.2 hi) hp
        | succ i => exact Nat.succ_le_succ (ih hb hi)

/-- A mark at the beginning is found there. -/
theorem breakOn_self_append (hm : mark ≠ []) (more : List Char) :
    breakOn mark (mark ++ more) = some ([], more) := by
  obtain ⟨c, mark, rfl⟩ := List.exists_cons_of_ne_nil hm
  have hp : (c :: mark).isPrefixOf (c :: (mark ++ more)) = true :=
    List.isPrefixOf_iff_prefix.2 (List.prefix_append (c :: mark) more)
  rw [List.cons_append, breakOn, if_pos hp, ← List.cons_append, List.drop_left]

/-- **Text in which no occurrence begins is put aside**: the search goes on behind it. -/
theorem breakOn_append_left (h : ∀ i < cs.length, ¬ mark <+: cs.drop i ++ more) :
    breakOn mark (cs ++ more) =
      (breakOn mark more).map fun (front, rest) => (cs ++ front, rest) := by
  induction cs with
  | nil => cases hb : breakOn mark more <;> simp [hb]
  | cons c cs ih =>
      have hc : ¬ mark.isPrefixOf (c :: (cs ++ more)) = true := by
        rw [List.isPrefixOf_iff_prefix]
        exact h 0 (by simp)
      have hcs : ∀ i < cs.length, ¬ mark <+: cs.drop i ++ more := fun i hi =>
        h (i + 1) (by simpa using hi)
      rw [List.cons_append, breakOn, if_neg hc, ih hcs]
      cases breakOn mark more <;> rfl

/-- A mark is found where its first character is. -/
theorem breakOn_append_of_notMem {c : Char} (hc : mark.head? = some c) (h : c ∉ cs)
    (more : List Char) : breakOn mark (cs ++ (mark ++ more)) = some (cs, more) := by
  have hm : mark ≠ [] := by
    rintro rfl
    cases hc
  obtain ⟨tail, rfl⟩ := List.head?_eq_some_iff.1 hc
  rw [breakOn_append_left, breakOn_self_append hm]
  · simp only [Option.map_some, List.append_nil]
  · intro i hi hpre
    rw [List.drop_eq_getElem_cons hi, List.cons_append, List.cons_prefix_cons] at hpre
    exact h (hpre.1 ▸ List.getElem_mem hi)

/-- A mark that begins in a text and ends behind it is cut in two. -/
theorem prefix_append_cases {part : List Char} (h : mark <+: part ++ more) :
    mark <+: part ∨ ∃ k < mark.length, part = mark.take k ∧ mark.drop k <+: more := by
  rcases Nat.lt_or_ge part.length mark.length with hlt | hge
  · obtain ⟨rest, rfl⟩ :=
      List.prefix_of_prefix_length_le (List.prefix_append part more) h hlt.le
    rw [List.prefix_append_right_inj] at h
    exact Or.inr ⟨part.length, hlt, by rw [List.take_left], by rwa [List.drop_left]⟩
  · exact Or.inl (List.prefix_of_prefix_length_le h (List.prefix_append part more) hge)

/-! ### Lines

A text is the sequence of its lines. Each line keeps its line break; the last one may have none.
-/

/-- The lines of a text. -/
def lines : List Char → List (List Char)
  | [] => []
  | c :: cs =>
    if c = '\n' then [c] :: lines cs
    else match lines cs with
      | [] => [[c]]
      | line :: rest => (c :: line) :: rest

/-- The lines put together are the text. -/
theorem flatten_lines (cs : List Char) : (lines cs).flatten = cs := by
  induction cs with
  | nil => rfl
  | cons c cs ih =>
      simp only [lines]
      split
      · simp [ih]
      · cases h : lines cs with
        | nil => simpa [h] using ih
        | cons line rest => simpa [h] using ih

/-- A text that is not empty has a line. -/
theorem exists_lines_cons (c : Char) (cs : List Char) :
    ∃ first rest, lines (c :: cs) = first :: rest := by
  rw [lines]
  split
  · exact ⟨_, _, rfl⟩
  · cases lines cs with
    | nil => exact ⟨_, _, rfl⟩
    | cons first rest => exact ⟨_, _, rfl⟩

/-- Text without a line break belongs to the first line of what follows. -/
theorem lines_append {cs : List Char} (hne : cs ≠ []) (hn : '\n' ∉ cs) (more : List Char) :
    lines (cs ++ more) = (cs ++ (lines more).headD []) :: (lines more).tail := by
  induction cs with
  | nil => exact absurd rfl hne
  | cons c cs ih =>
      obtain ⟨hc, hcs⟩ := not_or.1 (mt List.mem_cons.2 hn)
      rw [List.cons_append, lines, if_neg (Ne.symm hc)]
      by_cases hnil : cs = []
      · subst hnil
        cases h : lines more <;> simp [h]
      · rw [ih hnil hcs]
        rfl

/-- A line ends with its line break. -/
theorem lines_append_break {cs : List Char} (hn : '\n' ∉ cs) (rest : List Char) :
    lines (cs ++ '\n' :: rest) = (cs ++ ['\n']) :: lines rest := by
  by_cases hne : cs = []
  · subst hne
    rfl
  · rw [lines_append hne hn]
    rfl

/-- The first line break of a text is the end of its first line. -/
theorem lines_of_breakOn {cs line rest : List Char}
    (h : breakOn ['\n'] cs = some (line, rest)) : lines cs = (line ++ ['\n']) :: lines rest := by
  have hn : '\n' ∉ line := by
    rw [← List.singleton_infix_iff]
    exact not_infix_of_breakOn (List.cons_ne_nil _ _) h
  rw [eq_append_of_breakOn h, List.append_assoc, List.singleton_append, lines_append_break hn]

/-- A line is a single line. -/
theorem lines_of_mem {cs line : List Char} (h : line ∈ lines cs) : lines line = [line] := by
  induction cs generalizing line with
  | nil => cases h
  | cons c cs ih =>
      rw [lines] at h
      split at h
      · rename_i hc
        rcases List.mem_cons.1 h with rfl | h
        · rw [hc]
          rfl
        · exact ih h
      · rename_i hc
        cases hl : lines cs with
        | nil =>
            rw [hl, List.mem_singleton] at h
            rw [h, lines, if_neg hc]
            rfl
        | cons first rest =>
            rw [hl] at h ih
            rcases List.mem_cons.1 h with rfl | h
            · rw [lines, if_neg hc, ih List.mem_cons_self]
            · exact ih (List.mem_cons_of_mem _ h)

/-- A text is a number of complete lines and the beginning of another one. -/
theorem exists_complete_append (cs : List Char) :
    ∃ complete begun, cs = complete ++ begun ∧ '\n' ∉ begun ∧
      ∀ more, lines (complete ++ more) = lines complete ++ lines more := by
  induction cs with
  | nil => exact ⟨[], [], rfl, List.not_mem_nil, fun _ => rfl⟩
  | cons c cs ih =>
      obtain ⟨complete, begun, rfl, hn, hall⟩ := ih
      by_cases hc : c = '\n'
      · refine ⟨c :: complete, begun, rfl, hn, fun more => ?_⟩
        rw [List.cons_append, lines, if_pos hc, lines, if_pos hc, hall, List.cons_append]
      · cases complete with
        | nil =>
            refine ⟨[], c :: begun, rfl, ?_, fun _ => rfl⟩
            rw [List.mem_cons, not_or]
            exact ⟨Ne.symm hc, hn⟩
        | cons d complete =>
            refine ⟨c :: d :: complete, begun, rfl, hn, fun more => ?_⟩
            obtain ⟨first, rest, hl⟩ := exists_lines_cons d complete
            rw [List.cons_append, lines, if_neg hc, lines, if_neg hc, hall, hl]
            rfl

/-- A text in which no line break is found has none. -/
theorem not_mem_of_breakOn {cs : List Char} (h : breakOn ['\n'] cs = none) : '\n' ∉ cs := by
  rw [← List.singleton_infix_iff]
  exact breakOn_eq_none_iff.1 h

end Archivist.Text
