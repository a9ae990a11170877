import Archivist.Text.Blank
import Mathlib.Data.List.DropRight
import Mathlib.Data.List.TakeWhile

/-!
# Trimmed Texts

Around a text that begins and ends with something else than white space, what stands in front and
what stands behind are trimmed on their own (`trim_append_append`). What is left has no more white
space at its ends (`trim_trim`), and it lies where the text did (`trim_isPrefix`).
-/

namespace Archivist.Text

variable {front cs behind part : List Char}

/-- Nothing is taken off the front exactly of what does not begin with white space. -/
theorem trimStart_eq_self_iff : trimStart cs = cs ↔ cs.head?.any isBlank = false := by
  cases cs with
  | nil => simp [trimStart]
  | cons c cs =>
      rw [trimStart]
      cases hc : isBlank c with
      | false => simp [hc]
      | true =>
          have hlen := (List.dropWhile_suffix (l := cs) isBlank).length_le
          have hne : cs.dropWhile isBlank ≠ c :: cs := fun heq => by
            rw [heq, List.length_cons] at hlen
            omega
          simpa [List.dropWhile_cons, hc] using hne

/-- Of white space nothing is left at the front. -/
theorem trimStart_of_allBlank (h : allBlank cs = true) : trimStart cs = [] :=
  List.dropWhile_eq_nil_iff.2 (List.all_eq_true.1 h)

/-- Of white space nothing is left at the end. -/
theorem trimEnd_of_allBlank (h : allBlank cs = true) : trimEnd cs = [] := by
  rw [trimEnd, dropEndWhile, List.reverse_eq_nil_iff, List.dropWhile_eq_nil_iff]
  exact fun c hc => List.all_eq_true.1 h c (List.mem_reverse.1 hc)

/-! ### Ends that are dropped -/

/-- To take off less first makes no difference. -/
theorem dropWhile_dropWhile_of_imp {p q : Char → Bool} (h : ∀ c, q c = true → p c = true) :
    (cs.dropWhile q).dropWhile p = cs.dropWhile p := by
  conv_rhs => rw [← cs.takeWhile_append_dropWhile (p := q)]
  exact (List.dropWhile_append_of_pos fun c hc => h c (List.mem_takeWhile_imp hc)).symm

/-- Characters that are dropped later may be dropped before. -/
theorem dropEndWhile_dropEndWhile_of_imp {p q : Char → Bool} (h : ∀ c, q c = true → p c = true) :
    dropEndWhile p (dropEndWhile q cs) = dropEndWhile p cs := by
  rw [dropEndWhile, dropEndWhile, List.reverse_reverse, dropWhile_dropWhile_of_imp h, dropEndWhile]

/-- What is taken off the end may be followed by more of the kind. -/
theorem dropEndWhile_append_of_all {p : Char → Bool} (h : ∀ c ∈ behind, p c = true) :
    dropEndWhile p (cs ++ behind) = dropEndWhile p cs := by
  have hreverse : ∀ c ∈ behind.reverse, p c = true := fun c hc => h c (List.mem_reverse.1 hc)
  rw [dropEndWhile, List.reverse_append, List.dropWhile_append_of_pos hreverse, dropEndWhile]

/-! ### Around a text -/

/-- White space in front goes first. -/
theorem trimStart_append_of_allBlank (h : allBlank front = true) (cs : List Char) :
    trimStart (front ++ cs) = trimStart cs :=
  List.dropWhile_append_of_pos (List.all_eq_true.1 h)

/-- Text behind one that is not blank does not matter for its leading white space. -/
theorem trimStart_append (h : allBlank cs = false) (more : List Char) :
    trimStart (cs ++ more) = trimStart cs ++ more := by
  have hne : cs.dropWhile isBlank ≠ [] := by
    intro hnil
    rw [List.dropWhile_eq_nil_iff] at hnil
    rw [allBlank, List.all_eq_true.2 hnil] at h
    cases h
  rw [trimStart, List.dropWhile_append, if_neg (by simpa using hne), trimStart]

/-- Nothing is taken off the front of what begins with a character. -/
theorem trimStart_append_of_head (h : cs.head?.any isBlank = false) :
    trimStart (front ++ cs) = trimStart front ++ cs := by
  have hcs : cs.dropWhile isBlank = cs := trimStart_eq_self_iff.2 h
  rw [trimStart, trimStart, List.dropWhile_append, hcs]
  split
  · rename_i hempty
    rw [List.isEmpty_iff.1 hempty, List.nil_append]
  · rfl

/-- Nothing is taken off the end of what ends with a character. -/
theorem trimEnd_append_of_getLast (h : cs.getLast?.any isBlank = false) :
    trimEnd (cs ++ behind) = cs ++ trimEnd behind := by
  have hrev : trimStart (behind.reverse ++ cs.reverse) = trimStart behind.reverse ++ cs.reverse :=
    trimStart_append_of_head (by simpa using h)
  rw [trimStart, ← List.reverse_append] at hrev
  rw [trimEnd, dropEndWhile, hrev, List.reverse_append, List.reverse_reverse]
  rfl

/-- **What stands around a text is trimmed on its own.** -/
theorem trim_append_append (hne : cs ≠ []) (hhead : cs.head?.any isBlank = false)
    (hlast : cs.getLast?.any isBlank = false) :
    trim (front ++ cs ++ behind) = trimStart front ++ cs ++ trimEnd behind := by
  rw [trim, List.append_assoc, trimStart_append_of_head, ← List.append_assoc,
    trimEnd_append_of_getLast]
  · rwa [List.getLast?_append_of_ne_nil _ hne]
  · rwa [List.head?_append_of_ne_nil _ hne]

/-! ### What is left -/

/-- What is left when the front is trimmed is an end of the text. -/
theorem trimStart_isSuffix (cs : List Char) : trimStart cs <:+ cs := List.dropWhile_suffix isBlank

/-- What is left when the end is trimmed is a beginning of the text. -/
theorem trimEnd_isPrefix (cs : List Char) : trimEnd cs <+: cs := List.rdropWhile_prefix isBlank cs

/-- What is left is a part of the text. -/
theorem trim_isInfix (cs : List Char) : trim cs <:+: cs :=
  (trimEnd_isPrefix _).isInfix.trans (trimStart_isSuffix cs).isInfix

/-- What a trimmed text begins with does not begin with white space. -/
theorem trimStart_of_prefix (hpart : part <+: cs) (h : trimStart cs = cs) :
    trimStart part = part := by
  rw [trimStart_eq_self_iff] at h ⊢
  obtain ⟨rest, rfl⟩ := hpart
  cases part with
  | nil => rfl
  | cons c part => exact h

/-- The front is trimmed once. -/
theorem trimStart_trimStart (cs : List Char) : trimStart (trimStart cs) = trimStart cs :=
  List.dropWhile_idempotent isBlank cs

/-- The end is trimmed once. -/
theorem trimEnd_trimEnd (cs : List Char) : trimEnd (trimEnd cs) = trimEnd cs :=
  List.rdropWhile_idempotent isBlank cs

/-- White space behind a text does not matter to what is left. -/
theorem trim_append_of_allBlank (h : allBlank behind = true) (cs : List Char) :
    trim (cs ++ behind) = trim cs := by
  cases hcs : allBlank cs with
  | true =>
      have hall : allBlank (cs ++ behind) = true := by
        rw [allBlank, List.all_append, Bool.and_eq_true]
        exact ⟨hcs, h⟩
      rw [trim, trim, trimStart_of_allBlank hall, trimStart_of_allBlank hcs]
  | false =>
      rw [trim, trimStart_append hcs, trimEnd, dropEndWhile_append_of_all (List.all_eq_true.1 h)]
      rfl

/-- **Nothing is left to trim.** -/
theorem trim_trim (cs : List Char) : trim (trim cs) = trim cs := by
  have hstart : trimStart (trim cs) = trim cs :=
    trimStart_of_prefix (trimEnd_isPrefix _) (trimStart_trimStart cs)
  rw [trim, hstart, trim, trimEnd_trimEnd]

/-- What is left of the beginning of a text is the beginning of it. -/
theorem trim_isPrefix (hpart : part <+: cs) (h : cs.head?.any isBlank = false) :
    trim part <+: cs := by
  rw [trim, trimStart_of_prefix hpart (trimStart_eq_self_iff.2 h)]
  exact (trimEnd_isPrefix part).trans hpart

/-! ### Counting what is not blank

The number of characters of a text that are not white space does not change when the text is
trimmed. Two trimmed texts can be told apart by it.
-/

/-- The number of characters that are not white space. -/
def solid (cs : List Char) : ℕ := cs.countP fun c => !isBlank c

/-- Characters are counted part by part. -/
@[simp] theorem solid_append (cs ds : List Char) : solid (cs ++ ds) = solid cs + solid ds :=
  List.countP_append

/-- Trimming the front takes off nothing that is counted. -/
@[simp] theorem solid_trimStart (cs : List Char) : solid (trimStart cs) = solid cs := by
  induction cs with
  | nil => rfl
  | cons c cs ih =>
      rw [trimStart, List.dropWhile_cons]
      split
      · rename_i hc
        rw [← trimStart, ih, solid, solid, List.countP_cons_of_neg (by simp [hc])]
      · rfl

/-- The order does not matter. -/
@[simp] theorem solid_reverse (cs : List Char) : solid cs.reverse = solid cs :=
  List.countP_reverse

/-- Trimming takes off nothing that is counted. -/
@[simp] theorem solid_trim (cs : List Char) : solid (trim cs) = solid cs :=
  calc solid (trim cs)
      = solid ((trimStart cs).reverse.dropWhile isBlank) := solid_reverse _
    _ = solid (trimStart cs).reverse := solid_trimStart _
    _ = solid cs := by rw [solid_reverse, solid_trimStart]

/-- A text that is not blank has something in it. -/
theorem solid_pos {cs : List Char} (h : allBlank cs = false) : 0 < solid cs := by
  rw [solid, List.countP_pos_iff]
  obtain ⟨c, hc, hb⟩ := List.all_eq_false.1 h
  exact ⟨c, hc, by simpa using hb⟩

/-- Trimming leaves something of a text that is not blank. -/
theorem trimmed_ne_empty {s : String} (h : blank s = false) : trimmed s ≠ "" := by
  intro hempty
  have hnil : trim s.toList = [] := by
    rw [trimmed] at hempty
    simpa using congrArg String.toList hempty
  have hpos := solid_pos h
  rw [← solid_trim, hnil] at hpos
  exact absurd hpos (Nat.lt_irrefl _)

/-- Nothing is left of a blank text. -/
theorem trimmed_of_blank {s : String} (h : blank s = true) : trimmed s = "" := by
  rw [trimmed, trim, trimStart_of_allBlank h]
  rfl

/-- Trimming leaves nothing of blank texts, and of no others. -/
theorem trimmed_eq_empty_iff {s : String} : trimmed s = "" ↔ blank s = true := by
  refine ⟨fun hempty => ?_, trimmed_of_blank⟩
  by_contra hblank
  exact trimmed_ne_empty (Bool.eq_false_iff.2 hblank) hempty

/-- A text is trimmed once. -/
theorem trimmed_trimmed (s : String) : trimmed (trimmed s) = trimmed s := by
  rw [trimmed, trimmed, String.toList_ofList, trim_trim]

end Archivist.Text
