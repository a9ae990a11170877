import Archivist.Answer.Sanitizer
import Archivist.Proofs.Text.Lower
import Archivist.Proofs.Text.Mark
import Archivist.Proofs.Text.Trim

/-!
# Lines in Front of an Answer

`lead` says for a whole text what is left when the lines in front of the answer are dropped. The
stage `Leading` sees the text in pieces and cannot take back what it has passed on. It agrees with
`lead` because a line that has begun and cannot announce anything any more never will
(`mayAnnounce_of_announces`): whatever is passed on early is kept by `lead`.

`Leading.due` is what a stage still has to pass on if some text is all that follows. Feeding a piece
only moves text from what is due to what has been passed on (`Leading.feed_due`).
-/

namespace Archivist.Sanitize

/-- A text without the lines to be dropped at its beginning, and without leading white space. -/
def lead (cs : List Char) : List Char :=
  Text.trimStart ((Text.lines cs).dropWhile isDropped).flatten

/-! ### Lines that announce -/

/-- No announcement has a small sigma in it. -/
theorem sigmaFree_of_mem_announcements {a : String} (h : a ∈ announcements) :
    Text.SigmaFree a.toList := by
  revert a
  decide

/-- A line that is not blank and announces something could be seen to do so from its beginning. -/
theorem mayAnnounce_of_announces {line more : List Char} (hb : Text.allBlank line = false)
    (h : announces (line ++ more) = true) : mayAnnounce line = true := by
  obtain ⟨a, ha, hp⟩ := List.any_eq_true.1 h
  rw [List.isPrefixOf_iff_prefix] at hp
  have hfree := sigmaFree_of_mem_announcements ha
  obtain ⟨tail, htail⟩ := Text.trimEnd_isPrefix (Text.trimStart (line ++ more))
  have hline : a.toList <+: Text.lower (Text.trimStart line ++ more) := by
    rw [← Text.trimStart_append hb, ← htail]
    exact Text.prefix_lower_append hfree hp tail
  refine List.any_eq_true.2 ⟨a, ha, ?_⟩
  rw [Bool.or_eq_true, List.isPrefixOf_iff_prefix, List.isPrefixOf_iff_prefix]
  exact (Text.prefix_or_prefix_of_prefix_lower hfree hline).symm

/-- A line is kept if its beginning is not blank and cannot become an announcement. -/
theorem isDropped_append {line : List Char} (hb : Text.allBlank line = false)
    (hm : mayAnnounce line = false) (more : List Char) : isDropped (line ++ more) = false := by
  rw [isDropped, Bool.or_eq_false_iff]
  refine ⟨?_, ?_⟩
  · rw [Text.allBlank, List.all_append, ← Text.allBlank, hb, Bool.false_and]
  · by_contra h
    rw [Bool.not_eq_false] at h
    rw [mayAnnounce_of_announces hb h] at hm
    cases hm

/-- A line that is kept is not blank. -/
theorem allBlank_of_isDropped {line : List Char} (h : isDropped line = false) :
    Text.allBlank line = false :=
  (Bool.or_eq_false_iff.1 h).1

/-! ### The lines of a whole text -/

/-- A complete line that is dropped leaves no trace. -/
theorem lead_of_dropLine? {cs rest : List Char} (h : Leading.dropLine? cs = some rest)
    (more : List Char) : lead (cs ++ more) = lead (rest ++ more) := by
  simp only [Leading.dropLine?] at h
  split at h
  · rename_i line after hb
    split at h
    · rename_i hd
      cases h
      have hb' := Text.breakOn_append (List.cons_ne_nil _ _) hb more
      rw [lead, Text.lines_of_breakOn hb', List.dropWhile_cons_of_pos hd, lead]
    · cases h
  · cases h

/-- If the first line is kept, all is kept but leading white space. -/
theorem lead_of_kept {cs line : List Char} {rest : List (List Char)}
    (hl : Text.lines cs = line :: rest) (hk : isDropped line = false) :
    lead cs = Text.trimStart cs := by
  rw [lead, hl, List.dropWhile_cons_of_neg (by simp [hk]), ← hl, Text.flatten_lines]

/-- A text without a line break is a line, or empty. -/
theorem lead_of_not_mem {cs : List Char} (hn : '\n' ∉ cs) :
    lead cs = if isDropped cs then [] else Text.trimStart cs := by
  by_cases hne : cs = []
  · subst hne
    rfl
  · have hl : Text.lines cs = [cs] := by
      simpa [Text.lines] using Text.lines_append hne hn []
    split
    · rename_i hd
      rw [lead, hl, List.dropWhile_cons_of_pos hd]
      rfl
    · rename_i hd
      exact lead_of_kept hl (Bool.not_eq_true _ ▸ hd)

namespace Leading

/-- What a stage has to pass on if this text is all that follows. -/
def due : Leading → List Char → List Char
  | begun, cs => cs
  | before line, cs => lead (line ++ cs)

/-- A line that has begun has no line break yet. -/
def Unbroken : Leading → Prop
  | begun => True
  | before line => '\n' ∉ line

/-- What is held back when a line begins has no line break. -/
theorem begin_unbroken (cs : List Char) : (begin cs).2.Unbroken := by
  simp only [begin]
  split
  · trivial
  · rename_i hb
    split
    · exact Text.not_mem_of_breakOn hb
    · trivial

/-- What is passed on of a text with no complete line to drop, and what is due then. -/
theorem begin_due {cs : List Char} (h : dropLine? cs = none) (more : List Char) :
    (begin cs).1 ++ (begin cs).2.due more = lead (cs ++ more) := by
  simp only [dropLine?] at h
  simp only [begin]
  split at h
  · rename_i line rest hb
    have hk : isDropped (line ++ ['\n']) = false := by simpa using h
    have hb' := Text.breakOn_append (List.cons_ne_nil _ _) hb more
    have hcs : cs = (line ++ ['\n']) ++ rest := Text.eq_append_of_breakOn hb
    rw [lead_of_kept (Text.lines_of_breakOn hb') hk, hcs, List.append_assoc _ rest more,
      Text.trimStart_append (allBlank_of_isDropped hk)]
    simp [due]
  · rename_i hb
    have hn := Text.not_mem_of_breakOn hb
    by_cases hm : (Text.allBlank cs || mayAnnounce cs) = true
    · simp [hm, due]
    · simp only [hm]
      rw [Bool.not_eq_true, Bool.or_eq_false_iff] at hm
      -- The first line of the whole begins with `cs`, so it is kept.
      have hne : cs ≠ [] := by
        rintro rfl
        exact absurd hm.1 (by decide)
      rw [lead_of_kept (Text.lines_append hne hn more) (isDropped_append hm.1 hm.2 _),
        Text.trimStart_append hm.1]
      rfl

/-- Nor has what is held back after a line. -/
theorem feedLine_unbroken (cs : List Char) : (feedLine cs).2.Unbroken := by
  fun_induction feedLine cs with
  | case1 cs rest h ih => exact ih
  | case2 cs h => exact begin_unbroken cs

/-- Feeding a line moves text from what is due to what is passed on. -/
theorem feedLine_due (cs more : List Char) :
    (feedLine cs).1 ++ (feedLine cs).2.due more = lead (cs ++ more) := by
  fun_induction feedLine cs with
  | case1 cs rest h ih => rw [ih, lead_of_dropLine? h]
  | case2 cs h => exact begin_due h more

/-- Feeding a piece moves text from what is due to what is passed on. -/
theorem feed_due (l : Leading) (cs more : List Char) :
    (l.feed cs).1 ++ (l.feed cs).2.due more = l.due (cs ++ more) := by
  cases l with
  | begun => rfl
  | before line => rw [feed, feedLine_due, due, List.append_assoc]

/-- What is held back between two pieces has no line break. -/
theorem feed_unbroken (l : Leading) (cs : List Char) : (l.feed cs).2.Unbroken := by
  cases l with
  | begun => trivial
  | before line => exact feedLine_unbroken _

/-- What is left at the end is what is due if nothing follows. -/
theorem rest_eq_due {l : Leading} (h : l.Unbroken) : l.rest = l.due [] := by
  cases l with
  | begun => rfl
  | before line => rw [due, List.append_nil, lead_of_not_mem h, rest]

end Leading

end Archivist.Sanitize
