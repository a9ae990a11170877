import Archivist.Proofs.Answer.Pieces
import Archivist.Proofs.Text.Trim
import Mathlib.Tactic.IntervalCases

/-!
# Closing Tags That Were Never Opened

A whole answer is sanitized with one rule more than an answer in pieces: in front of a closing tag
that comes before any opening one everything is a block, and so is the tag. An answer in pieces has
passed that text on long before the tag arrives. So a reader of the stream sees text that a reader
of the whole answer does not.

The two agree exactly if there is no such tag, or if its line and all lines before it are dropped as
leading lines, and what the tag has behind it in its line is dropped as well.

## Main results

* `trimmed_passedOn_iff`: when an answer in pieces is what the whole answer is.
* `trimmed_passedOn_unopened`: an answer for which it is not.
-/

namespace Archivist.Sanitize

/-- The whole answer is passed on like a single piece, once the unopened block is gone. -/
theorem sanitizeAnswer_eq (text : String) :
    sanitizeAnswer text =
      String.ofList (Text.trim (lead (visible (dropUnopened text.toList)))) := by
  have h := toList_passedOn [String.ofList (dropUnopened text.toList)]
  simp only [String.join_cons, String.join_nil, String.append_empty, String.toList_ofList] at h
  rw [← h]
  simp [sanitizeAnswer, passedOn, Sanitizer.pushAll, Text.trimmed]

/-- What is passed on, trimmed. -/
theorem trimmed_passedOn (pieces : List String) :
    Text.trimmed (passedOn pieces) =
      String.ofList (Text.trim (lead (visible (String.join pieces).toList))) := by
  rw [Text.trimmed, toList_passedOn]

/-! ### An unopened closing tag is visible -/

/-- No opening tag begins within a closing one. -/
theorem not_prefix_drop_closeTag {i : ℕ} (hi : i < closeTag.length) (more : List Char) :
    ¬ openTag <+: closeTag.drop i ++ more := by
  have hi' : i < 8 := hi
  interval_cases i <;> simp [openTag, closeTag]

/-- No opening tag begins in front of a closing one and ends within it. -/
theorem not_drop_prefix_closeTag {k : ℕ} (h0 : 0 < k) (hk : k < openTag.length)
    (more : List Char) : ¬ openTag.drop k <+: closeTag ++ more := by
  have hk' : k < 7 := hk
  interval_cases k <;> simp [openTag, closeTag]

/-- In front of an unopened closing tag, and in the tag, everything is visible. -/
theorem visible_unopened {front : List Char} (h : ¬ openTag <:+: front) (rest : List Char) :
    visible (front ++ closeTag ++ rest) = front ++ closeTag ++ visible rest := by
  refine visible_append_left fun i hi hp => ?_
  rcases Nat.lt_or_ge i front.length with hlt | hge
  · rw [List.drop_append_of_le_length hlt.le, List.append_assoc] at hp
    rcases Text.prefix_append_cases hp with hin | ⟨k, hk, heq, hrest⟩
    · exact h (hin.isInfix.trans (List.drop_suffix i front).isInfix)
    · have hpos : 0 < k := by
        have := congrArg List.length heq
        rw [List.length_drop, List.length_take] at this
        omega
      exact not_drop_prefix_closeTag hpos hk rest hrest
  · rw [List.drop_append, List.drop_eq_nil_of_le hge, List.nil_append] at hp
    rw [List.length_append] at hi
    exact not_prefix_drop_closeTag (by omega) rest hp

/-! ### The line of the tag -/

/-- Dropping stops at the first element that is kept. -/
theorem suffix_dropWhile {α : Type} {p : α → Bool} {xs : List α} {y : α}
    (h : ∃ x ∈ xs ++ [y], p x = false) (ys : List α) : y :: ys <:+ (xs ++ y :: ys).dropWhile p := by
  induction xs with
  | nil =>
      obtain ⟨x, hx, hp⟩ := h
      rw [List.nil_append, List.mem_singleton] at hx
      rw [List.nil_append, List.dropWhile_cons_of_neg (by simp [← hx, hp])]
  | cons x xs ih =>
      rw [List.cons_append, List.dropWhile_cons]
      split
      · rename_i hx
        refine ih ?_
        obtain ⟨z, hz, hp⟩ := h
        rcases List.mem_cons.1 hz with rfl | hz
        · rw [hx] at hp
          cases hp
        · exact ⟨z, hz, hp⟩
      · exact (List.suffix_append xs (y :: ys)).trans (List.suffix_cons x _)

/-- If all lines up to some point are dropped, what is left is what is left behind it. -/
theorem lead_of_all_dropped {cs : List Char} {front rest : List (List Char)}
    (hl : Text.lines cs = front ++ rest) (h : ∀ l ∈ front, isDropped l = true) :
    lead cs = Text.trimStart (rest.dropWhile isDropped).flatten := by
  rw [lead, hl, List.dropWhile_append_of_pos h]

/-- If a line up to some point is kept, all lines from that point on are left. -/
theorem le_solid_lead {cs line : List Char} {front rest : List (List Char)}
    (hl : Text.lines cs = front ++ line :: rest)
    (h : ∃ l ∈ front ++ [line], isDropped l = false) :
    Text.solid line + Text.solid rest.flatten ≤ Text.solid (lead cs) := by
  obtain ⟨dropped, hd⟩ := suffix_dropWhile h rest
  rw [lead, Text.solid_trimStart, hl, ← hd]
  simp

/-- Dropping lines leaves no more than there is. -/
theorem solid_dropWhile_le (ls : List (List Char)) :
    Text.solid (ls.dropWhile isDropped).flatten ≤ Text.solid ls.flatten := by
  obtain ⟨dropped, hd⟩ := List.dropWhile_suffix isDropped (l := ls)
  conv_rhs => rw [← hd]
  rw [List.flatten_append, Text.solid_append]
  exact Nat.le_add_left _ _

/-- Dropping words that lead in takes characters away. -/
theorem solid_lead_le (cs : List Char) : Text.solid (lead cs) ≤ Text.solid cs :=
  calc Text.solid (lead cs)
      = Text.solid ((Text.lines cs).dropWhile isDropped).flatten := Text.solid_trimStart _
    _ ≤ Text.solid (Text.lines cs).flatten := solid_dropWhile_le _
    _ = Text.solid cs := by rw [Text.flatten_lines]

/-- The text that follows a tag in its line. -/
def lineRest (cs : List Char) : List Char := (Text.lines cs).headD []

/-- A line and the lines behind it are the text. -/
theorem lineRest_append_tail (cs : List Char) :
    lineRest cs ++ (Text.lines cs).tail.flatten = cs := by
  have h := Text.flatten_lines cs
  simp only [lineRest]
  cases hl : Text.lines cs with
  | nil => rwa [hl] at h
  | cons line rest => rwa [hl] at h

/-- A text whose first line is kept loses only leading white space. -/
theorem lead_of_lineRest {cs : List Char} (h : isDropped (lineRest cs) = false) :
    lead cs = Text.trimStart cs := by
  simp only [lineRest] at h
  cases hl : Text.lines cs with
  | nil =>
      rw [hl] at h
      cases h
  | cons line rest =>
      rw [hl] at h
      exact lead_of_kept hl h

/-- A first line that is dropped leaves no trace. -/
theorem lead_of_dropped {cs : List Char} (h : isDropped (lineRest cs) = true) :
    lead cs = Text.trimStart ((Text.lines cs).tail.dropWhile isDropped).flatten := by
  simp only [lineRest] at h
  rw [lead]
  cases hl : Text.lines cs with
  | nil => rfl
  | cons line rest =>
      rw [hl, List.headD_cons] at h
      rw [List.dropWhile_cons_of_pos h]
      rfl

/-- The rest of a line is at most a line. -/
theorem lines_lineRest (cs : List Char) :
    (Text.lines (lineRest cs)).headD [] = lineRest cs ∧ (Text.lines (lineRest cs)).tail = [] := by
  simp only [lineRest]
  cases hl : Text.lines cs with
  | nil => exact ⟨rfl, rfl⟩
  | cons line rest =>
      rw [List.headD_cons, Text.lines_of_mem (hl ▸ List.mem_cons_self)]
      exact ⟨rfl, rfl⟩

/-- The lines of a text with a tag in it: those before the tag's line, that line and those behind
it. -/
theorem exists_lines_tagged (front : List Char) :
    ∃ (complete : List (List Char)) (begun : List Char), ∀ rest,
      Text.lines (front ++ closeTag ++ rest) =
        complete ++ (begun ++ closeTag ++ lineRest rest) :: (Text.lines rest).tail := by
  obtain ⟨complete, begun, rfl, hn, hall⟩ := Text.exists_complete_append front
  refine ⟨Text.lines complete, begun, fun rest => ?_⟩
  have hn' : '\n' ∉ begun ++ closeTag := by
    rw [List.mem_append, not_or]
    exact ⟨hn, by decide⟩
  rw [List.append_assoc complete, List.append_assoc complete, hall,
    Text.lines_append (by simp [closeTag]) hn']
  rfl

/-- Two texts, one without what the other has in front, are the same after trimming exactly if all
that one of them has in front is dropped. -/
theorem trim_lead_unopened_iff (front rest : List Char) :
    Text.trim (lead (front ++ closeTag ++ rest)) = Text.trim (lead rest) ↔
      (∀ l ∈ Text.lines (front ++ closeTag ++ lineRest rest), isDropped l = true) ∧
        isDropped (lineRest rest) = true := by
  obtain ⟨complete, begun, hlines⟩ := exists_lines_tagged front
  have hfirst : Text.lines (front ++ closeTag ++ lineRest rest) =
      complete ++ [begun ++ closeTag ++ lineRest rest] := by
    have h := lines_lineRest rest
    rw [hlines, h.2, lineRest, h.1]
  have hrest : Text.solid (lineRest rest) + Text.solid (Text.lines rest).tail.flatten =
      Text.solid rest := by
    rw [← Text.solid_append, lineRest_append_tail]
  rw [hfirst]
  constructor
  · intro heq
    have hsolid := congrArg Text.solid heq
    rw [Text.solid_trim, Text.solid_trim] at hsolid
    -- A line that is kept before the tag ends leaves the tag, which `lead rest` does not have.
    have hall : ∀ l ∈ complete ++ [begun ++ closeTag ++ lineRest rest], isDropped l = true := by
      by_contra hex
      simp only [not_forall, exists_prop, Bool.not_eq_true] at hex
      have hle := le_solid_lead (hlines rest) hex
      have htag : Text.solid closeTag = 8 := by decide
      have := solid_lead_le rest
      simp only [Text.solid_append] at hle
      omega
    refine ⟨hall, ?_⟩
    -- Text behind the tag in its line goes with that line, and stays without it.
    by_contra hk
    rw [Bool.not_eq_true] at hk
    have hpos := Text.solid_pos (allBlank_of_isDropped hk)
    have hwhole : Text.solid (lead (front ++ closeTag ++ rest)) ≤
        Text.solid (Text.lines rest).tail.flatten := by
      rw [lead_of_all_dropped (by rw [hlines, List.append_cons]) hall, Text.solid_trimStart]
      exact solid_dropWhile_le _
    rw [lead_of_lineRest hk, Text.solid_trimStart] at hsolid
    omega
  · rintro ⟨hall, hd⟩
    rw [lead_of_all_dropped (by rw [hlines, List.append_cons]) hall, lead_of_dropped hd]

/-! ### The two ways to sanitize -/

/-- **An answer in pieces is what the whole answer is** exactly if there is no closing tag before an
opening one, or if the lines up to the one with the tag are dropped anyway, and what that line has
behind the tag is dropped too. -/
theorem trimmed_passedOn_iff (pieces : List String) :
    Text.trimmed (passedOn pieces) = sanitizeAnswer (String.join pieces) ↔
      ∀ front rest, Text.breakOn closeTag (String.join pieces).toList = some (front, rest) →
        Text.occurs openTag front = false →
          (∀ l ∈ Text.lines (front ++ closeTag ++ lineRest (visible rest)), isDropped l = true) ∧
            isDropped (lineRest (visible rest)) = true := by
  rw [trimmed_passedOn, sanitizeAnswer_eq, String.ofList_inj, dropUnopened]
  cases hb : Text.breakOn closeTag (String.join pieces).toList with
  | none => exact iff_of_true rfl fun front rest h => nomatch h
  | some cut =>
      obtain ⟨front, rest⟩ := cut
      dsimp only
      cases ho : Text.occurs openTag front with
      | true =>
          refine iff_of_true rfl fun front' rest' h ho' => ?_
          cases h
          rw [ho] at ho'
          cases ho'
      | false =>
          have hin : ¬ openTag <:+: front := by
            rw [← Text.occurs_iff_infix, ho]
            exact Bool.false_ne_true
          rw [if_neg Bool.false_ne_true, Text.eq_append_of_breakOn hb, visible_unopened hin,
            trim_lead_unopened_iff]
          constructor
          · intro h front' rest' heq _
            cases heq
            exact h
          · exact fun h => h front rest rfl ho

/-- **A stream shows what the whole answer does not**: here it shows the block in front of the tag,
and the tag. -/
theorem trimmed_passedOn_unopened :
    Text.trimmed (passedOn ["推理過程</think>結論：無資料"]) = "推理過程</think>結論：無資料" ∧
      sanitizeAnswer (String.join ["推理過程</think>結論：無資料"]) = "結論：無資料" := by
  decide +kernel

end Archivist.Sanitize
