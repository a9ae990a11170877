import Archivist.Proofs.Answer.Unopened
import Archivist.Proofs.Text.Margin

/-!
# What Sanitizing Leaves

What sanitizing leaves of a text has no leading line to drop and nothing to trim, so a second
sanitizing has nothing to do with lines (`lead_trim_lead`). It may have a tag to remove. An unopened
block is removed once, and the text behind it may have another closing tag without an opening one;
and a block that is removed may leave a tag where the text in front of it and the text behind it
meet. If there is a tag, a second sanitizing removes it, and what is left is shorter.

## Main results

* `sanitizeAnswer_sanitizeAnswer_iff`: a second sanitizing changes nothing exactly if the first has
  left no tag.
* `sanitizeAnswer_leaves_tag`: a text of which it leaves one.
-/

namespace Archivist.Sanitize

variable {cs front rest behind : List Char}

/-! ### Lines and white space -/

/-- White space around a line does not decide whether it is dropped. -/
theorem isDropped_congr {line line' : List Char} (h : Text.trim line = Text.trim line') :
    isDropped line = isDropped line' := by
  rw [isDropped, isDropped, announces, announces, h, ← Text.allBlank_trim line, h,
    Text.allBlank_trim]

/-- A line goes on until it is broken. -/
theorem lineRest_of_notMem (h : '\n' ∉ cs) (more : List Char) :
    lineRest (cs ++ more) = cs ++ lineRest more := by
  by_cases hne : cs = []
  · rw [hne, List.nil_append, List.nil_append]
  · rw [lineRest, Text.lines_append hne h]
    rfl

/-- A line that is complete does not go on. -/
theorem lineRest_append_of_mem (h : '\n' ∈ cs) (more : List Char) :
    lineRest (cs ++ more) = lineRest cs := by
  obtain ⟨line, rest, rfl, hn⟩ := List.eq_append_cons_of_mem h
  rw [List.append_assoc, List.cons_append, lineRest, lineRest, Text.lines_append_break hn,
    Text.lines_append_break hn]
  rfl

/-- The rest of a line is the beginning of what is left. -/
theorem lineRest_isPrefix (cs : List Char) : lineRest cs <+: cs :=
  ⟨_, lineRest_append_tail cs⟩

/-- A part of white space at the front is white space. -/
theorem allBlank_of_isPrefix (h : front <+: cs) (hcs : Text.allBlank cs = true) :
    Text.allBlank front = true :=
  List.all_eq_true.2 fun c hc => List.all_eq_true.1 hcs c (h.mem hc)

/-- White space behind a text does not matter to its first line. -/
theorem trim_lineRest_append (h : Text.allBlank behind = true) (cs : List Char) :
    Text.trim (lineRest (cs ++ behind)) = Text.trim (lineRest cs) := by
  by_cases hmem : '\n' ∈ cs
  · rw [lineRest_append_of_mem hmem]
  · have hcs := lineRest_of_notMem hmem []
    have hrest := allBlank_of_isPrefix (lineRest_isPrefix behind) h
    rw [List.append_nil] at hcs
    rw [lineRest_of_notMem hmem, hcs, Text.trim_append_of_allBlank hrest]
    exact (congrArg Text.trim (List.append_nil cs)).symm

/-- Nor does white space in front of it, if there is more in the line. -/
theorem trim_lineRest_trimStart (h : Text.allBlank (lineRest cs) = false) :
    Text.trim (lineRest (Text.trimStart cs)) = Text.trim (lineRest cs) := by
  obtain ⟨front, rest, hfront, hrest, rfl⟩ : ∃ front rest, Text.allBlank front = true ∧
      Text.trimStart cs = rest ∧ front ++ rest = cs :=
    ⟨_, _, Text.allBlank_leading cs, rfl, List.takeWhile_append_dropWhile⟩
  have hmem : '\n' ∉ front := by
    intro hmem
    rw [lineRest_append_of_mem hmem, allBlank_of_isPrefix (lineRest_isPrefix front) hfront] at h
    cases h
  rw [hrest, lineRest_of_notMem hmem, Text.trim, Text.trim,
    Text.trimStart_append_of_allBlank hfront]

/-! ### Lines that are left -/

/-- What is left is empty, or a text whose first line is kept, without leading white space. -/
theorem lead_cases (cs : List Char) : lead cs = [] ∨
    ∃ kept, lead cs = Text.trimStart kept ∧ isDropped (lineRest kept) = false := by
  fun_induction Leading.feedLine cs with
  | case1 cs rest h ih =>
      have hlead := lead_of_dropLine? h []
      rw [List.append_nil, List.append_nil] at hlead
      rwa [hlead]
  | case2 cs h =>
      cases hd : isDropped (lineRest cs) with
      | false => exact .inr ⟨cs, lead_of_lineRest hd, hd⟩
      | true =>
          -- The first line is dropped, so it is not complete, and there is no other.
          refine .inl ?_
          rw [Leading.dropLine?] at h
          split at h
          · rename_i line rest hb
            rw [lineRest, Text.lines_of_breakOn hb] at hd
            exact absurd h (by simpa using hd)
          · rename_i hb
            have hn := Text.not_mem_of_breakOn hb
            have hline := lineRest_of_notMem hn []
            rw [List.append_nil, show lineRest [] = [] from rfl, List.append_nil] at hline
            rw [lead_of_not_mem hn, ← hline, if_pos hd]

/-- **No line is left to drop** once a text has been trimmed, too. -/
theorem lead_trim_lead (cs : List Char) :
    lead (Text.trim (lead cs)) = Text.trim (lead cs) := by
  rcases lead_cases cs with hnil | ⟨kept, hkept, hd⟩
  · rw [hnil]
    rfl
  · have hstart : Text.trimStart (lead cs) = lead cs := by
      rw [hkept, Text.trimStart_trimStart]
    have htrim : Text.trimStart (Text.trim (lead cs)) = Text.trim (lead cs) := by
      rw [Text.trim, hstart]
      exact Text.trimStart_of_prefix (Text.trimEnd_isPrefix _) hstart
    obtain ⟨behind, hbehind, happend⟩ : ∃ behind, Text.allBlank behind = true ∧
        Text.trim (lead cs) ++ behind = lead cs := by
      refine ⟨Text.trailing (lead cs), Text.allBlank_trailing _, ?_⟩
      rw [Text.trim, Text.trailing, Text.trimEnd_append_takeWhile, hstart]
    have hline : isDropped (lineRest (Text.trim (lead cs))) = false := by
      rw [← isDropped_congr (trim_lineRest_append hbehind _), happend, hkept,
        isDropped_congr (trim_lineRest_trimStart (allBlank_of_isDropped hd)), hd]
    rw [lead_of_lineRest hline, htrim]

/-- What is left lies in the text. -/
theorem trim_lead_isInfix (cs : List Char) : Text.trim (lead cs) <:+: cs := by
  obtain ⟨dropped, hd⟩ := List.dropWhile_suffix isDropped (l := Text.lines cs)
  have hsuffix : ((Text.lines cs).dropWhile isDropped).flatten <:+ cs := by
    refine ⟨dropped.flatten, ?_⟩
    rw [← List.flatten_append, hd, Text.flatten_lines]
  exact (Text.trim_isInfix _).trans ((Text.trimStart_isSuffix _).trans hsuffix).isInfix

/-! ### Tags that are left -/

/-- A tag occurs in the text. -/
def HasTag (cs : List Char) : Prop := openTag <:+: cs ∨ closeTag <:+: cs

/-- What is visible of a text is not longer than the text. -/
theorem length_visible_le (cs : List Char) : (visible cs).length ≤ cs.length := by
  fun_induction visible cs with
  | case1 cs h => exact le_rfl
  | case2 cs front block h hb =>
      rw [Text.eq_append_of_breakOn h]
      simp only [List.length_append]
      omega
  | case3 cs front block h before rest hb ih =>
      rw [Text.eq_append_of_breakOn h, Text.eq_append_of_breakOn hb]
      simp only [List.length_append]
      omega

/-- Behind the beginning of a block no more is visible than there is. -/
theorem length_afterBlock_le (cs : List Char) : (afterBlock cs).length ≤ cs.length := by
  rw [afterBlock]
  split
  · exact Nat.zero_le _
  · rename_i before rest hb
    exact (length_visible_le rest).trans (Text.length_after_lt (by simp [closeTag]) hb).le

/-- A text with a block in it is longer than what is visible of it. -/
theorem length_visible_lt (h : openTag <:+: cs) : (visible cs).length < cs.length := by
  cases hb : Text.breakOn openTag cs with
  | none => exact absurd h (Text.breakOn_eq_none_iff.1 hb)
  | some cut =>
      obtain ⟨front, block⟩ := cut
      have hafter := length_afterBlock_le block
      have hopen : openTag.length = 7 := rfl
      rw [visible_of_some hb, Text.eq_append_of_breakOn hb]
      simp only [List.length_append]
      omega

/-- A text with a tag in it loses something: an unopened block or another one. -/
theorem length_visible_dropUnopened_lt (h : HasTag cs) :
    (visible (dropUnopened cs)).length < cs.length := by
  rw [dropUnopened]
  split
  · rename_i front rest hb
    split
    · rename_i ho
      rw [Text.occurs_iff_infix] at ho
      refine length_visible_lt (ho.trans ?_)
      rw [Text.eq_append_of_breakOn hb, List.append_assoc]
      exact (List.prefix_append _ _).isInfix
    · exact (length_visible_le rest).trans_lt (Text.length_after_lt (by simp [closeTag]) hb)
  · rename_i hb
    exact length_visible_lt (h.resolve_right (Text.breakOn_eq_none_iff.1 hb))

/-- A text without tags is visible as a whole. -/
theorem visible_dropUnopened_of_not_hasTag (h : ¬ HasTag cs) : visible (dropUnopened cs) = cs := by
  rw [HasTag, not_or] at h
  rw [dropUnopened, Text.breakOn_eq_none_iff.2 h.2]
  exact visible_of_none (Text.breakOn_eq_none_iff.2 h.1)

/-- What is left of an answer: what comes before an unopened tag goes first, then the blocks, then
the words that lead in. -/
theorem toList_sanitizeAnswer (text : String) : (sanitizeAnswer text).toList =
    Text.trim (lead (visible (dropUnopened text.toList))) := by
  rw [sanitizeAnswer_eq, String.toList_ofList]

/-- A text with a tag in it is longer than what sanitizing leaves of it. -/
theorem length_sanitizeAnswer_lt {text : String} (h : HasTag text.toList) :
    (sanitizeAnswer text).toList.length < text.toList.length := by
  rw [toList_sanitizeAnswer]
  exact (trim_lead_isInfix _).length_le.trans_lt (length_visible_dropUnopened_lt h)

/-- **A second sanitizing changes nothing** exactly if the first has left no tag. It leaves none of
a text of which no tag is visible. -/
theorem sanitizeAnswer_sanitizeAnswer_iff (text : String) :
    (sanitizeAnswer (sanitizeAnswer text) = sanitizeAnswer text ↔
      ¬ HasTag (sanitizeAnswer text).toList) ∧
    (¬ HasTag (visible (dropUnopened text.toList)) →
      sanitizeAnswer (sanitizeAnswer text) = sanitizeAnswer text) := by
  have hiff : sanitizeAnswer (sanitizeAnswer text) = sanitizeAnswer text ↔
      ¬ HasTag (sanitizeAnswer text).toList := by
    constructor
    · intro heq htag
      have hlt := length_sanitizeAnswer_lt htag
      rw [heq] at hlt
      exact absurd hlt (Nat.lt_irrefl _)
    · intro hno
      rw [← String.toList_inj, toList_sanitizeAnswer, visible_dropUnopened_of_not_hasTag hno,
        toList_sanitizeAnswer, lead_trim_lead, Text.trim_trim]
  refine ⟨hiff, fun hno => hiff.2 fun htag => hno ?_⟩
  rw [toList_sanitizeAnswer] at htag
  exact htag.imp (·.trans (trim_lead_isInfix _)) (·.trans (trim_lead_isInfix _))

/-- **A tag is left** of a text with two closing tags that were never opened, and a second
sanitizing removes it. -/
theorem sanitizeAnswer_leaves_tag :
    sanitizeAnswer "先看甲案</think>再看乙案</think>結論：採甲案" = "再看乙案</think>結論：採甲案" ∧
      sanitizeAnswer (sanitizeAnswer "先看甲案</think>再看乙案</think>結論：採甲案") =
        "結論：採甲案" := by
  decide +kernel

/-- A block that is removed may leave a tag, too. -/
example : sanitizeAnswer "<thi<think>嗯</think>nk>共 3 筆" = "<think>共 3 筆" := by decide +kernel

end Archivist.Sanitize
