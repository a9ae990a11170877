import Archivist.Plan.Reader
import Archivist.Proofs.Json.Objects
import Archivist.Proofs.Text.Mark
import Archivist.Proofs.Text.Trim

/-!
# Plans within Other Text

A plan is read from an answer by three readings, and the first that gives a plan counts. Around the
text of a plan an earlier reading could come upon another plan: the fenced block that is found may
begin or end within a string. It does not. What begins with the plan's brace and is read holds the
whole of the plan and nothing but white space behind it (`IsText.exists_space`), because the scanner
finds one object there. So a reading that gives a plan gives the right one.

## Main results

* `firstOf_append_cons`: a reading counts if none before it gives another plan.
* `read_embedded`: the plan is read from white space, from a fenced block and from other text.
-/

namespace Archivist.Plan

open Scan Json Json.Grammar Text

variable {cs front behind part : List Char} {p q : Plan}

/-- A reading counts if none before it gives another plan. -/
theorem firstOf_append_cons (before : List (List Char → Except PlanFault Plan))
    {after : List (List Char → Except PlanFault Plan)} {reading : List Char → Except PlanFault Plan}
    (hbefore : ∀ r ∈ before, ∀ q, r cs = .ok q → q = p) (h : reading cs = .ok p)
    (fault : PlanFault) : firstOf cs fault (before ++ reading :: after) = .ok p := by
  induction before generalizing fault with
  | nil => simp only [List.nil_append, firstOf, h]
  | cons r before ih =>
      simp only [List.cons_append, firstOf]
      split
      · rename_i q hq
        rw [hbefore r List.mem_cons_self q hq]
      · exact ih (fun r' hr' => hbefore r' (List.mem_cons_of_mem r hr')) _

/-- Without a fence there is no fenced block. -/
theorem readFenced_of_not_infix (h : ¬ fence <:+: cs) : readFenced cs = .error .noObject := by
  have hfence : breakOn fence cs = none := breakOn_eq_none_iff.2 h
  rw [readFenced, fenced?, hfence]
  rfl

/-! ### The text of a plan -/

/-- A plan that is decoded is JSON. -/
theorem exists_of_decode (h : decode cs = .ok p) : ∃ v, readChars? cs = some v := by
  simp only [decode] at h
  split at h
  · cases h
  · exact ⟨_, ‹_›⟩

/-- The text of a plan: it begins and ends with a brace and is read as it stands. -/
structure IsText (p : Plan) (cs : List Char) : Prop where
  head : cs.head? = some '\x7b'
  last : cs.getLast? = some '\x7d'
  direct : readDirect cs = .ok p

namespace IsText

/-- The text of a plan is not empty. -/
theorem ne_nil (h : IsText p cs) : cs ≠ [] := by
  rintro rfl
  cases h.head

/-- The text of a plan does not begin with white space. -/
theorem isBlank_head (h : IsText p cs) : cs.head?.any isBlank = false := by
  rw [h.head]
  rfl

/-- Nor does it end with white space. -/
theorem isBlank_last (h : IsText p cs) : cs.getLast?.any isBlank = false := by
  rw [h.last]
  rfl

/-- Nor does it if other text follows. -/
theorem isBlank_head_append (h : IsText p cs) (behind : List Char) :
    (cs ++ behind).head?.any isBlank = false := by
  rw [List.head?_append_of_ne_nil _ h.ne_nil]
  exact h.isBlank_head

/-- Trimming the text around a plan leaves the plan. -/
theorem trim_around (h : IsText p cs) (front behind : List Char) :
    trim (front ++ cs ++ behind) = trimStart front ++ cs ++ trimEnd behind :=
  trim_append_append h.ne_nil h.isBlank_head h.isBlank_last

/-- Trimming leaves a plan in front as it is. -/
theorem trim_append (h : IsText p cs) (behind : List Char) :
    trim (cs ++ behind) = cs ++ trimEnd behind := h.trim_around [] behind

/-- The text of a plan is decoded. -/
theorem decode_eq (h : IsText p cs) : decode cs = .ok p := by
  have htrim : trim cs = cs := by simpa [trimEnd, dropEndWhile] using h.trim_append []
  have hread := h.direct
  rwa [readDirect, htrim, decodeObject, if_pos h.head] at hread

/-- The text of a plan is an object, braces and all. -/
theorem isObject (h : IsText p cs) : IsObject (nesting - 1) cs :=
  let ⟨_, hv⟩ := exists_of_decode h.decode_eq
  isObject_of_getLast? hv h.head h.last

end IsText

/-- An object that is read nests less deep than the scanner can count. -/
theorem span_of_isObject (h : IsObject (nesting - 1) cs) (most : ℕ) : Span most cs := by
  have hspan := h.span Spelling.chars most (by simp only [nesting]; omega)
  rwa [Spelling.text_chars] at hspan

/-! ### Other texts that are read -/

/-- What JSON takes for white space is white space. -/
theorem isBlank_of_isSpace {c : Char} (h : isSpace c = true) : isBlank c = true := by
  simp only [isSpace, Bool.or_eq_true, decide_eq_true_eq] at h
  rcases h with ((rfl | rfl) | rfl) | rfl <;> rfl

namespace IsText

/-- **What begins like the text and is read** is the text with white space behind it. -/
theorem exists_space (h : IsText p cs) (hpart : part <+: cs ++ behind)
    (hhead : part.head? = some '\x7b') (hq : decode part = .ok q) :
    ∃ space, part = cs ++ space ∧ allBlank space = true := by
  obtain ⟨v, hv⟩ := exists_of_decode hq
  obtain ⟨text, space, rfl, htext, hspace⟩ := isObject_of_readChars? hv hhead
  obtain ⟨rest, hrest⟩ := hpart
  rw [List.append_assoc] at hrest
  have hne : text ≠ [] := by
    obtain ⟨body, rfl⟩ := htext.eq_cons
    exact List.cons_ne_nil _ _
  have hspan := span_of_isObject h.isObject (max cs.length text.length)
  have heq : cs = text := hspan.eq_of_append_eq (span_of_isObject htext _) h.ne_nil hne
    (le_max_left _ _) (le_max_right _ _) hrest.symm
  exact ⟨space, by rw [heq], List.all_eq_true.2 fun c hc => isBlank_of_isSpace (hspace c hc)⟩

/-- A trimmed text that begins like the text of a plan is read as this plan, if as any. -/
theorem eq_of_decodeObject (h : IsText p cs) (hpart : part <+: cs ++ behind)
    (htrim : trim part = part) (hq : decodeObject part = .ok q) : q = p := by
  simp only [decodeObject] at hq
  split at hq
  · rename_i hhead
    obtain ⟨space, rfl, hspace⟩ := h.exists_space hpart hhead hq
    rw [h.trim_append, trimEnd_of_allBlank hspace, List.append_nil] at htrim
    rw [← htrim, h.decode_eq] at hq
    exact (Except.ok.inj hq).symm
  · cases hq

/-! ### The three readings -/

/-- Read as a whole, a text with the plan in it begins with the plan or is refused. -/
theorem eq_of_readDirect (h : IsText p cs) (hf : '\x7b' ∉ front)
    (htrim : trim (front ++ cs ++ behind) = front ++ cs ++ behind)
    (hq : readDirect (front ++ cs ++ behind) = .ok q) : q = p := by
  rw [readDirect, htrim] at hq
  cases front with
  | nil => exact h.eq_of_decodeObject List.prefix_rfl htrim hq
  | cons c front =>
      have hc : (c :: front ++ cs ++ behind).head? ≠ some '\x7b' := by
        rintro ⟨⟩
        exact hf List.mem_cons_self
      rw [decodeObject, if_neg hc] at hq
      cases hq

/-- The first object is the plan. -/
theorem readBalanced_around (h : IsText p cs) (hf : '\x7b' ∉ front) (behind : List Char) :
    readBalanced (front ++ cs ++ behind) = .ok p := by
  rw [readBalanced, firstObject?_append hf (span_of_isObject h.isObject _) h.head le_rfl]
  exact h.decode_eq

/-- What follows the opening fence, without the word that names the language. -/
theorem trimStart_tag (h : IsText p cs) (behind : List Char) :
    trimStart (("json\n".toList ++ (cs ++ behind)).dropWhile Char.isAlpha) = cs ++ behind := by
  have htag : ("json\n".toList ++ (cs ++ behind)).dropWhile Char.isAlpha =
      ['\n'] ++ (cs ++ behind) := by
    rfl
  rw [htag, trimStart_append_of_head (h.isBlank_head_append behind)]
  rfl

/-- The first fenced block holds the plan, or the beginning of it if there is a fence in a
string. -/
theorem prefix_of_fenced? (h : IsText p cs) (hf : Char.ofNat 0x60 ∉ front)
    (hpart : fenced? (front ++ (fence ++ ("json\n".toList ++ (cs ++ '\n' :: (fence ++ behind))))) =
      some part) : part <+: cs ++ ['\n'] ∧ trim part = part := by
  rw [fenced?, breakOn_append_of_notMem rfl hf] at hpart
  simp only [Option.bind_eq_bind, Option.bind_some, h.trimStart_tag,
    Option.bind_eq_some_iff] at hpart
  obtain ⟨⟨body, rest⟩, hbody, hpart⟩ := hpart
  cases hpart
  have hsplit : cs ++ '\n' :: (fence ++ behind) = cs ++ ['\n'] ++ (fence ++ behind) := by simp
  rw [hsplit] at hbody
  -- A fence follows the plan, so the block ends there at the latest.
  have hle : body.length ≤ (cs ++ ['\n']).length :=
    length_le_of_breakOn hbody (by rw [List.drop_left]; exact List.prefix_append fence behind)
  have hwhole : body <+: cs ++ ['\n'] ++ (fence ++ behind) := by
    rw [eq_append_of_breakOn hbody, List.append_assoc]
    exact List.prefix_append body _
  have hpre : body <+: cs ++ ['\n'] :=
    List.prefix_of_prefix_length_le hwhole (List.prefix_append _ _) hle
  exact ⟨trim_isPrefix hpre (h.isBlank_head_append ['\n']), trim_trim body⟩

/-- Read as a fenced block, the plan is found or none is. -/
theorem eq_of_readFenced (h : IsText p cs) (hf : Char.ofNat 0x60 ∉ front)
    (hq : readFenced (front ++ "```json\n".toList ++ cs ++ ("\n```".toList ++ behind)) = .ok q) :
    q = p := by
  have hsplit : front ++ "```json\n".toList ++ cs ++ ("\n```".toList ++ behind) =
      front ++ (fence ++ ("json\n".toList ++ (cs ++ '\n' :: (fence ++ behind)))) := by
    simp [fence]
  rw [readFenced, hsplit] at hq
  split at hq
  · rename_i part hpart
    obtain ⟨hpre, htrim⟩ := h.prefix_of_fenced? hf hpart
    exact h.eq_of_decodeObject hpre htrim hq
  · cases hq

/-! ### The plan is read -/

/-- The plan is read wherever the fenced reading gives no other one. -/
theorem read_around {output : String} (h : IsText p cs) (hf : '\x7b' ∉ front)
    (houtput : output.toList = front ++ cs ++ behind)
    (hfenced : ∀ q, readFenced (trimStart front ++ cs ++ trimEnd behind) = .ok q → q = p) :
    read output = .ok p := by
  have htrim := h.trim_around front behind
  have hf' : '\x7b' ∉ trimStart front := fun hmem => hf ((trimStart_isSuffix front).subset hmem)
  have hne : trimStart front ++ cs ++ trimEnd behind ≠ [] := by
    simp [h.ne_nil]
  have hdirect : ∀ q, readDirect (trimStart front ++ cs ++ trimEnd behind) = .ok q → q = p :=
    fun q => h.eq_of_readDirect hf' (by rw [← htrim, trim_trim])
  rw [read, houtput, htrim, if_neg hne]
  refine firstOf_append_cons [readDirect, readFenced] ?_ (h.readBalanced_around hf' _) _
  simp only [List.forall_mem_cons]
  exact ⟨hdirect, hfenced, fun _ hr => nomatch hr⟩

end IsText

/-- **A plan is read out of the text around it.** White space may surround it, or it stands in a
fenced block in front of which no back quote and no brace is, whatever its strings hold, or no brace
comes before it and there is no fence anywhere. -/
theorem read_embedded (s : String) (p : Plan) (hhead : s.toList.head? = some '\x7b')
    (hlast : s.toList.getLast? = some '\x7d') (hs : readDirect s.toList = .ok p) :
    (∀ before after, blank before → blank after → read (before ++ s ++ after) = .ok p) ∧
    (∀ before after : String, Char.ofNat 0x60 ∉ before.toList → '\x7b' ∉ before.toList →
      read (before ++ "```json\n" ++ s ++ "\n```" ++ after) = .ok p) ∧
    ∀ before after : String, '\x7b' ∉ before.toList →
      contains (before ++ s ++ after) "```" = false → read (before ++ s ++ after) = .ok p := by
  have h : IsText p s.toList := ⟨hhead, hlast, hs⟩
  refine ⟨fun before after hbefore hafter => ?_, fun before after hquote hbrace => ?_,
    fun before after hbrace hfence => ?_⟩
  · rw [read, String.toList_append, String.toList_append, h.trim_around,
      trimStart_of_allBlank hbefore, trimEnd_of_allBlank hafter, List.nil_append, List.append_nil,
      if_neg h.ne_nil]
    exact firstOf_append_cons [] (fun _ hr => nomatch hr) hs _
  · have houtput : (before ++ "```json\n" ++ s ++ "\n```" ++ after).toList =
        (before.toList ++ "```json\n".toList) ++ s.toList ++ ("\n```".toList ++ after.toList) := by
      simp
    refine h.read_around ?_ houtput fun q hq => ?_
    · simpa using hbrace
    · rw [trimStart_append_of_head (by decide), trimEnd_append_of_getLast (by decide)] at hq
      exact h.eq_of_readFenced (fun hmem => hquote ((trimStart_isSuffix _).subset hmem)) hq
  · have houtput : (before ++ s ++ after).toList = before.toList ++ s.toList ++ after.toList := by
      simp
    refine h.read_around hbrace houtput fun q hq => ?_
    rw [← h.trim_around, readFenced_of_not_infix] at hq
    · cases hq
    · intro hin
      have hwhole := occurs_iff_infix.2 (hin.trans (trim_isInfix _))
      rw [contains, String.toList_append, String.toList_append] at hfence
      exact absurd hwhole (by rw [fence]; simpa using hfence)

/-- A plan may be a reasoning alone. -/
theorem readDirect_reasoning {reasoning : String} (htrim : trim cs = cs)
    (hhead : cs.head? = some '\x7b')
    (hcs : readChars? cs = some (.obj [("reasoning", .str reasoning)])) :
    readDirect cs = .ok { reasoning, calls := [] } := by
  have hsorted : (Json.obj [("reasoning", .str reasoning)]).canonical =
      .obj [("reasoning", .str reasoning)] := by cbv
  have hplan : ofJson (.obj [("reasoning", .str reasoning)]) = .ok { reasoning, calls := [] } := rfl
  simp only [readDirect, htrim, decodeObject, if_pos hhead, decode, hcs, hsorted, hplan]
  rfl

/-- A plan with another one in a string, between fences, is read from white space and from a fenced
block; and a plan with a brace in a string is read from the text around it. -/
theorem read_embedded_quoted :
    (read ("\n " ++ "\x7b\"reasoning\": \"``` \x7b\x7d ```\"\x7d" ++ "\t") =
        .ok { reasoning := "``` \x7b\x7d ```", calls := [] } ∧
      read ("計畫：\n" ++ "```json\n" ++ "\x7b\"reasoning\": \"``` \x7b\x7d ```\"\x7d" ++ "\n```" ++
          "以上 \x7b\x7d") =
        .ok { reasoning := "``` \x7b\x7d ```", calls := [] }) ∧
    read ("計畫\x7d " ++ "\x7b\"reasoning\": \"\x7d\\\"\"\x7d" ++ " \x7b\x7d") =
      .ok { reasoning := "\x7d\"", calls := [] } := by
  have hfence := read_embedded "\x7b\"reasoning\": \"``` \x7b\x7d ```\"\x7d"
    { reasoning := "``` \x7b\x7d ```", calls := [] } (by decide) (by decide)
    (readDirect_reasoning (by decide) (by decide) (by cbv))
  have hbrace := read_embedded "\x7b\"reasoning\": \"\x7d\\\"\"\x7d"
    { reasoning := "\x7d\"", calls := [] } (by decide) (by decide)
    (readDirect_reasoning (by decide) (by decide) (by cbv))
  refine ⟨⟨?_, ?_⟩, ?_⟩
  · exact hfence.1 _ _ (by decide) (by decide)
  · exact hfence.2.1 _ _ (by decide) (by decide)
  · exact hbrace.2.2 _ _ (by decide) (by decide)

end Archivist.Plan
