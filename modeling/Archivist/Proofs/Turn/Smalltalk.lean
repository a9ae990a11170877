import Archivist.Proofs.Text.Ideograph
import Archivist.Proofs.Text.Trim
import Archivist.Turn.Smalltalk

/-!
# Small Talk and Words of the Trade

A message is looked at without its ends and in lower case. The words of the trade are words of
ideographs, so they stand in that form exactly where they stand in the message
(`hasBusinessKeyword_normalize`); and no fixed phrase holds one. So fixed phrases may be looked for
first, and a word of the trade still makes any message a question.

## Main results

* `normalize_around`: white space in front, and white space and punctuation behind, do not count.
* `classify_precedence`: which messages are questions because of a word of the trade, and which are
  small talk.
-/

namespace Archivist.Smalltalk

open Text

variable {front cs behind part : List Char} {k : String}

/-! ### The form in which a message is looked at -/

/-- The marks that may end a message. -/
theorem endMarks_eq :
    endMarks = ['!', '！', '。', '.', '~', '～', '?', '？', ',', '，', '、', '…'] :=
  String.toList_ofList

/-- What does not count at the end of a message. -/
def endsMessage (c : Char) : Bool := isBlank c || c ∈ endMarks

/-- White space at the end is dropped with all else that does not count there. -/
theorem normalize_eq (cs : List Char) :
    normalize cs = lower (dropEndWhile endsMessage (trimStart cs)) := by
  have hblank : ∀ c, isBlank c = true → endsMessage c = true := fun c hc => by
    rw [endsMessage, hc, Bool.true_or]
  exact congrArg lower (dropEndWhile_dropEndWhile_of_imp hblank)

/-- **What stands around a message and does not count** does not change its normal form. -/
theorem normalize_around (hfront : ∀ c ∈ front, isBlank c = true)
    (hbehind : ∀ c ∈ behind, isBlank c = true ∨ c ∈ endMarks) :
    normalize (front ++ cs ++ behind) = normalize cs := by
  have hends : ∀ c ∈ behind, endsMessage c = true := by
    simpa [endsMessage] using hbehind
  have hdropped : dropEndWhile endsMessage (trimStart (cs ++ behind)) =
      dropEndWhile endsMessage (trimStart cs) := by
    cases hcs : allBlank cs with
    | false => rw [trimStart_append hcs, dropEndWhile_append_of_all hends]
    | true =>
        -- Nothing but white space and marks is left.
        have hmarks : dropEndWhile endsMessage ([] ++ trimStart behind) = [] :=
          dropEndWhile_append_of_all fun c hc => hends c ((trimStart_isSuffix behind).subset hc)
        rw [trimStart_append_of_allBlank hcs, trimStart_of_allBlank hcs]
        exact hmarks
  rw [normalize_eq, normalize_eq, List.append_assoc,
    trimStart_append_of_allBlank (List.all_eq_true.2 hfront), hdropped]

/-! ### Words of the trade -/

/-- The words of business are words of ideographs. -/
theorem isIdeographic_of_mem (hk : k ∈ businessKeywords) : IsIdeographic k.toList := by
  have hall : ∀ k ∈ businessKeywords, k.toList ≠ [] ∧ ∀ c ∈ k.toList, isIdeograph c = true := by
    simp [businessKeywords, isIdeograph]
  exact ⟨(hall k hk).1, (hall k hk).2⟩

/-- No ideograph ends a message. -/
theorem endsMessage_of_isIdeograph {c : Char} (hc : isIdeograph c = true) :
    endsMessage c = false := by
  have hmarks : ∀ c ∈ endMarks, isIdeograph c = false := by simp [endMarks_eq, isIdeograph]
  rw [endsMessage, isBlank_of_isIdeograph hc, Bool.false_or, decide_eq_false_iff_not]
  exact fun hmem => Bool.eq_false_iff.1 (hmarks c hmem) hc

/-- **A message and its normal form hold the same words of ideographs.** -/
theorem occurs_normalize (h : IsIdeographic part) :
    occurs part (normalize cs) = occurs part cs := by
  have hblank : ∀ c ∈ part, isBlank c = false := fun c hc => isBlank_of_isIdeograph (h.all c hc)
  have hends : ∀ c ∈ part, endsMessage c = false := fun c hc =>
    endsMessage_of_isIdeograph (h.all c hc)
  rw [Bool.eq_iff_iff, occurs_iff_infix, occurs_iff_infix, normalize_eq, h.infix_lower_iff,
    infix_dropEndWhile_iff h.ne_nil hends]
  exact infix_dropWhile_iff h.ne_nil hblank

/-- A message is about business if one of the words occurs in it. -/
theorem hasBusinessKeyword_iff :
    hasBusinessKeyword cs = true ↔ ∃ k ∈ businessKeywords, occurs k.toList cs = true :=
  List.any_eq_true

/-- Making a message plain does not decide whether it is about business. -/
theorem hasBusinessKeyword_normalize (cs : List Char) :
    hasBusinessKeyword (normalize cs) = hasBusinessKeyword cs := by
  rw [Bool.eq_iff_iff, hasBusinessKeyword_iff, hasBusinessKeyword_iff]
  exact exists_congr fun k => and_congr_right fun hk => by
    rw [occurs_normalize (isIdeographic_of_mem hk)]

/-- No fixed phrase holds a word of the trade. -/
theorem hasBusinessKeyword_of_mem_phrases {phrase : String × Kind} (h : phrase ∈ phrases) :
    hasBusinessKeyword phrase.1.toList = false := by
  have hall : ∀ phrase ∈ phrases, hasBusinessKeyword phrase.1.toList = false := by decide +kernel
  exact hall phrase h

/-! ### Decisions -/

/-- A message about business is no phrase of small talk. -/
theorem find?_phrases_of_hasBusinessKeyword (h : hasBusinessKeyword cs = true) :
    (phrases.find? fun (p, _) => p.toList = cs) = none := by
  rw [List.find?_eq_none]
  intro phrase hphrase heq
  have hno := hasBusinessKeyword_of_mem_phrases hphrase
  rw [of_decide_eq_true heq] at hno
  exact Bool.eq_false_iff.1 hno h

/-- A word of the trade makes a message a question. -/
theorem classifyNormal_of_hasBusinessKeyword (h : hasBusinessKeyword cs = true) :
    classifyNormal cs = { rule := .businessKeyword, kind := none } := by
  have hne : cs ≠ [] := by
    rintro rfl
    exact absurd h (by decide +kernel)
  rw [classifyNormal, if_neg hne, find?_phrases_of_hasBusinessKeyword h]
  exact if_pos h

/-- A short message begins with a greeting. -/
theorem isSome_greeting?_iff :
    (if cs.length ≤ maxGreeting then greeting? cs else none).isSome = true ↔
      cs.length ≤ maxGreeting ∧ ∃ g ∈ greetings, g.1.toList <+: cs := by
  by_cases hshort : cs.length ≤ maxGreeting
  · rw [if_pos hshort, greeting?, Option.isSome_map, List.find?_isSome]
    simp only [List.isPrefixOf_iff_prefix, hshort, true_and]
  · rw [if_neg hshort]
    exact iff_of_false Bool.false_ne_true fun h => hshort h.1

/-- Without a word of the trade, fixed phrases, short greetings and very short messages are small
talk. -/
theorem isSmalltalk_classifyNormal_iff (h : hasBusinessKeyword cs = false) :
    (classifyNormal cs).isSmalltalk = true ↔
      (∃ phrase ∈ phrases, phrase.1.toList = cs) ∨ cs.length ≤ maxShort ∨
        cs.length ≤ maxGreeting ∧ ∃ g ∈ greetings, g.1.toList <+: cs := by
  rw [classifyNormal]
  by_cases hnil : cs = []
  · rw [if_pos hnil, hnil]
    exact iff_of_true rfl (.inr (.inl (Nat.zero_le _)))
  rw [if_neg hnil, ← isSome_greeting?_iff]
  cases hfind : phrases.find? fun (p, _) => p.toList = cs with
  | some phrase =>
      have heq := List.find?_some hfind
      exact iff_of_true rfl
        (.inl ⟨phrase, List.mem_of_find?_eq_some hfind, of_decide_eq_true heq⟩)
  | none =>
      have hno : ¬ ∃ phrase ∈ phrases, phrase.1.toList = cs := by
        rintro ⟨phrase, hphrase, heq⟩
        exact List.find?_eq_none.1 hfind phrase hphrase (decide_eq_true heq)
      rw [or_iff_right hno]
      simp only [h, if_false, Bool.false_eq_true]
      cases hgreeting : if cs.length ≤ maxGreeting then greeting? cs else none with
      | some kind => exact iff_of_true rfl (.inr rfl)
      | none =>
          by_cases hshort : cs.length ≤ maxShort
          · simp only [if_pos hshort]
            exact iff_of_true rfl (.inl hshort)
          · simp only [if_neg hshort]
            exact iff_of_false Bool.false_ne_true fun hor => hor.elim hshort Bool.false_ne_true

/-- **Which messages are looked up and which are small talk.** A message that holds a word of the
trade is a question for this reason. A message is small talk if and only if it holds none, and its
normal form is a fixed phrase, or very short, or short with a greeting in front. White space in
front of the message, and white space and punctuation behind it, change nothing. -/
theorem classify_precedence (message : String) :
    (∀ k ∈ businessKeywords, contains message k = true →
      classify message = { rule := .businessKeyword, kind := none }) ∧
    ((classify message).isSmalltalk = true ↔
      (∀ k ∈ businessKeywords, contains message k = false) ∧
      ((∃ phrase ∈ phrases, phrase.1.toList = normalize message.toList) ∨
        (normalize message.toList).length ≤ maxShort ∨
        (normalize message.toList).length ≤ maxGreeting ∧
          ∃ g ∈ greetings, g.1.toList <+: normalize message.toList)) ∧
    ∀ front behind : String, (∀ c ∈ front.toList, isBlank c = true) →
      (∀ c ∈ behind.toList, isBlank c = true ∨ c ∈ endMarks) →
      classify (front ++ message ++ behind) = classify message := by
  have hkeyword : hasBusinessKeyword (normalize message.toList) = true →
      classify message = { rule := .businessKeyword, kind := none } :=
    classifyNormal_of_hasBusinessKeyword
  have hsmalltalk : hasBusinessKeyword (normalize message.toList) = false →
      ((classify message).isSmalltalk = true ↔ _) := isSmalltalk_classifyNormal_iff
  rw [hasBusinessKeyword_normalize] at hkeyword hsmalltalk
  refine ⟨fun k hk hcontains => hkeyword (hasBusinessKeyword_iff.2 ⟨k, hk, hcontains⟩), ?_,
    fun front behind hfront hbehind => ?_⟩
  · cases hholds : hasBusinessKeyword message.toList with
    | true =>
        obtain ⟨k, hk, hcontains⟩ := hasBusinessKeyword_iff.1 hholds
        rw [hkeyword hholds]
        exact iff_of_false Bool.false_ne_true fun h =>
          Bool.eq_false_iff.1 (h.1 k hk) hcontains
    | false =>
        have hnone : ∀ k ∈ businessKeywords, contains message k = false := fun k hk =>
          Bool.eq_false_iff.2 (List.any_eq_false.1 hholds k hk)
        exact (hsmalltalk hholds).trans (and_iff_right hnone).symm
  · rw [classify, String.toList_append, String.toList_append, normalize_around hfront hbehind,
      classify]

/-- A question that begins with a greeting is a question. -/
theorem classify_early_question :
    classify (" " ++ "早安，幫我查公文" ++ "！？ ") = { rule := .businessKeyword, kind := none } := by
  obtain ⟨hkeyword, -, haround⟩ := classify_precedence "早安，幫我查公文"
  rw [haround " " "！？ " (by simp [isBlank]) (by simp [isBlank, endMarks_eq])]
  exact hkeyword "公文" List.mem_cons_self (by simp [contains, occurs])

end Archivist.Smalltalk
