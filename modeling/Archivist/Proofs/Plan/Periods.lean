import Archivist.Proofs.Plan.Mention
import Mathlib.Data.List.Chain

/-!
# Periods That a Question Mentions

A text mentions periods if they stand in it with other text between them (`Mentions`). The pattern
for a mention begins with the character in front of it, so two mentions need a character between
them. The walk through the text then finds each mention once, with all the text before it and behind
it (`Period.scanFrom_mention`), and no date is written out beside them.

## Main results

* `Hints.detected_detect`: the hints of a question, and that the periods it mentions are read back.
-/

namespace Archivist

/-- The text behind a mention, with the periods that it mentions in turn. -/
inductive Continues : List Char → List WrittenPeriod → Prop where
  | last {behind : List Char} (h : Plain behind) : Continues behind []
  | next {between more : List Char} {ps : List WrittenPeriod} (p : WrittenPeriod)
      (h : Plain between) (hne : between ≠ []) (hmore : Continues more ps) :
      Continues (between ++ (p.chars ++ more)) (p :: ps)

/-- A text that mentions periods, at least one of them. -/
inductive Mentions : List Char → List WrittenPeriod → Prop where
  | intro {front more : List Char} {ps : List WrittenPeriod} (p : WrittenPeriod)
      (h : Plain front) (hmore : Continues more ps) :
      Mentions (front ++ (p.chars ++ more)) (p :: ps)

/-- Who mentions periods mentions one. -/
theorem Mentions.ne_nil {cs : List Char} {ps : List WrittenPeriod} (h : Mentions cs ps) :
    ps ≠ [] := by
  cases h
  exact List.cons_ne_nil _ _

/-! ### Walking through a text -/

namespace Text

variable {α : Type} {find : List Char → List Char → Option (α × ℕ)} {a : α}
  {c : Char} {cs before rest : List Char}

/-- The walk passes over what it has counted off. -/
theorem scanFrom_skip (find : List Char → List Char → Option (α × ℕ)) (before cs rest : List Char) :
    scanFrom find before cs.length (cs ++ rest) = scanFrom find (cs.reverse ++ before) 0 rest := by
  induction cs generalizing before with
  | nil => rfl
  | cons c cs ih =>
      rw [List.length_cons, List.cons_append, scanFrom, ih, List.reverse_cons, List.append_assoc]
      rfl

/-- The walk goes on behind what is found. -/
theorem scanFrom_of_find (hne : cs ≠ []) (h : find before (cs ++ rest) = some (a, cs.length)) :
    scanFrom find before 0 (cs ++ rest) = a :: scanFrom find (cs.reverse ++ before) 0 rest := by
  obtain ⟨c, cs, rfl⟩ := List.exists_cons_of_ne_nil hne
  rw [List.cons_append] at h ⊢
  rw [scanFrom, h]
  show a :: scanFrom find (c :: before) cs.length (cs ++ rest) = _
  rw [scanFrom_skip, List.reverse_cons, List.append_assoc]
  rfl

/-- The walk goes on by one character where nothing is found. -/
theorem scanFrom_of_none (h : find before (c :: rest) = none) :
    scanFrom find before 0 (c :: rest) = scanFrom find (c :: before) 0 rest := by
  rw [scanFrom, h]

/-- Where nothing begins, nothing is found. -/
theorem scanFrom_eq_nil (h : ∀ before part, part <:+ cs → find before part = none)
    (before : List Char) : scanFrom find before 0 cs = [] := by
  induction cs generalizing before with
  | nil => rfl
  | cons c cs ih =>
      rw [scanFrom_of_none (h before _ List.suffix_rfl)]
      exact ih (fun before part hpart => h before part (hpart.trans (List.suffix_cons c cs))) _

end Text

namespace Period

open Text

variable {cs before front more text : List Char} {p : WrittenPeriod} {ps : List WrittenPeriod}

/-- At the beginning of a text a mention is found where it is read. -/
theorem findMention_start {m : PeriodMention} (h : readMention [] cs = some m) :
    findMention [] cs = some (m, cs.length - m.after.length) := by
  rw [findMention.eq_def, if_pos rfl, h]
  rfl

/-- A mention is found one character further on, unless the text begins with one. -/
theorem findMention_cons {c : Char} (before cs : List Char) (hc : isDigit c = false)
    (hstart : before = [] → readMention [] (c :: cs) = none) :
    findMention before (c :: cs) =
      (readMention (c :: before) cs).map fun m => (m, (c :: cs).length - m.after.length) := by
  have hnone : (if before = [] then readMention [] (c :: cs) else none) = none := by
    split
    · exact hstart ‹_›
    · rfl
  rw [findMention, hnone, Option.none_or, if_neg (by rw [hc]; decide)]

/-- Nothing is found in plain text. -/
theorem findMention_of_plain (h : Plain cs) (before : List Char) :
    findMention before cs = none := by
  cases cs with
  | nil =>
      rw [findMention.eq_def, readMention_of_plain h, ite_self]
      rfl
  | cons c cs =>
      rw [findMention_cons before cs (h.isDigit c List.mem_cons_self) fun _ =>
          readMention_of_plain h [],
        readMention_of_plain (h.of_isInfix (List.suffix_cons c cs).isInfix), Option.map_none]

/-- A period that is found behind plain text comes first in the walk, which goes on behind it. -/
theorem scanFrom_of_findMention
    (h : findMention before (front ++ (p.chars ++ text)) = some (p.mention (front.reverse ++ before)
      text, (front ++ (p.chars ++ text)).length - text.length)) :
    scanFrom findMention before 0 (front ++ (p.chars ++ text)) =
      p.mention (front.reverse ++ before) text ::
        scanFrom findMention ((front ++ p.chars).reverse ++ before) 0 text := by
  rw [← List.append_assoc, List.length_append, Nat.add_sub_cancel] at h
  rw [← List.append_assoc]
  exact scanFrom_of_find (List.append_ne_nil_of_right_ne_nil _ p.chars_ne_nil) h

/-- **Each mention is found once**, with all the text before it and behind it. -/
theorem scanFrom_mention (hfront : Plain front) (hbefore : before = [] ∨ front ≠ [])
    (htext : readMonth text = none) :
    scanFrom findMention before 0 (front ++ (p.chars ++ text)) =
      p.mention (front.reverse ++ before) text ::
        scanFrom findMention ((front ++ p.chars).reverse ++ before) 0 text := by
  induction front generalizing before with
  | nil =>
      obtain rfl : before = [] := hbefore.resolve_right fun hne => hne rfl
      exact scanFrom_of_findMention
        (findMention_start (readMention_chars ⟨rfl, fun _ => rfl⟩ htext []))
  | cons c front ih =>
      -- Only at the start of the text is the mention read from here.
      by_cases hstart : before = [] ∧ Ready p (c :: front)
      · obtain ⟨rfl, hready⟩ := hstart
        exact scanFrom_of_findMention (findMention_start (readMention_chars hready htext []))
      · have hfind := findMention_cons before (front ++ (p.chars ++ text))
          (hfront.isDigit c List.mem_cons_self)
          fun hnil => readMention_front hfront (fun hready => hstart ⟨hnil, hready⟩) []
        by_cases hready : Ready p front
        · refine scanFrom_of_findMention (hfind.trans ?_)
          rw [readMention_chars hready htext, List.reverse_cons, List.append_assoc]
          rfl
        · have hne : front ≠ [] := by
            rintro rfl
            exact hready ⟨rfl, fun _ => rfl⟩
          have hplain : Plain front := hfront.of_isInfix (List.suffix_cons c front).isInfix
          rw [readMention_front hplain hready, Option.map_none] at hfind
          rw [List.cons_append, scanFrom_of_none hfind, ih hplain (.inr hne)]
          simp only [List.reverse_cons, List.cons_append, List.append_assoc, List.nil_append]

/-- What continues a text behind a mention does not make its year one that is counted from now. -/
theorem quiet_of_continues (h : Continues cs ps) : Quiet cs := by
  induction h with
  | last h => exact fun c hc => h.notMem c (mem_of_next? hc)
  | next p h _ _ ih => exact .append h.notMem (quiet_chars ih)

/-- What is mentioned next is no month of the year before it. -/
theorem readMonth_of_continues (h : Continues cs ps) : readMonth cs = none := by
  cases h with
  | last h => exact readMonth_of_undated (undated_of_plain h)
  | @next between more ps p h hne hmore =>
      by_cases hready : Ready p between
      · have hp : p.marked = false := Bool.eq_false_iff.2 fun hp => hne (hready.eq_nil hp)
        have hyear : isDigit '年' = false := by decide +kernel
        rw [readMonth, trimStart_append_of_allBlank hready.blank, WrittenPeriod.chars_append,
          WrittenPeriod.mark_of_unmarked hp, List.nil_append, trimStart_toDigits,
          readDigits_toDigits _ ('年' :: (p.monthChars ++ more)) hyear]
        split <;> rfl
      · exact readMonth_of_undated (undated_of_not_ready h hready)

/-! ### The periods of a text -/

/-- Bounds that span these periods, one by one. -/
def SpanAll (bs : List (Date × Date)) (ps : List WrittenPeriod) : Prop :=
  List.Forall₂ (fun b p => Date.Spans b.1 b.2 (WrittenPeriod.days p)) bs ps

/-- A period that is found comes first, and then what is found behind it. -/
theorem spanAll_cons (hfront : Plain front) (hbefore : Quiet before)
    (hstart : before = [] ∨ front ≠ []) (hmore : Continues more ps)
    (hrest : ∀ before, Quiet before →
      SpanAll ((scanFrom findMention before 0 more).filterMap bounds) ps) :
    SpanAll ((scanFrom findMention before 0 (front ++ (p.chars ++ more))).filterMap bounds)
      (p :: ps) := by
  have hahead := quiet_reverse_append hfront hbefore
  obtain ⟨first, last, hbounds, hspans⟩ := spans_mention p hahead (quiet_of_continues hmore)
  have hquiet : Quiet ((front ++ p.chars).reverse ++ before) := by
    rw [List.reverse_append, List.append_assoc]
    exact .append (fun c hc => notMem_of_mem_chars (List.mem_reverse.1 hc) (by decide)) hahead
  rw [scanFrom_mention hfront hstart (readMonth_of_continues hmore),
    List.filterMap_cons_some hbounds]
  exact .cons hspans (hrest _ hquiet)

/-- The periods behind a mention are found in turn, with their bounds. -/
theorem spanAll_of_continues (h : Continues cs ps) (before : List Char) (hbefore : Quiet before) :
    SpanAll ((scanFrom findMention before 0 cs).filterMap bounds) ps := by
  induction h generalizing before with
  | last h =>
      rw [scanFrom_eq_nil fun before part hpart =>
        findMention_of_plain (h.of_isInfix hpart.isInfix) before]
      exact .nil
  | next p h hfront hmore ih => exact spanAll_cons h hbefore (.inr hfront) hmore ih

/-- **The periods that are mentioned are found**, in their order. -/
theorem spanAll_mentioned (h : Mentions cs ps) : SpanAll (mentioned cs) ps := by
  cases h with
  | intro p h hmore =>
      exact spanAll_cons h (fun _ hc => nomatch hc) (.inl rfl) hmore (spanAll_of_continues hmore)

/-! ### Dates that are written out -/

/-- No digit has a separator of a date behind it. -/
def Unseparated (cs : List Char) : Prop :=
  cs.IsChain fun c d => isDigit c = true → d ∉ Date.marks

/-- A separator that is skipped is one of the two that dates have. -/
theorem mem_marks_of_skipSeparator {rest : List Char} (h : skipSeparator cs = some rest) :
    ∃ mark ∈ Date.marks, cs = mark :: rest := by
  rw [skipSeparator.eq_def] at h
  split at h
  · cases h
    exact ⟨'-', by decide, rfl⟩
  · cases h
    exact ⟨'/', by decide, rfl⟩
  · cases h

/-- Without a separator between digits no date is read. -/
theorem readLiteral_of_unseparated (h : Unseparated cs) : readLiteral cs = none := by
  rw [readLiteral]
  split
  · rfl
  · rename_i hyear
    rw [Bool.or_eq_true, not_or, decide_eq_true_iff, not_not, Bool.not_eq_true', Bool.not_eq_false,
      List.all_eq_true] at hyear
    cases hsep : skipSeparator (cs.drop 4) with
    | none => rfl
    | some rest =>
        obtain ⟨mark, hmark, hdrop⟩ := mem_marks_of_skipSeparator hsep
        have hne : cs.take 4 ≠ [] := List.ne_nil_of_length_eq_add_one hyear.1
        have hchain := h
        rw [Unseparated, ← List.take_append_drop 4 cs, hdrop, List.isChain_append] at hchain
        exact absurd hmark (hchain.2.2 _ (List.getLast?_eq_some_getLast hne) mark rfl
          (hyear.2 _ (List.getLast_mem hne)))

/-- Plain text separates no digits. -/
theorem unseparated_append (h : Plain front) (hmore : Unseparated more) :
    Unseparated (front ++ more) := by
  have hdigit : ∀ c ∈ front, ¬ isDigit c = true := fun c hc => Bool.eq_false_iff.1 (h.isDigit c hc)
  have hpairs := List.pairwise_of_forall_mem_list (l := front)
    (r := fun c d => isDigit c = true → d ∉ Date.marks)
    fun c hc d _ hd => absurd hd (hdigit c hc)
  exact hpairs.isChain.append hmore fun c hc d _ hd =>
    absurd hd (hdigit c (List.mem_of_getLast? hc))

/-- Neither does a written period. -/
theorem unseparated_chars (hmore : Unseparated more) : Unseparated (p.chars ++ more) := by
  have hpairs := List.pairwise_of_forall_mem_list (l := p.chars)
    (r := fun c d => isDigit c = true → d ∉ Date.marks)
    fun c _ d hd _ => notMem_of_mem_chars hd (by decide)
  exact hpairs.isChain.append hmore fun c hc d _ hd =>
    absurd hd (Bool.eq_false_iff.1 (getLast?_chars p c hc))

/-- Nor do the periods that continue a text. -/
theorem unseparated_of_continues (h : Continues cs ps) : Unseparated cs := by
  induction h with
  | @last behind h =>
      have hend := unseparated_append h .nil
      rwa [List.append_nil] at hend
  | next p h _ _ ih => exact unseparated_append h (unseparated_chars ih)

/-- No dates are written out beside the periods. -/
theorem literals_of_mentions (h : Mentions cs ps) : literals cs = [] := by
  cases h with
  | intro p h hmore =>
      have hparts :=
        unseparated_append h (unseparated_chars (p := p) (unseparated_of_continues hmore))
      rw [literals, scan, scanFrom_eq_nil fun _ part hpart =>
        readLiteral_of_unseparated (hparts.suffix hpart)]
      rfl

/-! ### The range of a question -/

/-- The bounds of a mention are not turned around. -/
theorem le_of_bounds {m : PeriodMention} {first last : Date} (h : bounds m = some (first, last)) :
    first ≤ last := by
  simp only [bounds] at h
  split at h
  · cases h
  · obtain ⟨year, -, h⟩ := Option.bind_eq_some_iff.1 h
    split at h
    · exact (Date.spans_of_boundsOfMonth? h).le
    · exact (Date.spans_of_boundsOfYear? h).le

/-- The range goes from the first to the last day of some periods, a date that is written out being
one by itself. -/
theorem exists_detect_eq (question : String) : ∃ bs : List (Date × Date), (∀ b ∈ bs, b.1 ≤ b.2) ∧
    detect question = ⟨Date.earliest (bs.map (·.1)), Date.latest (bs.map (·.2))⟩ := by
  rw [detect]
  split
  · refine ⟨mentioned question.toList, fun b hb => ?_, rfl⟩
    obtain ⟨m, -, hm⟩ := List.mem_filterMap.1 hb
    exact le_of_bounds hm
  · refine ⟨(literals question.toList).map fun d => (d, d), fun b hb => ?_, ?_⟩
    · obtain ⟨d, -, rfl⟩ := List.mem_map.1 hb
      exact Int.le_refl d.dayNumber
    · simp only [List.map_map, Function.comp_def, List.map_id']

/-- What is related pairwise has a partner for each. -/
theorem exists_of_forall₂ {α β : Type} {R : α → β → Prop} {as : List α} {bs : List β}
    (h : List.Forall₂ R as bs) : ∀ a ∈ as, ∃ b ∈ bs, R a b := by
  induction h with
  | nil => exact fun a ha => nomatch ha
  | cons hab _ ih =>
      rintro a (_ | ⟨_, ha⟩)
      · exact ⟨_, List.mem_cons_self, hab⟩
      · obtain ⟨b, hb, hab⟩ := ih a ha
        exact ⟨b, List.mem_cons_of_mem _ hb, hab⟩

/-- Periods that are spanned one by one are spanned by the first of the first days and the last of
the last. -/
theorem SpanAll.spans {bs : List (Date × Date)} {first last : Date} (h : SpanAll bs ps)
    (hfirst : Date.earliest (bs.map (·.1)) = some first)
    (hlast : Date.latest (bs.map (·.2)) = some last) :
    Date.Spans first last {d | ∃ p ∈ ps, d ∈ p.days} := by
  obtain ⟨hmem, hle⟩ := Date.isLeast_earliest hfirst
  obtain ⟨hmem', hle'⟩ := Date.isGreatest_latest hlast
  obtain ⟨b, hb, rfl⟩ := List.mem_map.1 hmem
  obtain ⟨b', hb', rfl⟩ := List.mem_map.1 hmem'
  have hsource := exists_of_forall₂ h.flip
  refine ⟨⟨?_, ?_⟩, ⟨?_, ?_⟩⟩
  · obtain ⟨p, hp, hspans⟩ := exists_of_forall₂ h b hb
    exact ⟨p, hp, hspans.first.1⟩
  · rintro d ⟨p, hp, hd⟩
    obtain ⟨c, hc, hspans⟩ := hsource p hp
    exact Int.le_trans (hle (List.mem_map_of_mem hc)) (hspans.first.2 hd)
  · obtain ⟨p, hp, hspans⟩ := exists_of_forall₂ h b' hb'
    exact ⟨p, hp, hspans.last.1⟩
  · rintro d ⟨p, hp, hd⟩
    obtain ⟨c, hc, hspans⟩ := hsource p hp
    exact Int.le_trans (hspans.last.2 hd) (hle' (List.mem_map_of_mem hc))

/-- The range of a question is that of the periods it mentions. -/
theorem detect_of_mentions {question : String} (h : Mentions question.toList ps) :
    ∃ first last, detect question = ⟨some first, some last⟩ ∧
      Date.Spans first last {d | ∃ p ∈ ps, d ∈ p.days} := by
  have hdetect : detect question = ⟨Date.earliest ((mentioned question.toList).map (·.1)),
      Date.latest ((mentioned question.toList).map (·.2))⟩ := by
    rw [detect, literals_of_mentions h]
    rfl
  have hmentioned := spanAll_mentioned h
  have hne : mentioned question.toList ≠ [] := by
    intro hnil
    rw [hnil, SpanAll, List.forall₂_nil_left_iff] at hmentioned
    exact h.ne_nil hmentioned
  obtain ⟨first, hfirst⟩ := Option.ne_none_iff_exists'.1 fun hnone =>
    hne (List.map_eq_nil_iff.1 (Date.earliest_eq_none_iff.1 hnone))
  obtain ⟨last, hlast⟩ := Option.ne_none_iff_exists'.1 fun hnone =>
    hne (List.map_eq_nil_iff.1 (Date.latest_eq_none_iff.1 hnone))
  exact ⟨first, last, by rw [hdetect, hfirst, hlast], hmentioned.spans hfirst hlast⟩

/-- A range has both ends or neither. -/
theorem isSome_detect (question : String) :
    (detect question).first.isSome = (detect question).last.isSome := by
  obtain ⟨bs, -, hdetect⟩ := exists_detect_eq question
  rw [hdetect]
  cases bs <;> rfl

/-- The ends of a range are in their order. -/
theorem le_detect {question : String} {first last : Date}
    (hfirst : (detect question).first = some first) (hlast : (detect question).last = some last) :
    first ≤ last := by
  obtain ⟨bs, hbs, hdetect⟩ := exists_detect_eq question
  rw [hdetect] at hfirst hlast
  obtain ⟨hmem, -⟩ := Date.isLeast_earliest hfirst
  obtain ⟨b, hb, rfl⟩ := List.mem_map.1 hmem
  exact Int.le_trans (hbs b hb) ((Date.isGreatest_latest hlast).2 (List.mem_map_of_mem hb))

end Period

/-- What is detected in a question: both ends of a range or neither, in their order, no entity, and
the first and the last day of all periods that are mentioned. -/
structure Hints.Detected (question : String) (h : Hints) : Prop where
  isSome_eq : h.dates.first.isSome = h.dates.last.isSome
  le : ∀ first last, h.dates.first = some first → h.dates.last = some last → first ≤ last
  entity : h.entity = none
  periods : ∀ ps, Mentions question.toList ps → ∃ first last,
    h.dates = ⟨some first, some last⟩ ∧ Date.Spans first last {d | ∃ p ∈ ps, d ∈ p.days}

/-- **The periods that a question mentions are read back**, and whatever it says, the range that is
detected has both its ends, in their order, or none. -/
theorem Hints.detected_detect (question : String) : Detected question (detect question) where
  isSome_eq := Period.isSome_detect question
  le _ _ := Period.le_detect
  entity := rfl
  periods _ := Period.detect_of_mentions

/-- A year without the mark of the Republic and a month with it. -/
theorem mentions_year_and_month : Mentions "112年到民國113年2月的統計".toList
    [⟨false, 112, none, by decide, by decide⟩, ⟨true, 113, some 2, by decide, by decide⟩] := by
  have hto : Plain ['到'] := by decide +kernel
  have hbehind : Plain ['的', '統', '計'] := by decide +kernel
  have htext : "112年到民國113年2月的統計".toList =
      [] ++ ((⟨false, 112, none, by decide, by decide⟩ : WrittenPeriod).chars ++
        (['到'] ++ ((⟨true, 113, some 2, by decide, by decide⟩ : WrittenPeriod).chars ++
          ['的', '統', '計']))) := by decide +kernel
  rw [htext]
  exact .intro _ (by decide +kernel)
    (.next _ hto (List.cons_ne_nil _ _) (.last hbehind))

/-- A year and a month are mentioned, and both are covered. -/
theorem Hints.detect_year_and_month :
    (detect "112年到民國113年2月的統計").dates =
        ⟨some ⟨2023, 1, 1, by decide⟩, some ⟨2024, 2, 29, by decide⟩⟩ ∧
      Date.Spans ⟨2023, 1, 1, by decide⟩ ⟨2024, 2, 29, by decide⟩
        {d | d.year = 2023 ∨ d.year = 2024 ∧ d.month = 2} := by
  have hdates : (detect "112年到民國113年2月的統計").dates =
      ⟨some ⟨2023, 1, 1, by decide⟩, some ⟨2024, 2, 29, by decide⟩⟩ := by decide +kernel
  obtain ⟨first, last, heq, hspans⟩ := (detected_detect _).periods _ mentions_year_and_month
  rw [hdates] at heq
  cases heq
  refine ⟨hdates, ?_⟩
  simpa [WrittenPeriod.days, WrittenPeriod.calendarYear] using hspans

end Archivist
