import Archivist.Embedding.Similarity
import Archivist.Proofs.Store.Search
import Archivist.Proofs.Text.Margin
import Archivist.Proofs.Text.Mark
import Archivist.Ranking.Coverage

/-!
# Keywords That Are Found

Keyword search and keyword coverage both look for a term regardless of case, but only one of the two
takes white space off the term first. The other asks for it in the text as well: a text that a
keyword covers altogether holds the keyword exactly if it has the same white space around it
(`Record.holds_iff_of_covered`). So a search for the trimmed keyword finds every document that the
keyword covers, and a search for the keyword as it stands may miss some
(`Record.keywordHits_of_covered`).
-/

/-! ### Texts that are covered

A single term covers a text altogether exactly if it counts and occurs in the text as it is folded,
that is, without the white space around it and in lower case (`Coverage.score_eq_one_iff`). Scores
are rounded, but not so much that a part of the weight could pass for the whole.
-/

namespace Archivist

namespace Coverage

variable {k text : String}

/-- What a single term earns, of its weight. -/
theorem score_singleton {α : Type} [Scalar α] (k text : String) :
    (score [k] text : α) =
      if isEffective (foldTerm k) then
        Scalar.clampUnit ((if Text.occurs (foldTerm k) (Text.lower text.toList) then
            Scalar.ofNat 0 + weight (foldTerm k).length
          else if sharesBigram (foldTerm k) (Text.lower text.toList) then
            Scalar.ofNat 0 + weight (foldTerm k).length * 0.7
          else Scalar.ofNat 0) / (Scalar.ofNat 0 + weight (foldTerm k).length))
      else Scalar.ofNat 0 := by
  rw [score, List.map_singleton]
  cases heffective : isEffective (foldTerm k) with
  | false => simp [heffective]
  | true =>
      cases hoccurs : Text.occurs (foldTerm k) (Text.lower text.toList) <;>
        cases hshares : sharesBigram (foldTerm k) (Text.lower text.toList) <;>
        simp [totals, earned, heffective, hoccurs, hshares]

/-- The whole weight is the whole, the part for a pair of neighbours is not, and nothing is not. -/
theorem shares_of_weight : ∀ n ∈ [2, 3, 4, 5, 6],
    Scalar.clampUnit ((Scalar.ofNat 0 + weight n) / (Scalar.ofNat 0 + weight n)) = (1 : Score) ∧
      Scalar.clampUnit ((Scalar.ofNat 0 + weight n * 0.7) / (Scalar.ofNat 0 + weight n)) ≠
        (1 : Score) ∧
      Scalar.clampUnit (Scalar.ofNat 0 / (Scalar.ofNat 0 + weight n)) ≠ (1 : Score) := by
  decide +kernel

/-- The weight of a term that counts is one of five. -/
theorem weight_eq_of_isEffective {term : List Char} (h : isEffective term = true) :
    ∃ n ∈ [2, 3, 4, 5, 6], (weight term.length : Score) = weight n := by
  rw [isEffective, Bool.and_eq_true, decide_eq_true_eq] at h
  refine ⟨min term.length lengthCap, ?_, ?_⟩
  · simp only [lengthCap, List.mem_cons, List.not_mem_nil, or_false]
    omega
  · rw [weight, weight, min_assoc, min_self]

/-- **A single term covers a text** altogether if it counts and occurs in it, and not otherwise. -/
theorem score_eq_one_iff : (score [k] text : Score) = 1 ↔
    isEffective (foldTerm k) = true ∧ foldTerm k <:+: Text.lower text.toList := by
  rw [score_singleton, ← Text.occurs_iff_infix]
  cases heffective : isEffective (foldTerm k) with
  | false =>
      have hzero : (Scalar.ofNat 0 : Score) ≠ 1 := by decide +kernel
      rw [if_neg Bool.false_ne_true]
      exact iff_of_false hzero fun h => Bool.false_ne_true h.1
  | true =>
      obtain ⟨n, hn, hweight⟩ := weight_eq_of_isEffective heffective
      obtain ⟨hwhole, hpart, hnothing⟩ := shares_of_weight n hn
      rw [hweight, if_pos rfl, and_iff_right rfl]
      cases Text.occurs (foldTerm k) (Text.lower text.toList) with
      | true => exact iff_of_true hwhole rfl
      | false =>
          refine iff_of_false ?_ Bool.noConfusion
          cases sharesBigram (foldTerm k) (Text.lower text.toList) with
          | true => exact hpart
          | false => exact hnothing

end Coverage

variable {r : Record} {k : String}

/-! ### Searches for one keyword -/

/-- A search for one keyword that may come to a record: the corpus holds it, the filter lets it
pass, and the limit leaves room for all that is found. -/
structure Corpus.Reaches (c : Corpus) (filter : DocumentFilter) (limit : ℕ) (k : String)
    (r : Record) : Prop where
  mem : r ∈ c.documents.map (·.record)
  admits : filter.admits r = true
  keywords : filter.keywords = [k]
  room : (c.documents.countP fun s => filter.finds s.record) ≤ limit

namespace Record

/-- A record is hit by a keyword that it holds. -/
theorem keywordHits_singleton_iff : r.keywordHits [k] = 1 ↔ r.Holds k := by
  have hle : r.keywordHits [k] ≤ 1 := List.countP_le_length
  have hpos : 0 < r.keywordHits [k] ↔ r.Holds k := by
    rw [keywordHits_pos_iff]
    simp only [List.mem_singleton, exists_eq_left]
  rw [← hpos]
  omega

/-- A search for one keyword finds what holds it. -/
theorem mem_keywordSearch_iff {c : Corpus} {filter : DocumentFilter} {limit : ℕ}
    (h : c.Reaches filter limit k r) : r ∈ c.keywordSearch filter limit ↔ r.Holds k := by
  rw [Corpus.mem_keywordSearch_iff h.room, and_iff_right h.mem, DocumentFilter.finds_iff,
    and_iff_right h.admits, h.keywords]
  simp only [ne_eq, List.cons_ne_nil, not_false_eq_true, true_imp_iff, List.mem_singleton,
    exists_eq_left]

/-! ### Keywords that cover a text -/

/-- A term that counts is not blank. -/
theorem blank_eq_false_of_isEffective (h : Coverage.isEffective (Coverage.foldTerm k) = true) :
    Text.blank k = false := by
  rw [Bool.eq_false_iff]
  intro hblank
  rw [Coverage.foldTerm, Text.trim, Text.trimStart_of_allBlank hblank] at h
  cases h

/-- **A text that a keyword covers holds the keyword** if it has the same white space around it. -/
theorem holds_iff_of_covered (h : (Coverage.score [k] r.text : Score) = 1) :
    r.Holds k ↔ Text.leading k.toList ++ (Coverage.foldTerm k ++ Text.trailing k.toList) <:+:
      Text.lower r.text.toList := by
  obtain ⟨heffective, -⟩ := Coverage.score_eq_one_iff.1 h
  rw [Holds, and_iff_right (blank_eq_false_of_isEffective heffective), Text.occurs_iff_infix,
    Text.lower_eq k.toList, Coverage.foldTerm]

/-- A text that a keyword covers holds the trimmed keyword. -/
theorem holds_trimmed_of_covered (h : (Coverage.score [k] r.text : Score) = 1) :
    r.Holds (Text.trimmed k) := by
  obtain ⟨heffective, hinfix⟩ := Coverage.score_eq_one_iff.1 h
  have hlist : (Text.trimmed k).toList = Text.trim k.toList := String.toList_ofList
  have hfold : Coverage.foldTerm (Text.trimmed k) = Coverage.foldTerm k := by
    rw [Coverage.foldTerm, Coverage.foldTerm, hlist, Text.trim_trim]
  constructor
  · rw [← hfold] at heffective
    exact blank_eq_false_of_isEffective heffective
  · rw [Text.occurs_iff_infix, hlist, ← Coverage.foldTerm]
    exact hinfix

/-- **What keyword search makes of a keyword that covers a record.** The trimmed keyword counts as
present, and a search for it finds the record. The keyword as it stands counts exactly if the text
has the same white space around it, and then alone a search for it finds the record. -/
theorem keywordHits_of_covered (h : (Coverage.score [k] r.text : Score) = 1) :
    (r.keywordHits [Text.trimmed k] = 1 ∧ ∀ (c : Corpus) filter limit,
        c.Reaches filter limit (Text.trimmed k) r → r ∈ c.keywordSearch filter limit) ∧
      (r.keywordHits [k] = 1 ↔
        Text.leading k.toList ++ (Coverage.foldTerm k ++ Text.trailing k.toList) <:+:
          Text.lower r.text.toList) ∧
      ∀ (c : Corpus) filter limit, c.Reaches filter limit k r →
        (r ∈ c.keywordSearch filter limit ↔
          Text.leading k.toList ++ (Coverage.foldTerm k ++ Text.trailing k.toList) <:+:
            Text.lower r.text.toList) := by
  have htrimmed := holds_trimmed_of_covered h
  have hholds := holds_iff_of_covered h
  refine ⟨⟨keywordHits_singleton_iff.2 htrimmed, ?_⟩, keywordHits_singleton_iff.trans hholds, ?_⟩
  · intro c filter limit hreaches
    exact (mem_keywordSearch_iff hreaches).2 htrimmed
  · intro c filter limit hreaches
    exact (mem_keywordSearch_iff hreaches).trans hholds

/-- A document with a blank before what is looked for. -/
def roadNotice : Record := ⟨"N-1", [("subject", "修繕 道路")]⟩

/-- A corpus of this document. -/
def noticeBoard : Corpus := { documents := [⟨roadNotice, none⟩] }

/-- The keyword is found with the blank in front of it. -/
theorem keywordHits_roadNotice : (Coverage.score [" 道路"] roadNotice.text : Score) = 1 ∧
    roadNotice.keywordHits [" 道路"] = 1 ∧
    roadNotice ∈ noticeBoard.keywordSearch { keywords := [" 道路"] } 10 := by
  have hcovered : (Coverage.score [" 道路"] roadNotice.text : Score) = 1 := by decide +kernel
  have hinfix : Text.leading " 道路".toList ++
      (Coverage.foldTerm " 道路" ++ Text.trailing " 道路".toList) <:+:
        Text.lower roadNotice.text.toList := by
    rw [← Text.occurs_iff_infix]
    decide +kernel
  have hreaches : noticeBoard.Reaches { keywords := [" 道路"] } 10 " 道路" roadNotice :=
    ⟨List.mem_singleton.2 rfl, rfl, rfl, by decide +kernel⟩
  obtain ⟨-, hhits, hsearch⟩ := keywordHits_of_covered hcovered
  exact ⟨hcovered, hhits.2 hinfix, (hsearch _ _ _ hreaches).2 hinfix⟩

/-- With a blank behind it, the keyword covers the document and is not found in it. -/
theorem covered_not_found : (Coverage.score ["道路 "] roadNotice.text : Score) = 1 ∧
    roadNotice.keywordHits ["道路 "] = 0 ∧
    noticeBoard.keywordSearch { keywords := ["道路 "] } 10 = [] := by
  decide +kernel

end Record

end Archivist
