import Archivist.Expansion
import Archivist.Proofs.Order.Stable
import Archivist.Proofs.Text.Lower
import Archivist.Proofs.Text.Trim

/-!
# Lists of Terms

Terms are collected in lists in which none comes twice. The dictionary compares them without the
white space around them and regardless of case, so a list has a term in some spelling (`SpelledIn`).
Search terms are compared as they are, once they are trimmed, and blank ones are passed over. Either
way a list is put together by adding one term after the other, and what comes of it is the first of
each, in order (`foldl_addTerm`, `foldl_pushTerm`).
-/

namespace Archivist

variable {term other : String} {terms more names : List String}

/-! ### Spellings -/

/-- Terms are compared without the white space around them. -/
theorem foldTerm_trimmed (term : String) : foldTerm (Text.trimmed term) = foldTerm term := by
  rw [foldTerm, foldTerm, Text.trimmed_trimmed]

/-- Nothing is left to compare of blank terms, and of no others. -/
theorem foldTerm_eq_empty_iff : foldTerm term = "" ↔ Text.blank term = true := by
  rw [foldTerm, Text.lowered, ← Text.trimmed_eq_empty_iff, String.ofList_eq_empty_iff,
    Text.lower_eq_nil_iff, String.toList_eq_nil_iff]

/-- Terms that compare equal are blank together. -/
theorem blank_congr (h : foldTerm term = foldTerm other) : Text.blank term = Text.blank other := by
  rw [Bool.eq_iff_iff, ← foldTerm_eq_empty_iff, h, foldTerm_eq_empty_iff]

/-- The list has the term, in some spelling. -/
def SpelledIn (term : String) (terms : List String) : Prop :=
  ∃ spelling ∈ terms, foldTerm spelling = foldTerm term

instance : Decidable (SpelledIn term terms) :=
  inferInstanceAs (Decidable (∃ spelling ∈ terms, foldTerm spelling = foldTerm term))

/-- A term is spelled like itself. -/
theorem spelledIn_of_mem (h : term ∈ terms) : SpelledIn term terms := ⟨term, h, rfl⟩

/-! ### Terms of the dictionary -/

/-- A term is added unless it is there in some spelling. -/
theorem addTerm_eq (terms : List String) (term : String) : addTerm terms term =
    if foldTerm term ∈ terms.map foldTerm then terms else terms ++ [term] := by
  rw [addTerm]
  refine if_congr ?_ rfl rfl
  simp only [List.any_eq_true, decide_eq_true_eq, List.mem_map]

/-- **Terms of the dictionary are added in their first spellings.** -/
theorem foldl_addTerm (terms names : List String) : terms.foldl addTerm names =
    names ++ firstOfEach foldTerm (names.map foldTerm) terms :=
  foldl_eq_append_firstOfEach addTerm_eq terms names

/-- The first spellings are spellings of all terms. -/
theorem spelledIn_firstOfEach_iff :
    SpelledIn term (firstOfEach foldTerm [] terms) ↔ SpelledIn term terms := by
  constructor
  · rintro ⟨spelling, hmem, heq⟩
    exact ⟨spelling, mem_of_mem_firstOfEach hmem, heq⟩
  · rintro ⟨spelling, hmem, heq⟩
    obtain ⟨first, hfirst, hsame⟩ : ∃ first ∈ firstOfEach foldTerm [] terms,
        foldTerm first = foldTerm spelling := exists_mem_firstOfEach hmem List.not_mem_nil
    exact ⟨first, hfirst, hsame.trans heq⟩

/-! ### Search terms -/

/-- The terms, each trimmed, without the blank ones. -/
def trimmedTerms (terms : List String) : List String := (terms.map Text.trimmed).filter (· ≠ "")

/-- The terms that are left when they are trimmed and blank ones are left out. -/
theorem mem_trimmedTerms_iff :
    term ∈ trimmedTerms terms ↔ (∃ raw ∈ terms, Text.trimmed raw = term) ∧ term ≠ "" := by
  rw [trimmedTerms, List.mem_filter, List.mem_map, decide_eq_true_eq]

/-- The terms, trimmed, without blank ones and repetitions; each stays where it comes first. -/
def distinctTerms (terms : List String) : List String := firstOfEach id [] (trimmedTerms terms)

/-- A term is pushed trimmed, unless it is blank or there. -/
theorem pushTerm_eq (names : List String) (term : String) : pushTerm names term =
    if Text.trimmed term ≠ "" then
      if Text.trimmed term ∈ names then names else names ++ [Text.trimmed term]
    else names := by
  by_cases hblank : Text.trimmed term = "" <;> simp [pushTerm, hblank]

/-- **Search terms are added as they are when trimmed**, unless they are blank or there. -/
theorem foldl_pushTerm (terms names : List String) :
    terms.foldl pushTerm names = names ++ firstOfEach id names (trimmedTerms terms) := by
  have hadd : (trimmedTerms terms).foldl
      (fun names term => if term ∈ names then names else names ++ [term]) names =
        names ++ firstOfEach id (names.map id) (trimmedTerms terms) :=
    foldl_eq_append_firstOfEach (fun names term => by rw [List.map_id, id]) _ _
  rw [List.map_id, trimmedTerms, List.foldl_filter, List.foldl_map] at hadd
  rw [trimmedTerms, ← hadd, funext₂ pushTerm_eq]
  simp only [decide_eq_true_eq]

/-- Terms that are pushed from nothing are the distinct ones. -/
theorem foldl_pushTerm_nil (terms : List String) :
    terms.foldl pushTerm [] = distinctTerms terms := by
  rw [foldl_pushTerm, List.nil_append, distinctTerms]

/-- Terms that are added to collected ones are as good as terms that follow them. -/
theorem foldl_pushTerm_distinctTerms (terms more : List String) :
    more.foldl pushTerm (distinctTerms terms) = distinctTerms (terms ++ more) := by
  rw [← foldl_pushTerm_nil, ← foldl_pushTerm_nil, List.foldl_append]

/-- What is collected first stays in front. -/
theorem distinctTerms_isPrefix (terms more : List String) :
    distinctTerms terms <+: distinctTerms (terms ++ more) := by
  rw [← foldl_pushTerm_distinctTerms, foldl_pushTerm]
  exact List.prefix_append _ _

/-- A term is among the distinct ones if it is among the trimmed ones. -/
theorem mem_distinctTerms_iff : term ∈ distinctTerms terms ↔ term ∈ trimmedTerms terms := by
  refine ⟨mem_of_mem_firstOfEach, fun h => ?_⟩
  obtain ⟨first, hfirst, rfl⟩ :
      ∃ first ∈ firstOfEach id [] (trimmedTerms terms), id first = id term :=
    exists_mem_firstOfEach h List.not_mem_nil
  exact hfirst

/-- Pushing terms takes none away. -/
theorem mem_foldl_pushTerm (h : term ∈ names) (terms : List String) :
    term ∈ terms.foldl pushTerm names := by
  rw [foldl_pushTerm]
  exact List.mem_append_left _ h

/-- Nothing comes of pushing blank terms upon nothing, and only of that. -/
theorem foldl_pushTerm_eq_nil_iff (terms names : List String) :
    terms.foldl pushTerm names = [] ↔ names = [] ∧ ∀ term ∈ terms, Text.trimmed term = "" := by
  rw [foldl_pushTerm, List.append_eq_nil_iff]
  constructor
  · rintro ⟨rfl, hnil⟩
    refine ⟨rfl, fun term hterm => by_contra fun hne => ?_⟩
    have hmem : Text.trimmed term ∈ distinctTerms terms :=
      mem_distinctTerms_iff.2 (mem_trimmedTerms_iff.2 ⟨⟨term, hterm, rfl⟩, hne⟩)
    rw [distinctTerms, hnil] at hmem
    cases hmem
  · rintro ⟨rfl, hblank⟩
    refine ⟨rfl, List.eq_nil_iff_forall_not_mem.2 fun term hterm => ?_⟩
    obtain ⟨⟨raw, hraw, rfl⟩, hne⟩ := mem_trimmedTerms_iff.1 (mem_of_mem_firstOfEach hterm)
    exact hne (hblank raw hraw)

/-! ### Clean terms -/

/-- The terms are trimmed, not blank, and none comes twice. -/
structure CleanTerms (terms : List String) : Prop where
  nodup : terms.Nodup
  trimmed : ∀ term ∈ terms, Text.trimmed term = term
  ne_empty : ∀ term ∈ terms, term ≠ ""

namespace CleanTerms

/-- No terms are clean. -/
theorem nil : CleanTerms [] := ⟨List.nodup_nil, List.forall_mem_nil _, List.forall_mem_nil _⟩

/-- A term that is new, trimmed and not blank may be added. -/
theorem append_singleton (h : CleanTerms terms) (hnew : term ∉ terms)
    (htrimmed : Text.trimmed term = term) (hne : term ≠ "") : CleanTerms (terms ++ [term]) where
  nodup := (List.perm_append_singleton _ _).nodup_iff.2 (List.nodup_cons.2 ⟨hnew, h.nodup⟩)
  trimmed := by
    rw [List.forall_mem_append, List.forall_mem_singleton]
    exact ⟨h.trimmed, htrimmed⟩
  ne_empty := by
    rw [List.forall_mem_append, List.forall_mem_singleton]
    exact ⟨h.ne_empty, hne⟩

/-- Pushing keeps terms clean. -/
theorem pushTerm (h : CleanTerms terms) (term : String) : CleanTerms (pushTerm terms term) := by
  simp only [Archivist.pushTerm]
  split_ifs with hskip
  · exact h
  · rw [Bool.or_eq_true, decide_eq_true_iff, decide_eq_true_iff, not_or] at hskip
    exact h.append_singleton hskip.2 (Text.trimmed_trimmed term) hskip.1

/-- Terms that are added to clean ones leave them clean. -/
theorem foldl_pushTerm (h : CleanTerms names) (terms : List String) :
    CleanTerms (terms.foldl Archivist.pushTerm names) := by
  induction terms generalizing names with
  | nil => exact h
  | cons term rest ih => exact ih (h.pushTerm term)

end CleanTerms

/-- Distinct terms are clean. -/
theorem cleanTerms_distinctTerms (terms : List String) : CleanTerms (distinctTerms terms) :=
  foldl_pushTerm_nil terms ▸ CleanTerms.nil.foldl_pushTerm terms

/-- Clean terms are taken as they are. -/
theorem foldl_pushTerm_of_clean (h : CleanTerms (names ++ terms)) :
    terms.foldl pushTerm names = names ++ terms := by
  have hterms : trimmedTerms terms = terms := by
    have htrimmed : terms.map Text.trimmed = terms.map id :=
      List.map_congr_left fun term hterm => h.trimmed term (List.mem_append_right _ hterm)
    rw [trimmedTerms, htrimmed, List.map_id, List.filter_eq_self]
    exact fun term hterm => decide_eq_true (h.ne_empty term (List.mem_append_right _ hterm))
  obtain ⟨-, hnodup, hnew⟩ := List.nodup_append.1 h.nodup
  rw [foldl_pushTerm, hterms, firstOfEach_eq_self (by rwa [List.map_id])]
  exact fun term hterm hmem => hnew term hmem term hterm rfl

/-- A clean term that is there is not pushed again. -/
theorem CleanTerms.pushTerm_of_mem (h : CleanTerms terms) (hterm : term ∈ terms) :
    Archivist.pushTerm terms term = terms := by
  simp only [Archivist.pushTerm, h.trimmed term hterm, hterm, decide_true, Bool.or_true, if_true]

/-- A clean term is the first of a list as it is. -/
theorem CleanTerms.pushTerm_nil (h : CleanTerms [term]) : Archivist.pushTerm [] term = [term] := by
  have hfold : [term].foldl Archivist.pushTerm [] = [] ++ [term] := foldl_pushTerm_of_clean h
  rwa [List.foldl_cons, List.foldl_nil, List.nil_append] at hfold

end Archivist
