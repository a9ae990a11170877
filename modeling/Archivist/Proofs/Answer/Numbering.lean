import Archivist.Answer.Synthesis
import Archivist.Screen.Printer
import Mathlib.Algebra.GroupWithZero.Nat
import Mathlib.Data.List.Induction

/-!
# Documents That Are Shown

The language model is shown documents by number, a listener is given citations, and the screen lists
them by number. The three are made apart from each other: documents and citations are picked from
the results one by one, and the documents are numbered as long as they fit into the budget.

They agree all the same. The citations are those of the documents, one by one
(`Synthesis.citations_eq_map`); the documents that are shown are the first of them, numbered from 1
(`Context.exists_build`). `Synthesis.Aligned` is what this comes to for a prompt.

The budget is for the characters of the documents, each as it is shown, and the documents are as
many as it allows (`Context.exists_build_eq`). The text of the context has two line breaks more
between any two of them, which nothing counts: it is within the budget if these happen to be, too
(`Context.size_text_of_parts`), and `Context.text_beyond_budget` shows a text that is not. As no
document is shown with fewer than four characters, the text is never longer than one and a half
budgets (`Context.build_spec`).
-/

namespace Archivist

/-- What is picked by a key that a map keeps is the same before the map as after it. -/
theorem map_firstOfEach {α β κ : Type} [DecidableEq κ] (key : β → κ) (f : α → β) (seen : List κ)
    (xs : List α) :
    (firstOfEach (fun x => key (f x)) seen xs).map f = firstOfEach key seen (xs.map f) := by
  induction xs generalizing seen with
  | nil => rfl
  | cons x xs ih =>
      rw [firstOfEach, List.map_cons, firstOfEach]
      by_cases h : key (f x) ∈ seen
      · rw [if_pos h, if_pos h, ih]
      · rw [if_neg h, if_neg h, List.map_cons, ih]

/-- Joined texts have as many characters as the texts and what stands between them. -/
theorem Text.size_joined (mark : String) (parts : List String) :
    size (joined mark parts) = (parts.map size).sum + size mark * (parts.length - 1) := by
  induction parts with
  | nil => rfl
  | cons part parts ih =>
      cases parts with
      | nil => simp [joined, size]
      | cons next parts =>
          have hstep : joined mark (part :: next :: parts) =
              part ++ mark ++ joined mark (next :: parts) := String.intercalate_cons_cons
          have hsize : size (joined mark (part :: next :: parts)) =
              size part + size mark + size (joined mark (next :: parts)) := by
            rw [hstep]
            simp only [size, String.toList_append, List.length_append]
          rw [hsize, ih]
          simp only [List.map_cons, List.sum_cons, List.length_cons, Nat.add_sub_cancel,
            Nat.mul_succ]
          omega

namespace Context

variable (c : ContextConfig)

/-- The texts of documents, numbered from 1. -/
def numbered (shown : List Document) : List String :=
  shown.mapIdx fun i d => format c (i + 1) d

/-- What a prompt says about the documents that it shows. -/
def shownText : List Document → String
  | [] => ""
  | shown => "參考文件：\n" ++ Text.joined "\n\n" (numbered c shown) ++ "\n\n"

/-- A further document is shown with the next number. -/
theorem numbered_concat (shown : List Document) (d : Document) :
    numbered c (shown ++ [d]) = numbered c shown ++ [format c (shown.length + 1) d] := by
  rw [numbered, List.mapIdx_concat]
  rfl

/-- Every document that is shown has its number. -/
theorem length_numbered (shown : List Document) : (numbered c shown).length = shown.length :=
  List.length_mapIdx

/-- A text with a number begins with the number and what a citation shows. -/
theorem exists_format (number : ℕ) (d : Document) :
    ∃ rest, format c number d = s!"[{number}] {d.label}" ++ rest := by
  refine ⟨(if c.showScores then
      " (相關度 " ++ Decimal.fixed 2 (.ofFloat32 d.rerankScore) ++ ")" else "") ++ fieldLine d ++
    (d.field? "content").elim "" fun body => "\n摘要：" ++ snippetOf c.snippet body, ?_⟩
  rw [format]
  simp only [String.append_assoc]

/-- The characters of documents, each as it is shown. -/
def cost (shown : List Document) : ℕ := ((numbered c shown).map Text.size).sum

/-- A further document costs its characters. -/
theorem cost_concat (shown : List Document) (d : Document) :
    cost c (shown ++ [d]) = cost c shown + Text.size (format c (shown.length + 1) d) := by
  rw [cost, numbered_concat, List.map_append, List.sum_append, List.map_singleton,
    List.sum_singleton]
  rfl

/-- More documents have no fewer characters. -/
theorem cost_le_of_prefix {shown more : List Document} (h : shown <+: more) :
    cost c shown ≤ cost c more := by
  obtain ⟨others, rfl⟩ := h
  rw [cost, cost, numbered, numbered, List.mapIdx_append, List.map_append, List.sum_append]
  exact Nat.le_add_right _ _

/-- Behind the documents in `done`, those in `fit` are the longest beginning of `rest` whose
characters are within the budget. -/
structure Fills (done rest fit : List Document) : Prop where
  isPrefix : fit <+: rest
  within : cost c done ≤ c.budget → cost c (done ++ fit) ≤ c.budget
  longest : ∀ more, more <+: rest → cost c (done ++ more) ≤ c.budget → more <+: fit

namespace Fills

variable {c} {done rest fit : List Document} {d : Document}

/-- Nothing is left to fit in. -/
theorem nil : Fills c done [] [] where
  isPrefix := List.prefix_rfl
  within h := by rwa [List.append_nil]
  longest _ h _ := h

/-- If a document does not fit, none behind it is looked at. -/
theorem stop (h : c.budget < cost c (done ++ [d])) : Fills c done (d :: rest) [] where
  isPrefix := List.nil_prefix
  within h := by rwa [List.append_nil]
  longest more hmore hfits := by
    cases more with
    | nil => exact List.prefix_rfl
    | cons e more =>
        obtain ⟨rfl, -⟩ := List.cons_prefix_cons.1 hmore
        have hle : cost c (done ++ [e]) ≤ cost c (done ++ e :: more) :=
          cost_le_of_prefix c ⟨more, by rw [List.append_assoc, List.singleton_append]⟩
        omega

/-- If a document fits, those behind it go on from there. -/
theorem cons (hd : cost c (done ++ [d]) ≤ c.budget) (h : Fills c (done ++ [d]) rest fit) :
    Fills c done (d :: rest) (d :: fit) where
  isPrefix := List.cons_prefix_cons.2 ⟨rfl, h.isPrefix⟩
  within _ := by
    rw [List.append_cons]
    exact h.within hd
  longest more hmore hfits := by
    cases more with
    | nil => exact List.nil_prefix
    | cons e more =>
        obtain ⟨rfl, htail⟩ := List.cons_prefix_cons.1 hmore
        rw [List.append_cons] at hfits
        exact List.cons_prefix_cons.2 ⟨rfl, h.longest more htail hfits⟩

end Fills

/-- **Documents are added as long as they fit**, and go on with the numbers of those before. -/
theorem exists_add (done rest : List Document) :
    ∃ fit, Fills c done rest fit ∧
      add c ⟨numbered c done, done.map (·.id), cost c done⟩ rest =
        ⟨numbered c (done ++ fit), (done ++ fit).map (·.id), cost c (done ++ fit)⟩ := by
  induction rest generalizing done with
  | nil => exact ⟨[], .nil, by rw [add, List.append_nil]⟩
  | cons d rest ih =>
      have hcost := cost_concat c done d
      rw [add]
      simp only [length_numbered, ← hcost]
      by_cases h : c.budget < cost c (done ++ [d])
      · rw [if_pos h]
        exact ⟨[], .stop h, by rw [List.append_nil]⟩
      · rw [if_neg h]
        obtain ⟨fit, hfit, hadd⟩ := ih (done ++ [d])
        rw [numbered_concat, List.map_append, List.map_singleton] at hadd
        refine ⟨d :: fit, hfit.cons (Nat.le_of_not_lt h), ?_⟩
        rw [hadd, List.append_assoc, List.singleton_append]

/-- The documents that are shown are as many as fit. -/
theorem exists_build_eq (documents : List Document) :
    ∃ shown, Fills c [] documents shown ∧
      build c documents = ⟨numbered c shown, shown.map (·.id), cost c shown⟩ :=
  exists_add c [] documents

/-- **The documents that are shown are the first ones, numbered from 1.** -/
theorem exists_build (documents : List Document) :
    ∃ shown, shown <+: documents ∧ (build c documents).parts = numbered c shown ∧
      (build c documents).ids = shown.map (·.id) := by
  obtain ⟨shown, hfills, hbuild⟩ := exists_build_eq c documents
  rw [hbuild]
  exact ⟨shown, hfills.isPrefix, rfl, rfl⟩

/-- A prompt is put behind what is shown. -/
theorem augment_eq {documents shown : List Document} (prompt : String)
    (h : (build c documents).parts = numbered c shown) :
    augment c prompt documents = shownText c shown ++ prompt := by
  rw [augment]
  cases shown with
  | nil =>
      rw [h]
      exact String.empty_append.symm
  | cons d shown =>
      have hne : ¬ (numbered c (d :: shown)).isEmpty = true := by
        rw [numbered, List.mapIdx_cons]
        exact Bool.false_ne_true
      simp only [h, text, shownText]
      rw [if_neg hne]

/-! ### The budget -/

/-- A document is shown with a number in brackets and a space at least. -/
theorem four_le_size_format (number : ℕ) (d : Document) : 4 ≤ Text.size (format c number d) := by
  obtain ⟨rest, hrest⟩ := exists_format c number d
  have hdigits : 0 < number.repr.toList.length := Nat.length_repr_pos
  have hchars : (s!"[{number}] {d.label}" ++ rest).toList =
      '[' :: (number.repr.toList ++ ']' :: ' ' :: (d.label.toList ++ rest.toList)) := by
    simp [toString, String.toList_append]
  rw [hrest, Text.size, hchars]
  simp only [List.length_cons, List.length_append]
  omega

/-- A document costs four characters at least. -/
theorem four_mul_length_le_cost (shown : List Document) : 4 * shown.length ≤ cost c shown := by
  induction shown using List.reverseRecOn with
  | nil => exact Nat.le_refl 0
  | append_singleton shown d ih =>
      have hd := four_le_size_format c (shown.length + 1) d
      rw [cost_concat, List.length_append, List.length_singleton]
      omega

/-- The text of a context is as long as its documents and the line breaks between them. -/
theorem size_text_of_parts {x : Context} {shown : List Document}
    (h : x.parts = numbered c shown) :
    Text.size x.text = cost c shown + 2 * (shown.length - 1) := by
  rw [text, h, Text.size_joined, length_numbered]
  rfl

/-- **The context of some documents.** It shows the longest beginning of the documents whose
characters, counted for each document as it is shown, are within the budget. Its text is longer by
two line breaks between any two of them; so it is within the budget if all these characters are, and
never longer than one and a half budgets. -/
theorem build_spec (documents : List Document) : ∃ shown, Fills c [] documents shown ∧
    cost c shown ≤ c.budget ∧
    build c documents = ⟨numbered c shown, shown.map (·.id), cost c shown⟩ ∧
    (build c documents).text = Text.joined "\n\n" (numbered c shown) ∧
    Text.size (build c documents).text = cost c shown + 2 * (shown.length - 1) ∧
    2 * Text.size (build c documents).text ≤ 3 * c.budget := by
  obtain ⟨shown, hfills, hbuild⟩ := exists_build_eq c documents
  have hcost : cost c shown ≤ c.budget := hfills.within (Nat.zero_le _)
  have hparts : (build c documents).parts = numbered c shown := congrArg parts hbuild
  have hsize := size_text_of_parts c hparts
  have hfour := four_mul_length_le_cost c shown
  refine ⟨shown, hfills, hcost, hbuild, congrArg (Text.joined "\n\n") hparts, hsize, ?_⟩
  omega

/-- Two documents that are shown with 8 and 12 characters. -/
def roadAndBridge : List Document :=
  [.ofRecord ⟨"d1", [("subject", "道路養護")]⟩ .keyword 0,
    .ofRecord ⟨"d2", [("subject", "橋梁檢測維修工程")]⟩ .keyword 0]

/-- Both fit into 20 characters, but with the line breaks between them there are 22. -/
theorem text_beyond_budget :
    ¬ Text.size (build { budget := 20 } roadAndBridge).text ≤ 20 := by
  decide

end Context

namespace Synthesis

/-- What the language model is told about a question and its results besides documents. -/
def digest (question : String) (results : List ToolResult) : String :=
  "工具結果摘要：\n" ++ summary results ++ "\n\n問題：" ++ question

/-- What a prompt says if there are no documents. -/
def noDocuments : String := "參考文件：（無）\n\n"

/-- The citations that are picked from are those of the documents that are picked from. -/
theorem flatMap_citations (results : List ToolResult) :
    ((results.filter (·.success)).filterMap (·.data)).flatMap (·.citations) =
      (results.flatMap (·.found)).map Scored.citation := by
  induction results with
  | nil => rfl
  | cons r results ih =>
      rw [List.flatMap_cons, List.map_append, ← ih]
      rcases r with ⟨call, success, data, error⟩
      cases success with
      | false => rfl
      | true => cases data <;> rfl

/-- **The citations are those of the documents**, one by one. -/
theorem citations_eq_map (results : List ToolResult) :
    citations results = (documents results).map Scored.citation := by
  rw [citations, flatMap_citations, documents]
  exact (map_firstOfEach Citation.documentId Scored.citation [] _).symm

/-- What is shown of some results, with the numbers that the citations have. -/
structure Aligned (c : ContextConfig) (results : List ToolResult) (shown : List Document) :
    Prop where
  citations_eq : citations results = (documents results).map Scored.citation
  isPrefix : shown <+: documents results
  /-- The last message of a request shows the documents in front of all else. -/
  message : ∀ historyTurns question history,
    (request c historyTurns question history results).messages.getLast? =
      some { role := .user, content := (if documents results = [] then noDocuments
        else Context.shownText c shown) ++ digest question results }
  /-- A document that is shown with a number is the citation with this number. -/
  number : ∀ i d, shown[i]? = some d →
    (∃ rest, (Context.numbered c shown)[i]? = some (s!"[{i + 1}] {d.label}" ++ rest)) ∧
      (citations results)[i]? = some ⟨d.id, d.label⟩ ∧
        (citationLines (citations results))[i]? = some s!"[{i + 1}] {d.label} ({d.id})"

/-- What a prompt says: the documents that are shown, or that there are none, and then the findings.
-/
theorem prompt_eq {c : ContextConfig} {results : List ToolResult} {shown : List Document}
    (question : String)
    (h : (Context.build c (documents results)).parts = Context.numbered c shown) :
    prompt c question results = (if documents results = [] then noDocuments
      else Context.shownText c shown) ++ digest question results := by
  simp only [prompt, List.isEmpty_iff]
  by_cases hnone : documents results = []
  · rw [if_pos hnone, if_pos hnone]
    rfl
  · rw [if_neg hnone, if_neg hnone]
    exact Context.augment_eq c _ h

/-- The lines that show citations are numbered from 1. -/
theorem getElem?_citationLines {cs : List Citation} {i : ℕ} {id label : String}
    (h : cs[i]? = some ⟨id, label⟩) :
    (citationLines cs)[i]? = some s!"[{i + 1}] {label} ({id})" := by
  rw [citationLines, List.getElem?_map, List.getElem?_zipIdx, h]
  simp only [Option.map_some, Nat.zero_add]

/-- **What is shown of any results has the numbers of the citations.** -/
theorem exists_aligned (c : ContextConfig) (results : List ToolResult) :
    ∃ shown, Aligned c results shown := by
  obtain ⟨shown, hshown, hparts, -⟩ := Context.exists_build c (documents results)
  refine ⟨shown, citations_eq_map results, hshown, ?_, ?_⟩
  · intro historyTurns question history
    rw [← prompt_eq question hparts]
    exact List.getLast?_concat
  · intro i d hd
    have hcited : (citations results)[i]? = some ⟨d.id, d.label⟩ := by
      obtain ⟨others, hothers⟩ := hshown
      have hlt : i < shown.length := (List.getElem?_eq_some_iff.1 hd).1
      rw [citations_eq_map, List.getElem?_map, ← hothers, List.getElem?_append_left hlt, hd]
      rfl
    refine ⟨?_, hcited, getElem?_citationLines hcited⟩
    obtain ⟨rest, hrest⟩ := Context.exists_format c (i + 1) d
    refine ⟨rest, ?_⟩
    rw [Context.numbered, List.getElem?_mapIdx, hd, ← hrest]
    rfl

end Synthesis

end Archivist
