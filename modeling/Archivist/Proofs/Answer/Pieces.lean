import Archivist.Answer.Sanitizer
import Archivist.Proofs.Answer.Lead
import Archivist.Proofs.Text.Mark

/-!
# Answers in Pieces

An answer is sanitized while it arrives. Its two stages, blocks and leading lines, are coupled: what
the first passes on is fed to the second, and each holds something back. `Sanitizer.due` composes
what they still have to pass on, and a piece moves text from there to the output
(`Sanitizer.push_due`). So the cuts between the pieces do not show.

## Main results

* `toList_passedOn`: the output is that of the whole text at once.
* `passedOn_eq_lead_visible`: the output for any pieces, and why both loops of a stage end.
-/

/-! ### Blocks in an answer

`visible` says for a whole text what is left when the blocks between tags are removed. The stage
`Thinking` sees the text in pieces and keeps the end of it in which a tag may have begun. It keeps
enough: no tag begins in what it passes on, even together with all that follows
(`not_prefix_of_lt_cut`).

`Thinking.due` is what a stage still has to pass on if some text is all that follows; feeding a
piece only moves text from what is due to what has been passed on (`Thinking.feed_due`).
-/

namespace Archivist.Sanitize

/-- A text without its blocks. A block that is never closed extends to the end of the text. -/
def visible (cs : List Char) : List Char :=
  match _h : Text.breakOn openTag cs with
  | none => cs
  | some (front, block) =>
    match _hb : Text.breakOn closeTag block with
    | none => front
    | some (_, rest) => front ++ visible rest
  termination_by cs.length
  decreasing_by
    have := Text.length_after_lt (by simp [openTag]) _h
    have := Text.length_after_lt (by simp [closeTag]) _hb
    omega

/-- The visible text behind the beginning of a block. -/
def afterBlock (cs : List Char) : List Char :=
  match Text.breakOn closeTag cs with
  | none => []
  | some (_, rest) => visible rest

/-- A text without blocks is visible as a whole. -/
theorem visible_of_none {cs : List Char} (h : Text.breakOn openTag cs = none) :
    visible cs = cs := by
  rw [visible]
  split
  · rfl
  · rename_i hs
    rw [h] at hs
    cases hs

/-- What comes before the first block is visible. -/
theorem visible_of_some {cs front block : List Char}
    (h : Text.breakOn openTag cs = some (front, block)) :
    visible cs = front ++ afterBlock block := by
  rw [visible, afterBlock]
  split
  · rename_i hn
    rw [h] at hn
    cases hn
  · rename_i front' block' hs
    rw [h] at hs
    cases hs
    split <;> split <;> simp_all

/-- Text in which no block begins is visible. -/
theorem visible_append_left {cs more : List Char}
    (h : ∀ i < cs.length, ¬ openTag <+: cs.drop i ++ more) :
    visible (cs ++ more) = cs ++ visible more := by
  have hb := Text.breakOn_append_left h
  cases hm : Text.breakOn openTag more with
  | none =>
      rw [hm] at hb
      rw [visible_of_none hb, visible_of_none hm]
  | some found =>
      obtain ⟨front, block⟩ := found
      rw [hm] at hb
      rw [visible_of_some hb, visible_of_some hm, List.append_assoc]

/-- Text in which a block does not end is hidden. -/
theorem afterBlock_append_left {cs more : List Char}
    (h : ∀ i < cs.length, ¬ closeTag <+: cs.drop i ++ more) :
    afterBlock (cs ++ more) = afterBlock more := by
  rw [afterBlock, Text.breakOn_append_left h, afterBlock]
  cases Text.breakOn closeTag more <;> rfl

/-! ### What may be the beginning of a tag -/

/-- The search for the longest beginning finds one that is at least as long as any. -/
theorem le_find_reverse_range {p : ℕ → Bool} {n k : ℕ} (hk : k < n) (hp : p k = true) :
    k ≤ ((List.range n).reverse.find? p).getD 0 := by
  induction n with
  | zero => omega
  | succ n ih =>
      rw [List.range_succ, List.reverse_append, List.reverse_singleton, List.singleton_append,
        List.find?_cons]
      cases hn : p n with
      | true => simpa [hn] using Nat.lt_succ_iff.1 hk
      | false =>
          have hne : k ≠ n := by
            rintro rfl
            rw [hp] at hn
            cases hn
          exact ih (by omega)

/-- No proper beginning of a mark that ends a text is longer than what is held. -/
theorem le_heldLength {mark cs : List Char} {k : ℕ} (hk : k < mark.length)
    (h : mark.take k <:+ cs) : k ≤ heldLength mark cs :=
  le_find_reverse_range hk (List.isSuffixOf_iff_suffix.2 h)

/-- **Enough is held.** In a text without a mark, no mark begins in front of what is held,
whatever follows. -/
theorem not_prefix_of_lt_cut {mark cs : List Char} (hn : Text.breakOn mark cs = none)
    (more : List Char) {i : ℕ} (hi : i < cs.length - heldLength mark cs) :
    ¬ mark <+: cs.drop i ++ more := by
  intro hp
  rcases Text.prefix_append_cases hp with hin | ⟨k, hk, heq, -⟩
  · exact Text.breakOn_eq_none_iff.1 hn (hin.isInfix.trans (List.drop_suffix i cs).isInfix)
  · have hsuf : mark.take k <:+ cs := heq ▸ List.drop_suffix i cs
    have hlen : cs.length - i = k := by
      have := congrArg List.length heq
      rw [List.length_drop, List.length_take] at this
      omega
    have := le_heldLength hk hsuf
    omega

/-- The same for the text in front of what is held. -/
theorem not_prefix_of_take {mark cs : List Char} (hn : Text.breakOn mark cs = none)
    (more : List Char) :
    let cut := cs.length - heldLength mark cs
    ∀ i < (cs.take cut).length, ¬ mark <+: (cs.take cut).drop i ++ (cs.drop cut ++ more) := by
  intro cut i hi
  have hi' : i < cut := by
    rw [List.length_take] at hi
    omega
  have hcs : (cs.take cut).drop i ++ (cs.drop cut ++ more) = cs.drop i ++ more := by
    rw [← List.append_assoc, ← List.drop_append_of_le_length (by omega), List.take_append_drop]
  rw [hcs]
  exact not_prefix_of_lt_cut hn more hi'

namespace Thinking

/-- What a stage has to pass on if this text is all that follows. -/
def due (t : Thinking) (cs : List Char) : List Char :=
  if t.inside then afterBlock (t.pending ++ cs) else visible (t.pending ++ cs)

/-- No tag is pending. -/
def Sorted (t : Thinking) : Prop := Text.breakOn t.tag t.pending = none

/-- What is held back is still due. -/
theorem hold_due {t : Thinking} (h : t.Sorted) (more : List Char) :
    t.hold.1 ++ t.hold.2.due more = t.due more := by
  obtain ⟨inside, pending⟩ := t
  cases inside with
  | false =>
      have hb := visible_append_left (not_prefix_of_take h more)
      rw [← List.append_assoc, List.take_append_drop] at hb
      exact hb.symm
  | true =>
      have hb := afterBlock_append_left (not_prefix_of_take h more)
      rw [← List.append_assoc, List.take_append_drop] at hb
      exact hb.symm

/-- What is held back has no whole tag in it. -/
theorem hold_sorted {t : Thinking} (h : t.Sorted) : t.hold.2.Sorted := by
  rw [Sorted, Text.breakOn_eq_none_iff] at h ⊢
  exact fun hin => h (hin.trans (List.drop_suffix _ _).isInfix)

/-- What is passed on is no longer due. -/
theorem pass_due {t t' : Thinking} {front : List Char} (h : t.pass? = some (front, t'))
    (more : List Char) : front ++ t'.due more = t.due more := by
  obtain ⟨⟨before, after⟩, hb, heq⟩ := Option.map_eq_some_iff.1 h
  obtain ⟨rfl, rfl⟩ := Prod.mk.inj heq
  have hb' := Text.breakOn_append t.tag_ne_nil hb more
  obtain ⟨inside, pending⟩ := t
  cases inside with
  | false => exact (visible_of_some hb').symm
  | true =>
      have hafter : afterBlock (pending ++ more) = visible (after ++ more) := by
        rw [afterBlock, show Text.breakOn closeTag (pending ++ more) = _ from hb']
      exact hafter.symm

/-- If nothing can be passed on, no tag is pending. -/
theorem sorted_of_pass? {t : Thinking} (h : t.pass? = none) : t.Sorted :=
  Option.map_eq_none_iff.1 h

/-- Stripping passes on what is due and keeps the rest. -/
theorem strip_due (t : Thinking) (more : List Char) :
    t.strip.1 ++ t.strip.2.due more = t.due more := by
  fun_induction Thinking.strip t with
  | case1 t front t' h later last hs ih =>
      rw [hs] at ih
      rw [List.append_assoc, ih, pass_due h]
  | case2 t h => exact hold_due (sorted_of_pass? h) more

/-- After stripping no tag is pending. -/
theorem strip_sorted (t : Thinking) : t.strip.2.Sorted := by
  fun_induction Thinking.strip t with
  | case1 t front t' h later last hs ih =>
      rw [hs] at ih
      exact ih
  | case2 t h => exact hold_sorted (sorted_of_pass? h)

/-- Feeding a piece moves text from what is due to what is passed on. -/
theorem feed_due (t : Thinking) (cs more : List Char) :
    (t.feed cs).1 ++ (t.feed cs).2.due more = t.due (cs ++ more) := by
  rw [feed, strip_due, due, due, List.append_assoc]

/-- What is left at the end is what is due if nothing follows. -/
theorem rest_eq_due {t : Thinking} (h : t.Sorted) : t.rest = t.due [] := by
  obtain ⟨inside, pending⟩ := t
  rw [due, List.append_nil]
  cases inside with
  | false => exact (visible_of_none h).symm
  | true =>
      have hnone : afterBlock pending = [] := by
        rw [afterBlock, show Text.breakOn closeTag pending = none from h]
      exact hnone.symm

end Thinking

namespace Sanitizer

/-- What a sanitizer has to pass on if this text is all that follows. -/
def due (s : Sanitizer) (cs : List Char) : List Char := s.leading.due (s.thinking.due cs)

/-- What holds of a sanitizer between two pieces. -/
structure Settled (s : Sanitizer) : Prop where
  sorted : s.thinking.Sorted
  unbroken : s.leading.Unbroken

/-- A new sanitizer is settled. -/
theorem settled_fresh : Settled {} := ⟨rfl, List.not_mem_nil⟩

/-- A new sanitizer has everything to pass on. -/
theorem due_fresh (cs : List Char) : due {} cs = lead (visible cs) := rfl

/-- A piece leaves a sanitizer settled. -/
theorem push_settled (s : Sanitizer) (piece : String) : (s.push piece).2.Settled :=
  ⟨Thinking.strip_sorted _, s.leading.feed_unbroken _⟩

/-- A piece moves text from what is due to what is passed on. -/
theorem push_due (s : Sanitizer) (piece : String) (more : List Char) :
    (s.push piece).1.toList ++ (s.push piece).2.due more = s.due (piece.toList ++ more) := by
  have hl := s.leading.feed_due (s.thinking.feed piece.toList).1
    ((s.thinking.feed piece.toList).2.due more)
  rw [s.thinking.feed_due] at hl
  simpa only [push, due, String.toList_ofList] using hl

/-- At the end everything is passed on that is due if nothing follows. -/
theorem toList_finish {s : Sanitizer} (h : s.Settled) : s.finish.1.toList = s.due [] := by
  have hrest := Leading.rest_eq_due (s.leading.feed_unbroken s.thinking.rest)
  have hl := s.leading.feed_due s.thinking.rest []
  rw [List.append_nil, Thinking.rest_eq_due h.sorted] at hl
  rw [due, ← hl, ← Thinking.rest_eq_due h.sorted, ← hrest]
  simp only [finish, String.toList_ofList]

/-- Pieces one after the other move text from what is due to what is passed on. -/
theorem pushAll_due (s : Sanitizer) (pieces : List String) (more : List Char) :
    (String.join (s.pushAll pieces).1).toList ++ (s.pushAll pieces).2.due more =
      s.due ((String.join pieces).toList ++ more) := by
  induction pieces generalizing s with
  | nil => simp [pushAll]
  | cons piece rest ih =>
      have hpush := s.push_due piece ((String.join rest).toList ++ more)
      have hrest := ih (s.push piece).2
      simp only [pushAll, String.toList_join, List.flatMap_cons, List.append_assoc] at hrest ⊢
      rw [hrest, ← String.toList_join, hpush]

/-- So do all pieces. -/
theorem pushAll_settled {s : Sanitizer} (h : s.Settled) (pieces : List String) :
    (s.pushAll pieces).2.Settled := by
  induction pieces generalizing s with
  | nil => exact h
  | cons piece rest ih => exact ih (s.push_settled piece)

end Sanitizer

/-- Everything that is passed on of an answer that arrives in pieces. -/
def passedOn (pieces : List String) : String :=
  let (passed, s) := Sanitizer.pushAll {} pieces
  String.join passed ++ s.finish.1

/-- **The cuts between the pieces do not show**: what is passed on is what is left of the whole text
without its blocks and its leading lines. -/
theorem toList_passedOn (pieces : List String) :
    (passedOn pieces).toList = lead (visible (String.join pieces).toList) := by
  have hall := Sanitizer.pushAll_due {} pieces []
  rw [← Sanitizer.toList_finish (Sanitizer.pushAll_settled Sanitizer.settled_fresh pieces),
    List.append_nil, Sanitizer.due_fresh] at hall
  rw [← hall]
  exact String.toList_append

/-- An answer that arrives in pieces is sanitized like the whole text, and every turn of either
loop, that over the tags and that over the leading lines, leaves less text to look at, whatever the
state and the text. -/
theorem passedOn_eq_lead_visible (pieces : List String) :
    passedOn pieces = String.ofList (lead (visible (String.join pieces).toList)) ∧
      (∀ (t t' : Thinking) (front : List Char),
        t.pass? = some (front, t') → t'.pending.length < t.pending.length) ∧
      ∀ cs rest : List Char, Leading.dropLine? cs = some rest → rest.length < cs.length := by
  refine ⟨?_, fun t t' front h => Thinking.length_pending_lt h,
    fun cs rest h => Leading.length_lt_of_dropLine? h⟩
  rw [← toList_passedOn, String.ofList_toList]

end Archivist.Sanitize
