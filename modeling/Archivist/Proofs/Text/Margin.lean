import Archivist.Proofs.Text.Trim
import Archivist.Text.Case

/-!
# White Space around a Text

A text is what trimming leaves of it, with white space in front (`leading`) and behind (`trailing`).
White space has no case, and no letter looks past it for a neighbour with case: in lower case, a
text has the same white space around it as before, around the lower-case form of what trimming
leaves (`lower_eq`). So it makes no difference whether a text is trimmed first or put in lower case
first.
-/

namespace Archivist.Text

variable {front cs behind : List Char} {c : Char}

/-- The white space that a text begins with. -/
def leading (cs : List Char) : List Char := cs.takeWhile isBlank

/-- The white space that a text ends with, if there is anything else in it. -/
def trailing (cs : List Char) : List Char := ((trimStart cs).reverse.takeWhile isBlank).reverse

/-- The white space in front is white space. -/
theorem allBlank_leading (cs : List Char) : allBlank (leading cs) = true :=
  List.all_eq_true.2 fun _ hc => List.mem_takeWhile_imp hc

/-- So is the white space behind. -/
theorem allBlank_trailing (cs : List Char) : allBlank (trailing cs) = true :=
  List.all_eq_true.2 fun _ hc => List.mem_takeWhile_imp (List.mem_reverse.1 hc)

/-- What is taken off the end can be put back. -/
theorem trimEnd_append_takeWhile (cs : List Char) :
    trimEnd cs ++ (cs.reverse.takeWhile isBlank).reverse = cs := by
  rw [trimEnd, dropEndWhile, ← List.reverse_append, List.takeWhile_append_dropWhile,
    List.reverse_reverse]

/-- **A text is its trimmed form with white space around it.** -/
theorem leading_append_trim_append_trailing (cs : List Char) :
    leading cs ++ (trim cs ++ trailing cs) = cs := by
  rw [trim, trailing, trimEnd_append_takeWhile]
  exact List.takeWhile_append_dropWhile

/-- Trimming makes no text blank that was not. -/
theorem allBlank_trim (cs : List Char) : allBlank (trim cs) = allBlank cs := by
  have hleading : (leading cs).all isBlank = true := allBlank_leading cs
  have htrailing : (trailing cs).all isBlank = true := allBlank_trailing cs
  conv_rhs => rw [← leading_append_trim_append_trailing cs]
  simp [allBlank, hleading, htrailing]

/-! ### Lower case -/

/-- The code points of white space. -/
def blankCodes : List ℕ := [0x09, 0x0A, 0x0B, 0x0C, 0x0D, 0x20, 0x85, 0xA0, 0x1680, 0x2000, 0x2001,
  0x2002, 0x2003, 0x2004, 0x2005, 0x2006, 0x2007, 0x2008, 0x2009, 0x200A, 0x2028, 0x2029, 0x202F,
  0x205F, 0x3000]

/-- White space has one of a few places. -/
theorem mem_blankCodes_of_isBlank (h : isBlank c = true) : c.toNat ∈ blankCodes := by
  rw [isBlank, decide_eq_true_eq] at h
  simp only [blankCodes, List.mem_cons, List.not_mem_nil, or_false]
  omega

/-- What white space has to do with case: nothing. -/
structure Caseless (c : Char) : Prop where
  cased : isCased c = false
  ignorable : isIgnorable c = false
  ne_sigma : c ≠ 'Σ'
  lower : lowerChar c = [c]

/-- None of these has to do with case. -/
theorem caseless_blankCodes : ∀ n ∈ blankCodes, isCased (Char.ofNat n) = false ∧
    isIgnorable (Char.ofNat n) = false ∧ Char.ofNat n ≠ 'Σ' ∧
      lowerChar (Char.ofNat n) = [Char.ofNat n] := by
  decide +kernel

/-- White space has nothing to do with case. -/
theorem caseless_of_isBlank (h : isBlank c = true) : Caseless c := by
  obtain ⟨hcased, hignorable, hsigma, hlower⟩ :=
    caseless_blankCodes c.toNat (mem_blankCodes_of_isBlank h)
  rw [Char.ofNat_toNat] at hcased hignorable hsigma hlower
  exact ⟨hcased, hignorable, hsigma, hlower⟩

/-- Whether a letter follows shows in the next character that counts. -/
theorem casedNext_cons (c : Char) (cs : List Char) :
    casedNext (c :: cs) = if isIgnorable c then casedNext cs else isCased c := by
  cases hc : isIgnorable c with
  | true => rw [casedNext, List.dropWhile_cons_of_pos hc, if_pos rfl, casedNext]
  | false =>
      rw [casedNext, List.dropWhile_cons_of_neg (Bool.eq_false_iff.1 hc)]
      rfl

/-- No letter has a neighbour with case behind white space. -/
theorem casedNext_append_cons (h : isBlank c = true) (cs more : List Char) :
    casedNext (cs ++ c :: more) = casedNext cs := by
  have hc := caseless_of_isBlank h
  induction cs with
  | nil =>
      rw [List.nil_append, casedNext_cons, if_neg (Bool.eq_false_iff.1 hc.ignorable), hc.cased]
      rfl
  | cons d cs ih => rw [List.cons_append, casedNext_cons, casedNext_cons, ih]

/-- No letter has a neighbour with case in white space or beyond. -/
theorem casedNext_append_of_allBlank (h : allBlank behind = true) (cs : List Char) :
    casedNext (cs ++ behind) = casedNext cs := by
  cases behind with
  | nil => rw [List.append_nil]
  | cons c behind => exact casedNext_append_cons (List.all_eq_true.1 h c List.mem_cons_self) cs _

/-- White space is its own lower case. -/
theorem lowerAfter_of_allBlank (h : allBlank cs = true) (before : List Char) :
    lowerAfter before cs = cs := by
  induction cs generalizing before with
  | nil => rfl
  | cons c cs ih =>
      rw [allBlank, List.all_cons, Bool.and_eq_true] at h
      have hc := caseless_of_isBlank h.1
      rw [lowerAfter, if_neg hc.ne_sigma, hc.lower, ih h.2, List.singleton_append]

/-- White space behind a text does not change its lower-case form. -/
theorem lowerAfter_append_of_allBlank (h : allBlank behind = true) (before cs : List Char) :
    lowerAfter before (cs ++ behind) = lowerAfter before cs ++ behind := by
  induction cs generalizing before with
  | nil => rw [List.nil_append, lowerAfter_of_allBlank h, lowerAfter, List.nil_append]
  | cons c cs ih =>
      rw [List.cons_append, lowerAfter, lowerAfter, casedNext_append_of_allBlank h, ih,
        List.append_assoc]

/-- What stands in front of white space has no influence on what stands behind it. -/
theorem lowerAfter_before_cons (h : isBlank c = true) (before front cs : List Char) :
    lowerAfter (front ++ c :: before) cs = lowerAfter front cs := by
  induction cs generalizing front with
  | nil => rfl
  | cons d cs ih =>
      rw [lowerAfter, lowerAfter, casedNext_append_cons h, ← List.cons_append, ih]

/-- White space in front of a text does not change its lower-case form. -/
theorem lowerAfter_of_allBlank_before (h : allBlank front = true) (before cs : List Char) :
    lowerAfter (before ++ front) cs = lowerAfter before cs := by
  cases front with
  | nil => rw [List.append_nil]
  | cons c front => exact lowerAfter_before_cons (List.all_eq_true.1 h c List.mem_cons_self) _ _ cs

/-- White space in front stays in front in lower case. -/
theorem lowerAfter_append_of_allBlank_front (h : allBlank front = true) (before cs : List Char) :
    lowerAfter before (front ++ cs) = front ++ lowerAfter (front.reverse ++ before) cs := by
  induction front generalizing before with
  | nil => rfl
  | cons c front ih =>
      rw [allBlank, List.all_cons, Bool.and_eq_true] at h
      have hc := caseless_of_isBlank h.1
      rw [List.cons_append, lowerAfter, if_neg hc.ne_sigma, hc.lower, ih h.2, List.reverse_cons,
        List.append_assoc, List.singleton_append, List.singleton_append, List.cons_append]

/-- A text in lower case can be cut at white space. -/
theorem lowerAfter_append_cons (h : isBlank c = true) (before cs more : List Char) :
    lowerAfter before (cs ++ c :: more) = lowerAfter before cs ++ c :: lower more := by
  have hc := caseless_of_isBlank h
  induction cs generalizing before with
  | nil =>
      have hmore := lowerAfter_before_cons h before [] more
      rw [List.nil_append] at hmore
      rw [List.nil_append, lowerAfter, List.nil_append, lowerAfter, if_neg hc.ne_sigma, hc.lower,
        List.singleton_append, hmore, lower]
  | cons d cs ih =>
      rw [List.cons_append, lowerAfter, lowerAfter, casedNext_append_cons h, ih, List.append_assoc]

/-- **White space keeps apart what stands on its two sides**: each is put in lower case on its
own. -/
theorem lower_append_cons (h : isBlank c = true) (cs more : List Char) :
    lower (cs ++ c :: more) = lower cs ++ c :: lower more :=
  lowerAfter_append_cons h [] cs more

/-- **In lower case, a text has the same white space around it.** -/
theorem lower_eq (cs : List Char) : lower cs = leading cs ++ (lower (trim cs) ++ trailing cs) := by
  have hfront : allBlank (leading cs).reverse = true := by
    rw [allBlank, List.all_reverse]
    exact allBlank_leading cs
  calc lower cs
      = lowerAfter [] (leading cs ++ (trim cs ++ trailing cs)) := by
        rw [leading_append_trim_append_trailing, lower]
    _ = leading cs ++ lowerAfter ([] ++ (leading cs).reverse) (trim cs ++ trailing cs) := by
        rw [lowerAfter_append_of_allBlank_front (allBlank_leading cs), List.append_nil,
          List.nil_append]
    _ = leading cs ++ lowerAfter [] (trim cs ++ trailing cs) := by
        rw [lowerAfter_of_allBlank_before hfront]
    _ = leading cs ++ (lower (trim cs) ++ trailing cs) := by
        rw [lowerAfter_append_of_allBlank (allBlank_trailing cs), lower]

end Archivist.Text
