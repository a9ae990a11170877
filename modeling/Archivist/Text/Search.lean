/-!
# Finding Text in Text

Occurrences of one text in another, on lists of characters, and the same questions on strings.

`scan` walks through a text from left to right and collects what a recogniser finds. The recogniser
is given the text in front of a position, last character first, and the text from there on; it says
what it has found and how many characters that takes. What is found does not overlap: the walk
goes on behind it.
-/

namespace Archivist.Text

/-- Whether `part` occurs in the text. The empty text occurs in every text. -/
def occurs (part : List Char) : List Char → Bool
  | [] => part.isEmpty
  | c :: cs => part.isPrefixOf (c :: cs) || occurs part cs

/-- The text before the first occurrence of `mark` and the text after it. -/
def breakOn (mark : List Char) : List Char → Option (List Char × List Char)
  | [] => if mark = [] then some ([], []) else none
  | c :: cs =>
    if mark.isPrefixOf (c :: cs) then some ([], (c :: cs).drop mark.length)
    else (breakOn mark cs).map fun (before, after) => (c :: before, after)

/-- What `breakOn` finds is where it says. -/
theorem eq_append_of_breakOn {mark cs before after : List Char}
    (h : breakOn mark cs = some (before, after)) : cs = before ++ mark ++ after := by
  induction cs generalizing before after with
  | nil =>
      simp only [breakOn] at h
      split at h
      · cases h; simp_all
      · cases h
  | cons c cs ih =>
      simp only [breakOn] at h
      split at h
      · rename_i hp
        cases h
        obtain ⟨tail, ht⟩ := List.isPrefixOf_iff_prefix.1 hp
        simp [← ht]
      · obtain ⟨⟨front, rest⟩, hb, heq⟩ := Option.map_eq_some_iff.1 h
        obtain ⟨rfl, rfl⟩ := Prod.mk.inj heq
        simp [ih hb]

/-- The text behind a mark is shorter than the whole. -/
theorem length_after_lt {mark cs before after : List Char} (hm : mark ≠ [])
    (h : breakOn mark cs = some (before, after)) : after.length < cs.length := by
  have hpos := List.length_pos_iff.2 hm
  rw [eq_append_of_breakOn h]
  simp only [List.length_append]
  omega

/-- `occurs` on strings. -/
def contains (s part : String) : Bool := occurs part.toList s.toList

/-- The first characters of a string. -/
def take (n : Nat) (s : String) : String := String.ofList (s.toList.take n)

/-- The number of characters of a string. -/
def size (s : String) : Nat := s.toList.length

/-- The pieces of a text between characters that satisfy `p`; one more than there are such
characters. -/
def splitAt (p : Char → Bool) : List Char → List (List Char)
  | [] => [[]]
  | c :: cs =>
    match splitAt p cs with
    | [] => [[c]]
    | piece :: rest => if p c then [] :: piece :: rest else (c :: piece) :: rest

/-- The strings joined with `mark` between them. -/
def joined (mark : String) (parts : List String) : String := mark.intercalate parts

/-! ### Recognisers -/

/-- What `find` recognises from here on, after `skip` characters that are passed over. -/
def scanFrom {α : Type} (find : List Char → List Char → Option (α × Nat)) (before : List Char) :
    Nat → List Char → List α
  | _, [] => []
  | skip + 1, c :: rest => scanFrom find (c :: before) skip rest
  | 0, c :: rest =>
    match find before (c :: rest) with
    | some (a, size) => a :: scanFrom find (c :: before) (size - 1) rest
    | none => scanFrom find (c :: before) 0 rest

/-- What `find` recognises in a text. -/
def scan {α : Type} (find : List Char → List Char → Option (α × Nat)) (cs : List Char) : List α :=
  scanFrom find [] 0 cs

end Archivist.Text
