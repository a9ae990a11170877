import Archivist.Number.Scalar

/-!
# Similarity of Embeddings

An embedding is a vector of single-precision numbers. The similarity of two is the cosine of the
angle between them, cut to the range from 0 to 1; vectors of different length, empty vectors and
vectors of length zero are not similar to anything.
-/

namespace Archivist

/-- The scores of documents. -/
abbrev Score := Float32

/-- A text as a vector. -/
abbrev Embedding := List Float32

/-- The dot product of two vectors and the squares of their lengths, added up in order. -/
def products : Embedding → Embedding → Float32 × Float32 × Float32 →
    Float32 × Float32 × Float32
  | x :: xs, y :: ys, (dot, a, b) => products xs ys (dot + x * y, a + x * x, b + y * y)
  | _, _, sums => sums

/-- The cosine similarity of two vectors. -/
def similarity (a b : Embedding) : Score :=
  if a.length ≠ b.length ∨ a = [] then 0
  else
    let (dot, a2, b2) := products a b (0, 0, 0)
    if a2 == 0 || b2 == 0 then 0 else Scalar.clampUnit (dot / (a2.sqrt * b2.sqrt))

/-- The larger of two scores; a score that is not a number does not count. -/
def larger (x y : Score) : Score :=
  if x.isNaN then y else if x < y then y else x

end Archivist
