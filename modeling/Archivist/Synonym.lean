import Archivist.Text.Blank
import Archivist.Text.Case

/-!
# Synonyms

Groups of terms that mean the same. Terms are compared without the white space around them and
regardless of case. The first term of a group is its canonical form; a term may be in several
groups.
-/

namespace Archivist

/-- The form in which terms are compared. -/
def foldTerm (term : String) : String := Text.lowered (Text.trimmed term)

/-- Adds a term to a list unless the list has it in some spelling. -/
def addTerm (terms : List String) (term : String) : List String :=
  if terms.any (foldTerm · = foldTerm term) then terms else terms ++ [term]

/-- A group without blank and repeated terms, each trimmed. -/
def cleanGroup (group : List String) : List String :=
  ((group.map Text.trimmed).filter (· ≠ "")).foldl addTerm []

/-- A dictionary of synonyms: its groups are clean and not empty. -/
structure SynonymIndex where
  groups : List (List String)
  deriving DecidableEq

namespace SynonymIndex

/-- The dictionary with these groups. -/
def ofGroups (groups : List (List String)) : SynonymIndex :=
  ⟨(groups.map cleanGroup).filter (· ≠ [])⟩

/-- The terms of all groups in the form in which they are compared, each with the position of its
group. -/
def postings (index : SynonymIndex) : List (String × Nat) :=
  index.groups.zipIdx.flatMap fun (group, i) => group.map fun term => (foldTerm term, i)

/-- The positions of the groups that a term is in. -/
def positions (index : SynonymIndex) (term : String) : List Nat :=
  index.postings.filterMap fun (folded, i) => if folded = foldTerm term then some i else none

/-- The groups that a term is in. -/
def groupsOf (index : SynonymIndex) (term : String) : List (List String) :=
  (index.positions term).filterMap (index.groups[·]?)

/-- The members of all groups that a term is in, the term among them, each in one spelling. -/
def synonyms (index : SynonymIndex) (term : String) : List String :=
  (index.groupsOf term).flatten.foldl addTerm []

/-- The first member of the first group that a term is in. -/
def canonical? (index : SynonymIndex) (term : String) : Option String :=
  (index.groupsOf term).head?.bind (·.head?)

/-- The canonical form of a term, or the term itself if it is in no group. -/
def display (index : SynonymIndex) (term : String) : String := (index.canonical? term).getD term

/-- The number of groups. -/
def size (index : SynonymIndex) : Nat := index.groups.length

/-- The dictionary after an attempt to load new groups: nothing changes if that fails. -/
def reload {ε : Type} (index : SynonymIndex) (source : Except ε (List (List String))) :
    SynonymIndex :=
  match source with
  | .ok groups => ofGroups groups
  | .error _ => index

end SynonymIndex

end Archivist
