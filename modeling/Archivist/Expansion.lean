import Archivist.Collaborator
import Archivist.Number.Count
import Archivist.Synonym

/-!
# Expansion of Search Terms

Search terms are widened by their synonyms and by the names under which the knowledge graph knows
an entity that they name. The terms themselves come first, and no term comes twice. A term for
which the graph fails keeps its synonyms and gains nothing else.
-/

namespace Archivist

/-- How terms are widened. -/
structure Expander where
  index : SynonymIndex
  /-- Whether there is a knowledge graph to ask. -/
  hasGraph : Bool := true
  /-- The most names that the graph adds to a term. -/
  maxAliases : Nat := 10

/-- Adds a term, trimmed, unless it is blank or the list has it. -/
def pushTerm (terms : List String) (term : String) : List String :=
  let term := Text.trimmed term
  if term = "" || term ∈ terms then terms else terms ++ [term]

/-- Adds names until the list has a given length. -/
def pushUpTo (limit : Nat) (terms names : List String) : List String :=
  names.foldl (fun terms name => if limit ≤ terms.length then terms else pushTerm terms name) terms

namespace Expander

/-- A term and the names of the entities that have it as a name, as many as `maxAliases` allows. The
sum is one of machine words and wraps around, as it does in a release build: with the largest
`maxAliases` a term that is not blank has a cap of 0, and no name is added to it. -/
def aliases (x : Expander) (term : String) : Action (List String) := do
  let own := pushTerm [] term
  if !x.hasGraph then return own
  let named ← Action.ask (.aliasesNamed term)
  let ids := named.map (·.entityId)
  let canonical ← Action.ask (.entitiesNamed term)
  let ids := canonical.foldl (fun ids e => if e.id ∈ ids then ids else ids ++ [e.id]) ids
  if ids = [] then return own
  let limit := Count.wrap (own.length + x.maxAliases)
  let entities ← Action.ask (.entitiesById ids)
  let known := pushUpTo limit own (entities.map (·.canonicalName))
  let others ← Action.ask (.aliasesFor ids)
  return pushUpTo limit known (others.map (·.name))

/-- The terms with their synonyms, without blank and repeated ones. -/
def withSynonyms (x : Expander) (asked : List String) : List String :=
  (asked.flatMap x.index.synonyms).foldl pushTerm asked

/-- Adds the names of entities to a list, term by term. -/
def addAliases (x : Expander) : List String → List String → Action (List String)
  | [], terms => return terms
  | term :: rest, terms => do
    let terms := match ← (x.aliases term).caught with
      | .ok names => names.foldl pushTerm terms
      | .error _ => terms
    x.addAliases rest terms

/-- The terms, then their synonyms, then the names of the entities that they name. -/
def expand (x : Expander) (terms : List String) : Action (List String) :=
  let asked := terms.foldl pushTerm []
  x.addAliases asked (x.withSynonyms asked)

end Expander

end Archivist
