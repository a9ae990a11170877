import Archivist.Text.Blank

/-!
# Tools

The six tools with which questions are looked into. Their names are what plans call them by.
-/

namespace Archivist

/-- A tool. -/
inductive ToolName where
  | searchDocuments
  | searchDispatchOrders
  | searchEntities
  | getEntityDetail
  | findSimilar
  | getStatistics
  deriving DecidableEq

namespace ToolName

/-- Every tool, in the order in which they are presented. -/
def all : List ToolName :=
  [searchDocuments, searchDispatchOrders, searchEntities, getEntityDetail, findSimilar,
    getStatistics]

/-- The name of a tool in a plan. -/
def word : ToolName → String
  | searchDocuments => "search_documents"
  | searchDispatchOrders => "search_dispatch_orders"
  | searchEntities => "search_entities"
  | getEntityDetail => "get_entity_detail"
  | findSimilar => "find_similar"
  | getStatistics => "get_statistics"

/-- The tool with a name; white space around it does not count. -/
def read? (name : String) : Option ToolName := all.find? (·.word = Text.trimmed name)

/-- The tools that look into the knowledge graph. -/
def isEntityTool (t : ToolName) : Bool := t = searchEntities || t = getEntityDetail

end ToolName

end Archivist
