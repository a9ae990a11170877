import Archivist.Config
import Archivist.Turn.Run

/-!
# Putting an Assistant Together

The settings say how each part of an assistant works; `Config.assistant` puts the parts together.
Only the dictionary of synonyms, whether there is a knowledge graph, and the day come from outside.
-/

namespace Archivist.Config

/-- The expansion of search terms. -/
def expander (c : Config) (synonyms : SynonymIndex) (hasGraph : Bool) : Expander where
  index := synonyms
  hasGraph := hasGraph
  maxAliases := c.expansion.maxAliases

/-- What tools work with. -/
def toolbox (c : Config) (x : Expander) : Toolbox where
  ranker := c.rerank.ranker
  expander := x
  defaultLimit := c.agent.defaultLimit
  judged := c.rerank.judged

/-- How rounds of tool calls are run. -/
def workshop (c : Config) (x : Expander) : Workshop where
  toolbox := c.toolbox x
  allowance := c.agent.toolTimeoutMs
  maxParallel := c.agent.maxConcurrentTools

/-- How results are judged. -/
def judge (c : Config) : Judge where
  minRelevance := c.agent.minRelevance
  asksModel := c.agent.sufficiencyCheck

/-- How insufficient results are corrected. -/
def corrector (c : Config) (x : Expander) : Corrector where
  expander := x
  broadenDays := c.agent.broadenDays

/-- An assistant with these settings. -/
def assistant (c : Config) (x : Expander) (today : Date) : Assistant where
  workshop := c.workshop x
  planner := { today, historyTurns := c.agent.historyTurns }
  judge := c.judge
  corrector := c.corrector x
  allowance := c.agent.turnTimeoutMs

end Archivist.Config
