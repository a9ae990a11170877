import Archivist.Answer.Context
import Archivist.Embedding.Cache
import Archivist.Failure
import Archivist.Json.Shape
import Archivist.Ranking.Rerank
import Archivist.Text.Search
import Archivist.Toml.Printer
import Archivist.Toml.Reader
import Archivist.Turn.Limiter

/-!
# Configuration

All settings with their defaults, in six tables. A setting that is not given has its default.
Settings are read from TOML or JSON, checked for values that make no sense, and printed as TOML.
-/

namespace Archivist

/-- The language model and the embedding provider. -/
structure ModelSettings where
  host : String := "127.0.0.1"
  port : Nat := 11434
  chatModel : String := "qwen2.5:7b-instruct"
  embeddingModel : String := "nomic-embed-text"
  timeoutSeconds : Nat := 60
  maxRetries : Nat := 2

/-- The course of a turn. -/
structure TurnSettings where
  /-- The number of remarks of the conversation that the language model is shown. -/
  historyTurns : Nat := 10
  toolTimeoutMs : Nat := 5000
  turnTimeoutMs : Nat := 60000
  maxConcurrentTools : Nat := 4
  minRelevance : Score := 0.35
  /-- Whether a language model gives a second opinion on results. -/
  sufficiencyCheck : Bool := false
  broadenDays : Int := 365
  defaultLimit : Nat := 10

/-- The ranking of documents. -/
structure RankSettings where
  vectorWeight : Score := 0.5
  keywordWeight : Score := 0.3
  judgedWeight : Score := 0.2
  judged : Bool := false
  maxCandidates : Nat := 15

/-- The embedding cache. -/
structure CacheSettings where
  capacity : Nat := 1024
  lifetimeSeconds : Nat := 3600
  maxInFlight : Nat := 4
  sweepSeconds : Nat := 60

/-- The rate limit of a caller. -/
structure LimitSettings where
  burst : Nat := 10
  refillPerSecond : Float := 0.5

/-- The expansion of search terms. -/
structure ExpansionSettings where
  maxAliases : Nat := 10
  synonymsPath : Option String := none

/-- All settings. -/
structure Config where
  llm : ModelSettings := {}
  agent : TurnSettings := {}
  rerank : RankSettings := {}
  cache : CacheSettings := {}
  rateLimit : LimitSettings := {}
  expansion : ExpansionSettings := {}

/-- A count of 64 bits. -/
def Json.asU64 (v : Json) : Except Mismatch Nat :=
  (v.asWhole 0 (Count.size 64 - 1) "u64").map Int.toNat

/-- A count of 32 bits. -/
def Json.asU32 (v : Json) : Except Mismatch Nat :=
  (v.asWhole 0 (Count.size 32 - 1) "u32").map Int.toNat

/-- A network port. -/
def Json.asPort (v : Json) : Except Mismatch Nat :=
  (v.asWhole 0 (Count.size 16 - 1) "u16").map Int.toNat

/-- A whole number of 64 bits. -/
def Json.asI64 (v : Json) : Except Mismatch Int :=
  v.asWhole (-Count.size 63) (Count.size 63 - 1) "i64"

/-- The slot of a setting. -/
def Slot.setting {α : Type} (key : String) (read : Json → Except Mismatch α) : Slot :=
  { key, check := Slot.checking read }

namespace ModelSettings

/-- The settings in a table. -/
def shape : Shape := ⟨"settings of the model", [
  .setting "host" Json.asString, .setting "port" Json.asPort,
  .setting "chat_model" Json.asString, .setting "embedding_model" Json.asString,
  .setting "request_timeout_secs" Json.asU64, .setting "max_retries" Json.asU32]⟩

/-- Reads the table. -/
def ofJson (v : Json) : Except Mismatch ModelSettings := do
  let ms ← shape.gather v
  let d : ModelSettings := {}
  let host ← ms.read "host" d.host Json.asString
  let port ← ms.read "port" d.port Json.asPort
  let chatModel ← ms.read "chat_model" d.chatModel Json.asString
  let embeddingModel ← ms.read "embedding_model" d.embeddingModel Json.asString
  let timeoutSeconds ← ms.read "request_timeout_secs" d.timeoutSeconds Json.asU64
  let maxRetries ← ms.read "max_retries" d.maxRetries Json.asU32
  .ok { host, port, chatModel, embeddingModel, timeoutSeconds, maxRetries }

/-- The table as it is printed. -/
def toToml (s : ModelSettings) : List (String × Toml.Value) := [
  ("host", .str s.host), ("port", .int s.port), ("chat_model", .str s.chatModel),
  ("embedding_model", .str s.embeddingModel), ("request_timeout_secs", .int s.timeoutSeconds),
  ("max_retries", .int s.maxRetries)]

end ModelSettings

namespace TurnSettings

/-- The settings in a table. -/
def shape : Shape := ⟨"settings of a turn", [
  .setting "history_turns" Json.asCount, .setting "tool_timeout_ms" Json.asU64,
  .setting "turn_timeout_ms" Json.asU64, .setting "max_concurrent_tools" Json.asCount,
  .setting "min_relevance" Json.asFloat32, .setting "llm_sufficiency_check" Json.asBool,
  .setting "date_broaden_days" Json.asI64, .setting "default_result_limit" Json.asCount]⟩

/-- Reads the table. -/
def ofJson (v : Json) : Except Mismatch TurnSettings := do
  let ms ← shape.gather v
  let d : TurnSettings := {}
  let historyTurns ← ms.read "history_turns" d.historyTurns Json.asCount
  let toolTimeoutMs ← ms.read "tool_timeout_ms" d.toolTimeoutMs Json.asU64
  let turnTimeoutMs ← ms.read "turn_timeout_ms" d.turnTimeoutMs Json.asU64
  let maxConcurrentTools ← ms.read "max_concurrent_tools" d.maxConcurrentTools Json.asCount
  let minRelevance ← ms.read "min_relevance" d.minRelevance Json.asFloat32
  let sufficiencyCheck ← ms.read "llm_sufficiency_check" d.sufficiencyCheck Json.asBool
  let broadenDays ← ms.read "date_broaden_days" d.broadenDays Json.asI64
  let defaultLimit ← ms.read "default_result_limit" d.defaultLimit Json.asCount
  .ok { historyTurns, toolTimeoutMs, turnTimeoutMs, maxConcurrentTools, minRelevance,
        sufficiencyCheck, broadenDays, defaultLimit }

/-- The table as it is printed. -/
def toToml (s : TurnSettings) : List (String × Toml.Value) := [
  ("history_turns", .int s.historyTurns), ("tool_timeout_ms", .int s.toolTimeoutMs),
  ("turn_timeout_ms", .int s.turnTimeoutMs),
  ("max_concurrent_tools", .int s.maxConcurrentTools),
  ("min_relevance", .float s.minRelevance.toFloat),
  ("llm_sufficiency_check", .bool s.sufficiencyCheck),
  ("date_broaden_days", .int s.broadenDays), ("default_result_limit", .int s.defaultLimit)]

end TurnSettings

namespace RankSettings

/-- The settings in a table. -/
def shape : Shape := ⟨"settings of the ranking", [
  .setting "w_vector" Json.asFloat32, .setting "w_keyword" Json.asFloat32,
  .setting "w_llm" Json.asFloat32, .setting "llm_rerank" Json.asBool,
  .setting "max_llm_candidates" Json.asCount]⟩

/-- Reads the table. -/
def ofJson (v : Json) : Except Mismatch RankSettings := do
  let ms ← shape.gather v
  let d : RankSettings := {}
  let vectorWeight ← ms.read "w_vector" d.vectorWeight Json.asFloat32
  let keywordWeight ← ms.read "w_keyword" d.keywordWeight Json.asFloat32
  let judgedWeight ← ms.read "w_llm" d.judgedWeight Json.asFloat32
  let judged ← ms.read "llm_rerank" d.judged Json.asBool
  let maxCandidates ← ms.read "max_llm_candidates" d.maxCandidates Json.asCount
  .ok { vectorWeight, keywordWeight, judgedWeight, judged, maxCandidates }

/-- The table as it is printed. -/
def toToml (s : RankSettings) : List (String × Toml.Value) := [
  ("w_vector", .float s.vectorWeight.toFloat), ("w_keyword", .float s.keywordWeight.toFloat),
  ("w_llm", .float s.judgedWeight.toFloat), ("llm_rerank", .bool s.judged),
  ("max_llm_candidates", .int s.maxCandidates)]

/-- The ranking with these settings. -/
def ranker (s : RankSettings) : Ranker where
  weights := { vector := s.vectorWeight, keyword := s.keywordWeight, judged := s.judgedWeight }
  maxJudged := s.maxCandidates

end RankSettings

namespace CacheSettings

/-- The settings in a table. -/
def shape : Shape := ⟨"settings of the cache", [
  .setting "capacity" Json.asCount, .setting "ttl_secs" Json.asU64,
  .setting "max_in_flight" Json.asCount, .setting "sweep_interval_secs" Json.asU64]⟩

/-- Reads the table. -/
def ofJson (v : Json) : Except Mismatch CacheSettings := do
  let ms ← shape.gather v
  let d : CacheSettings := {}
  let capacity ← ms.read "capacity" d.capacity Json.asCount
  let lifetimeSeconds ← ms.read "ttl_secs" d.lifetimeSeconds Json.asU64
  let maxInFlight ← ms.read "max_in_flight" d.maxInFlight Json.asCount
  let sweepSeconds ← ms.read "sweep_interval_secs" d.sweepSeconds Json.asU64
  .ok { capacity, lifetimeSeconds, maxInFlight, sweepSeconds }

/-- The table as it is printed. -/
def toToml (s : CacheSettings) : List (String × Toml.Value) := [
  ("capacity", .int s.capacity), ("ttl_secs", .int s.lifetimeSeconds),
  ("max_in_flight", .int s.maxInFlight), ("sweep_interval_secs", .int s.sweepSeconds)]

/-- The limits of a cache with these settings. -/
def limits (s : CacheSettings) : CacheLimits where
  capacity := s.capacity
  lifetime := s.lifetimeSeconds * Limiter.nanosPerSecond
  maxInFlight := s.maxInFlight

end CacheSettings

namespace LimitSettings

/-- The settings in a table. -/
def shape : Shape := ⟨"settings of the rate limit", [
  .setting "burst" Json.asU32, .setting "refill_per_sec" Json.asFloat]⟩

/-- Reads the table. -/
def ofJson (v : Json) : Except Mismatch LimitSettings := do
  let ms ← shape.gather v
  let d : LimitSettings := {}
  let burst ← ms.read "burst" d.burst Json.asU32
  let refillPerSecond ← ms.read "refill_per_sec" d.refillPerSecond Json.asFloat
  .ok { burst, refillPerSecond }

/-- The table as it is printed. -/
def toToml (s : LimitSettings) : List (String × Toml.Value) := [
  ("burst", .int s.burst), ("refill_per_sec", .float s.refillPerSecond)]

/-- A limiter with these settings. -/
def limiter (s : LimitSettings) : Limiter Float := .fresh s.burst s.refillPerSecond

end LimitSettings

namespace ExpansionSettings

/-- The settings in a table. -/
def shape : Shape := ⟨"settings of the expansion", [
  .setting "max_aliases_per_term" Json.asCount,
  .setting "synonyms_path" (Json.asOption Json.asString)]⟩

/-- Reads the table. -/
def ofJson (v : Json) : Except Mismatch ExpansionSettings := do
  let ms ← shape.gather v
  let d : ExpansionSettings := {}
  let maxAliases ← ms.read "max_aliases_per_term" d.maxAliases Json.asCount
  let synonymsPath ← ms.read "synonyms_path" d.synonymsPath (Json.asOption Json.asString)
  .ok { maxAliases, synonymsPath }

/-- The table as it is printed. -/
def toToml (s : ExpansionSettings) : List (String × Toml.Value) :=
  ("max_aliases_per_term", .int s.maxAliases) ::
    (s.synonymsPath.map fun p => ("synonyms_path", Toml.Value.str p)).toList

end ExpansionSettings

namespace Config

/-- The tables of the settings. -/
def shape : Shape := ⟨"a configuration", [
  .setting "llm" ModelSettings.ofJson, .setting "agent" TurnSettings.ofJson,
  .setting "rerank" RankSettings.ofJson, .setting "cache" CacheSettings.ofJson,
  .setting "rate_limit" LimitSettings.ofJson, .setting "expansion" ExpansionSettings.ofJson]⟩

/-- Reads all settings. -/
def ofJson (v : Json) : Except Mismatch Config := do
  let ms ← shape.gather v
  let llm ← ms.read "llm" {} ModelSettings.ofJson
  let agent ← ms.read "agent" {} TurnSettings.ofJson
  let rerank ← ms.read "rerank" {} RankSettings.ofJson
  let cache ← ms.read "cache" {} CacheSettings.ofJson
  let rateLimit ← ms.read "rate_limit" {} LimitSettings.ofJson
  let expansion ← ms.read "expansion" {} ExpansionSettings.ofJson
  .ok { llm, agent, rerank, cache, rateLimit, expansion }

/-- The number of settings in a table. -/
def settingsOf (table : String) : Nat :=
  match table with
  | "llm" => ModelSettings.shape.slots.length
  | "agent" => TurnSettings.shape.slots.length
  | "rerank" => RankSettings.shape.slots.length
  | "cache" => CacheSettings.shape.slots.length
  | "rate_limit" => LimitSettings.shape.slots.length
  | "expansion" => ExpansionSettings.shape.slots.length
  | _ => 0

/-- The settings of a file, in which a table may be given as an array with values beyond the last
setting; those are passed over. -/
def withoutSurplus : Json → Json
  | .obj tables => .obj (tables.map fun (name, table) => (name, match table with
    | .arr values => .arr (values.take (settingsOf name))
    | table => table))
  | v => v

/-- Why settings make no sense; the first reason counts. -/
def fault? (c : Config) : Option String :=
  if c.agent.toolTimeoutMs = 0 ∨ c.agent.turnTimeoutMs = 0 then
    some "tool_timeout_ms and turn_timeout_ms must be greater than 0"
  else if c.agent.maxConcurrentTools = 0 then
    some "max_concurrent_tools must be greater than 0"
  else if !(decide (0 ≤ c.agent.minRelevance) && decide (c.agent.minRelevance ≤ 1)) then
    some "min_relevance must be between 0.0 and 1.0"
  else if [c.rerank.vectorWeight, c.rerank.keywordWeight, c.rerank.judgedWeight].any
      (decide <| · < 0) then
    some "rerank weights must not be negative"
  else if c.cache.capacity = 0 ∨ c.cache.maxInFlight = 0 then
    some "cache capacity and max_in_flight must be greater than 0"
  else if c.rateLimit.burst = 0 ∨ c.rateLimit.refillPerSecond < 0 then
    some "rate_limit burst must be positive and refill_per_sec non-negative"
  else none

/-- The settings, unless they make no sense. -/
def validate (c : Config) : Except Failure Config :=
  match c.fault? with
  | some reason => .error (.config reason)
  | none => .ok c

/-- Reads and checks the settings of a file. -/
def load (text : String) : Except Failure Config :=
  match (Toml.read? text).map fun v => ofJson (withoutSurplus v) with
  | some (.ok c) => c.validate
  | some (.error m) => .error (.config ("Failed to parse config: " ++ m.message))
  | none => .error (.config "Failed to parse config: TOML parse error")

/-- The failure to read a file that does not exist. -/
def missingFile : Failure :=
  .config "Failed to read config: No such file or directory (os error 2)"

/-- The tables as they are printed. -/
def toToml (c : Config) : List (String × List (String × Toml.Value)) := [
  ("llm", c.llm.toToml), ("agent", c.agent.toToml), ("rerank", c.rerank.toToml),
  ("cache", c.cache.toToml), ("rate_limit", c.rateLimit.toToml),
  ("expansion", c.expansion.toToml)]

/-- Whether a value can be written. -/
def fits : Toml.Value → Bool
  | .int n => decide (n < Count.size 63)
  | _ => true

/-- The text of a configuration file. -/
def render (c : Config) : Except Failure String :=
  if c.toToml.all (·.2.all fun (_, v) => fits v) then .ok (Toml.render c.toToml)
  else .error (.config "Failed to serialize config: out-of-range value for u64 type")

/-- The address of the language model. -/
def url (c : Config) : String := s!"http://{c.llm.host}:{c.llm.port}"

/-- A path in which `~/` stands for the home directory. -/
def expandPath (home : String) (path : String) : String :=
  match path.toList with
  | '~' :: '/' :: '/' :: rest => String.ofList ('/' :: rest)
  | '~' :: '/' :: rest => home ++ "/" ++ String.ofList rest
  | _ => path

/-- The file with synonyms, if there is one. -/
def synonymsFile (c : Config) (home : String) : Option String :=
  c.expansion.synonymsPath.map (expandPath home)

end Config

end Archivist
