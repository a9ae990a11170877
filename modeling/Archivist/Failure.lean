import Archivist.Text.Quoted

/-!
# Failures

Everything that can go wrong while a question is answered, by cause. A failure has three faces:
`message` names it for the log and may quote what a collaborator said, `code` is the stable word
that a client receives, and `userMessage` is the sentence that a user may read. The last two never
depend on what a collaborator said.
-/

namespace Archivist

/-- A cause of failure. -/
inductive Failure where
  /-- A turn was told to take a step that its state does not allow. -/
  | badTransition (source target reason : String)
  /-- The language model could not complete a request. -/
  | completion (text : String)
  /-- The embedding provider could not embed a text. -/
  | embedding (text : String)
  /-- The document store or the knowledge graph failed. -/
  | store (text : String)
  /-- A provider answered with an HTTP status other than success. -/
  | status (code : Nat) (body : String)
  /-- A streamed answer broke off. -/
  | stream (text : String)
  /-- A stream of JSON objects could not be split. -/
  | unsplittable (text : String)
  /-- A tool name outside the catalogue. -/
  | unknownTool (name : String)
  /-- A tool was called with arguments that it does not take. -/
  | badArguments (tool reason : String)
  /-- One tool call took too long. -/
  | toolTimeout (tool : String) (ms : Nat)
  /-- A caller asked for too many turns. -/
  | rateLimited (caller : String) (retryAfterMs : Nat)
  /-- A whole turn took too long. -/
  | turnTimeout (ms : Nat)
  /-- An HTTP request could not be made or its answer not be read. `passing` tells whether the
  same request may succeed later. -/
  | transport (passing : Bool) (text : String)
  /-- A JSON text that is malformed or describes something else than expected. -/
  | malformed (text : String)
  /-- A file could not be read or written. -/
  | file (text : String)
  /-- The configuration is missing or wrong. -/
  | config (text : String)
  /-- A provider did not answer in time. -/
  | timeout (ms : Nat)
  /-- Any other cause. -/
  | other (text : String)
  deriving Inhabited

namespace Failure

/-- The text of a failure for the log. -/
def message : Failure → String
  | badTransition source target reason =>
    "Invalid state transition from " ++ Text.quoted source ++ " to " ++ Text.quoted target ++
      ": " ++ reason
  | completion text => "LLM provider error: " ++ text
  | embedding text => "Embedding provider error: " ++ text
  | store text => "Store error: " ++ text
  | status code body => s!"Provider returned HTTP {code}: {body}"
  | stream text => "Streaming error: " ++ text
  | unsplittable text => "JSON parse error: " ++ text
  | unknownTool name => "Unknown tool: " ++ name
  | badArguments tool reason => s!"Invalid arguments for {tool}: {reason}"
  | toolTimeout tool ms => s!"Tool {tool} timed out after {ms}ms"
  | rateLimited caller ms => s!"Rate limit exceeded for caller {caller}, retry in {ms}ms"
  | turnTimeout ms => s!"Turn timed out after {ms}ms"
  | transport _ text => "HTTP request failed: " ++ text
  | malformed text => "Serialization error: " ++ text
  | file text => "I/O error: " ++ text
  | config text => "Configuration error: " ++ text
  | timeout ms => s!"Operation timed out after {ms}ms"
  | other text => "Agent error: " ++ text

/-- The stable word for a client. -/
def code : Failure → String
  | rateLimited .. => "rate_limited"
  | turnTimeout .. | timeout .. | toolTimeout .. => "timeout"
  | completion .. | embedding .. | status .. | stream .. | transport .. => "provider_error"
  | store .. => "store_error"
  | unknownTool .. | badArguments .. => "invalid_request"
  | badTransition .. | unsplittable .. | malformed .. | file .. | config .. | other .. =>
    "internal_error"

/-- The sentence for a user. -/
def userMessage : Failure → String
  | rateLimited _ ms => s!"請求過於頻繁，請於 {max ((ms + 999) / 1000) 1} 秒後再試。"
  | turnTimeout .. | timeout .. | toolTimeout .. => "查詢逾時，請縮小查詢範圍後再試一次。"
  | completion .. | embedding .. | status .. | stream .. | transport .. =>
    "AI 服務暫時無法使用，請稍後再試。"
  | _ => "處理您的問題時發生錯誤，請稍後再試。"

/-- Whether the same provider request may succeed when it is repeated: the connection failed, the
answer came too late or broke off, or the provider was overloaded or out of order. -/
def isTransient : Failure → Bool
  | timeout .. | stream .. => true
  | transport passing _ => passing
  | status code _ => 500 ≤ code || code = 429
  | _ => false

end Failure

end Archivist
