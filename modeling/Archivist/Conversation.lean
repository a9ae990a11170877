import Archivist.Json.Shape

/-!
# Conversations

What was said before the question at hand, and what is sent to the language model: a list of
messages with the sampling settings that fit the task.
-/

namespace Archivist

/-- Who said something in the conversation. -/
inductive Speaker where
  | user
  | assistant
  deriving DecidableEq

/-- One earlier message of the conversation. -/
structure Remark where
  speaker : Speaker
  content : String
  deriving DecidableEq

/-- The most recent `most` entries of a history. -/
def recent {α : Type} (most : Nat) (history : List α) : List α :=
  history.drop (history.length - most)

namespace Speaker

/-- The word for a speaker. -/
def word : Speaker → String
  | user => "user"
  | assistant => "assistant"

/-- Reads the word for a speaker. -/
def ofJson (v : Json) : Except Mismatch Speaker :=
  (v.asWord ["user", "assistant"]).map fun w => if w = "user" then user else assistant

end Speaker

namespace Remark

/-- The members of a remark. -/
def shape : Shape where
  name := "a remark"
  slots := [
    { key := "role", optional := false, check := Slot.checking Speaker.ofJson },
    { key := "content", optional := false, check := Slot.checking Json.asString }]

/-- Reads a remark. -/
def ofJson (v : Json) : Except Mismatch Remark := do
  let ms ← shape.gather v
  let speaker ← ms.read "role" .user Speaker.ofJson
  let content ← ms.read "content" "" Json.asString
  .ok { speaker, content }

/-- A remark as it travels. -/
def toJson (r : Remark) : Json := .obj [
  ("role", .str r.speaker.word), ("content", .str r.content)]

end Remark

/-- What a completion is used for. -/
inductive Task where
  | planning
  | evaluation
  | rerank
  | synthesis
  | chitchat
  deriving DecidableEq

namespace Task

/-- The word for a task. -/
def word : Task → String
  | planning => "planning"
  | evaluation => "evaluation"
  | rerank => "rerank"
  | synthesis => "synthesis"
  | chitchat => "chitchat"

/-- Every task. -/
def all : List Task := [planning, evaluation, rerank, synthesis, chitchat]

end Task

/-- Whose voice a message to the language model has. -/
inductive ChatRole where
  | system
  | user
  | assistant
  deriving DecidableEq

/-- The word for a role. -/
def ChatRole.word : ChatRole → String
  | system => "system"
  | user => "user"
  | assistant => "assistant"

/-- One message to the language model. -/
structure ChatMessage where
  role : ChatRole
  content : String
  deriving DecidableEq

/-- An earlier message of the conversation as a message to the language model. -/
def Remark.toMessage (r : Remark) : ChatMessage where
  role := match r.speaker with
    | .user => .user
    | .assistant => .assistant
  content := r.content

/-- A request for a completion. -/
structure ChatRequest where
  task : Task
  messages : List ChatMessage
  temperature : Float32
  maxTokens : Nat

namespace ChatRequest

/-- A request with the settings of its task: judgments are made at a low temperature and in few
tokens, answers are longer, small talk is looser. -/
def forTask (task : Task) (messages : List ChatMessage) : ChatRequest :=
  let (temperature, maxTokens) : Float32 × Nat := match task with
    | .planning | .evaluation | .rerank => (0.1, 512)
    | .synthesis => (0.3, 2048)
    | .chitchat => (0.7, 256)
  { task, messages, temperature, maxTokens }

/-- The content of the last message of the user. -/
def lastUserContent (r : ChatRequest) : Option String :=
  (r.messages.reverse.find? (·.role = .user)).map (·.content)

end ChatRequest

end Archivist
