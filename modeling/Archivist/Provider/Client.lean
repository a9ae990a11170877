import Archivist.Config
import Archivist.Number.Count
import Archivist.Provider.Exchange
import Archivist.Provider.Wire
import Archivist.Retry
import Archivist.Store.Answer

/-!
# Clients of an Ollama Server

A client asks an Ollama server for completions and embeddings. Whole completions and embeddings
are asked for again if a failure may pass; a stream is asked for once, because a part of it may
have been shown already.

With a corpus that answers for the document store and the knowledge graph, a client makes up the
environment of an assistant (`Client.environment`). Its state is the corpus with the state of the
server. `unreachable` is the server that nobody can reach: fixed replies to small talk are all that
an assistant can give without a language model.
-/

namespace Archivist.Provider

/-- A client. -/
structure Client where
  /-- The address of the server, without a slash at the end. -/
  baseUrl : String := "http://127.0.0.1:11434"
  model : String := "qwen2.5:7b-instruct"
  embeddingModel : String := "nomic-embed-text"
  /-- Milliseconds that a query may take. -/
  timeoutMs : Nat := 60000
  retry : RetryPolicy := {}

namespace Client

/-- An address without slashes at its end. -/
def withoutSlashes (url : String) : String :=
  String.ofList (Text.dropEndWhile (· = '/') url.toList)

/-- A client of the server at an address. -/
def of (url model : String) (timeoutMs : Nat) : Client :=
  { baseUrl := withoutSlashes url, model, timeoutMs }

/-- The client that the settings describe. -/
def ofConfig (c : Config) : Client :=
  { Client.of c.url c.llm.chatModel (Count.wrap (c.llm.timeoutSeconds * 1000)) with
    embeddingModel := c.llm.embeddingModel
    retry := { maxAttempts := Count.wrap (c.llm.maxRetries + 1) 32, baseDelay := 250 } }

/-- The query for a completion. -/
def chatQuery (c : Client) (r : ChatRequest) (streamed : Bool) : Query :=
  { posts := true, url := c.baseUrl ++ "/api/chat", body := chatBody c.model r streamed }

/-- The query for an embedding. -/
def embeddingQuery (c : Client) (text : String) : Query :=
  { posts := true, url := c.baseUrl ++ "/api/embeddings"
    body := embeddingBody c.embeddingModel text }

/-- The query for the server's health. -/
def healthQuery (c : Client) : Query :=
  { posts := false, url := c.baseUrl ++ "/api/version", body := .null }

variable {σ : Type}

/-- Sends a query and reads the body of the answer. -/
def exchange {α : Type} (c : Client) (server : Server σ) (q : Query)
    (read : List (List UInt8) → Bool → Except Failure α) (s : σ) : Except Failure α × σ :=
  let (response, s) := server q s
  ((response.body c.timeoutMs).bind fun (pieces, isCut) => read pieces isCut, s)

/-- Asks for a completion as a whole. -/
def complete (c : Client) (server : Server σ) (r : ChatRequest) (s : σ) :
    Except Failure String × σ :=
  let (done, s) := c.retry.run (c.exchange server (c.chatQuery r false) readCompletion) s
  (done.outcome, s)

/-- Asks for a completion piece by piece. -/
def stream (c : Client) (server : Server σ) (r : ChatRequest) (s : σ) :
    Except Failure (List Chunk) × σ :=
  c.exchange server (c.chatQuery r true)
    (fun pieces isCut => .ok (readStream isCut {} pieces)) s

/-- Asks for an embedding. -/
def embed (c : Client) (server : Server σ) (text : String) (s : σ) :
    Except Failure (Option Embedding) × σ :=
  let (done, s) := c.retry.run (c.exchange server (c.embeddingQuery text) readEmbedding) s
  (done.outcome, s)

/-- Whether the server is there and well. -/
def isHealthy (c : Client) (server : Server σ) (s : σ) : Bool × σ :=
  match server c.healthQuery s with
  | (.answer status _ _, s) => (isSuccess status, s)
  | (_, s) => (false, s)

end Client

/-! ### A client and a corpus as environment -/

variable {σ : Type}

/-- A server that cannot be reached. -/
def unreachable : Server σ := fun _ s => (.unreachable, s)

/-- An answer without delay, and the state that it leaves behind. -/
def answerNow {q : Ask} (corpus : Corpus) (answered : Reply q × σ) :
    Archivist.Response q × Corpus × σ :=
  (⟨0, some answered.1⟩, corpus, answered.2)

/-- The environment of a corpus and a client. -/
def Client.environment (c : Client) (server : Server σ) : Environment where
  State := Corpus × σ
  respond
    | .complete r, (corpus, s) => answerNow corpus (c.complete server r s)
    | .stream r, (corpus, s) => answerNow corpus (c.stream server r s)
    | .embedding text, (corpus, s) => answerNow corpus (c.embed server text s)
    | q, (corpus, s) => (⟨0, (corpus.value? q).map .ok⟩, corpus, s)

end Archivist.Provider
