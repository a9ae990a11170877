import Archivist.Answer.Context
import Archivist.Answer.Sanitizer
import Archivist.Answer.Synthesis
import Archivist.Calendar.Date
import Archivist.Calendar.Written
import Archivist.Collaborator
import Archivist.CommandLine.Flag
import Archivist.CommandLine.Reader
import Archivist.CommandLine.Usage
import Archivist.Concurrency.Gate
import Archivist.Concurrency.Lane
import Archivist.Config
import Archivist.Conversation
import Archivist.Embedding.Batch
import Archivist.Embedding.Cache
import Archivist.Embedding.Flight
import Archivist.Embedding.Similarity
import Archivist.Event
import Archivist.Expansion
import Archivist.Failure
import Archivist.Json.Basic
import Archivist.Json.Field
import Archivist.Json.Layout
import Archivist.Json.Printer
import Archivist.Json.Reader
import Archivist.Json.Shape
import Archivist.Json.Splitter
import Archivist.Number.Binary
import Archivist.Number.Count
import Archivist.Number.Decimal
import Archivist.Number.Scalar
import Archivist.Order.Stable
import Archivist.Plan.Basic
import Archivist.Plan.Correction
import Archivist.Plan.Hints
import Archivist.Plan.Judgment
import Archivist.Plan.Merge
import Archivist.Plan.Period
import Archivist.Plan.Planner
import Archivist.Plan.Prompt
import Archivist.Plan.Reader
import Archivist.Program
import Archivist.Proofs.Answer.Residue
import Archivist.Proofs.Answer.Streamed
import Archivist.Proofs.Embedding.Deserted
import Archivist.Proofs.Embedding.Recency
import Archivist.Proofs.Embedding.SingleFlight
import Archivist.Proofs.Expansion.Gathering
import Archivist.Proofs.Json.Objects
import Archivist.Proofs.Plan.Periods
import Archivist.Proofs.Plan.Ranges
import Archivist.Proofs.Plan.Reading
import Archivist.Proofs.Plan.Sufficiency
import Archivist.Proofs.Plan.Widening
import Archivist.Proofs.Provider.Retrying
import Archivist.Proofs.Provider.Streaming
import Archivist.Proofs.Ranking.Credit
import Archivist.Proofs.Ranking.Judging
import Archivist.Proofs.Retrieval.Degrading
import Archivist.Proofs.Retrieval.Repeated
import Archivist.Proofs.Store.Indexing
import Archivist.Proofs.Store.Keyword
import Archivist.Proofs.Store.Statistics
import Archivist.Proofs.Tool.Floor
import Archivist.Proofs.Tool.Malformed
import Archivist.Proofs.Tool.Similar
import Archivist.Proofs.Turn.Citing
import Archivist.Proofs.Turn.Course
import Archivist.Proofs.Turn.Machine
import Archivist.Proofs.Turn.Race
import Archivist.Proofs.Turn.Smalltalk
import Archivist.Proofs.Turn.Waiting
import Archivist.Proofs.Turn.Wording
import Archivist.Provider.Client
import Archivist.Provider.Exchange
import Archivist.Provider.Wire
import Archivist.Ranking.Coverage
import Archivist.Ranking.Rerank
import Archivist.Ranking.Verdict
import Archivist.Rehearsal.Progress
import Archivist.Rehearsal.Reader
import Archivist.Rehearsal.Script
import Archivist.Rehearsal.Server
import Archivist.Retrieval.Document
import Archivist.Retrieval.Search
import Archivist.Retry
import Archivist.Screen.Printer
import Archivist.Screen.Tally
import Archivist.Screen.Verbosity
import Archivist.Store.Answer
import Archivist.Store.Corpus
import Archivist.Store.Entity
import Archivist.Store.File
import Archivist.Store.Filter
import Archivist.Store.Record
import Archivist.Synonym
import Archivist.Text.Blank
import Archivist.Text.Case
import Archivist.Text.CaseTable
import Archivist.Text.Digest
import Archivist.Text.Digit
import Archivist.Text.HiddenTable
import Archivist.Text.Quoted
import Archivist.Text.Search
import Archivist.Text.Utf16
import Archivist.Text.Utf8
import Archivist.Toml.Printer
import Archivist.Toml.Reader
import Archivist.Toml.Token
import Archivist.Tool.Call
import Archivist.Tool.Catalogue
import Archivist.Tool.Name
import Archivist.Tool.Output
import Archivist.Tool.Request
import Archivist.Tool.Round
import Archivist.Tool.Terms
import Archivist.Tool.Toolbox
import Archivist.Turn.Assembly
import Archivist.Turn.Limiter
import Archivist.Turn.Run
import Archivist.Turn.Sink
import Archivist.Turn.Smalltalk
import Archivist.Turn.State
import Archivist.Main
