import CodeRetrieval.Text.Casing
import CodeRetrieval.Text.Lines
import CodeRetrieval.Question.Analysis
import CodeRetrieval.Json.Reader
import CodeRetrieval.Json.Printer
import CodeRetrieval.Decimal.Fixed
import CodeRetrieval.Fragment.Encoding
import CodeRetrieval.Embedding.Batch
import CodeRetrieval.Store.Memory
import CodeRetrieval.Store.Table
import CodeRetrieval.Session
import CodeRetrieval.Context
import CodeRetrieval.Text.Pattern
import CodeRetrieval.Source.Declaration
import CodeRetrieval.Source.Documentation
import CodeRetrieval.Source.Outline
import CodeRetrieval.Toml.Value
import CodeRetrieval.Toml.Scalar
import CodeRetrieval.Toml.Document
import CodeRetrieval.Toml.Printer
import CodeRetrieval.Chunk.Artifacts
import CodeRetrieval.Retrieval.Answer
import CodeRetrieval.Source.Grammar.File
import CodeRetrieval.Settings.Document
import CodeRetrieval.Files.Tree
import CodeRetrieval.Files.Glob
import CodeRetrieval.Files.Scan
import CodeRetrieval.Index.Schedule
import CodeRetrieval.Index.Build
import CodeRetrieval.Index.Run
import CodeRetrieval.Service.Address
import CodeRetrieval.Service.Network
import CodeRetrieval.Service.Embedding
import CodeRetrieval.Service.Generation
import CodeRetrieval.Calendar
import CodeRetrieval.Store.Database
import CodeRetrieval.Retrieval.Encoding
import CodeRetrieval.Command.Arguments
import CodeRetrieval.Command.Progress
import CodeRetrieval.Command.Report
import CodeRetrieval.Command.Chat
import CodeRetrieval.Command.Run
import CodeRetrieval.Server
import CodeRetrieval.Main
import CodeRetrieval.Source.Encoding
import CodeRetrieval.Index.Encoding
import CodeRetrieval.Settings.Encoding
import CodeRetrieval.Proofs.Index.Convergence
import CodeRetrieval.Proofs.Index.Reset
import CodeRetrieval.Proofs.Retrieval.Filter
import CodeRetrieval.Proofs.Store.Refinement
import CodeRetrieval.Proofs.Chunk.Bound
import CodeRetrieval.Proofs.Chunk.Documents
import CodeRetrieval.Proofs.Source.Outline
import CodeRetrieval.Proofs.Chunk.Origin
import CodeRetrieval.Proofs.Chunk.References
import CodeRetrieval.Proofs.Chunk.Spans
import CodeRetrieval.Proofs.Index.Schedule
import CodeRetrieval.Proofs.Source.Names
import CodeRetrieval.Proofs.Source.Grammar.Steps
import CodeRetrieval.Proofs.Source.Grammar.Names
import CodeRetrieval.Proofs.Chunk.Ids
import CodeRetrieval.Proofs.Chunk.Lookup
import CodeRetrieval.Proofs.Chunk.Clashes
import CodeRetrieval.Proofs.Retrieval.Repetition
import CodeRetrieval.Proofs.Index.Failure
import CodeRetrieval.Proofs.Embedding.Places
import CodeRetrieval.Proofs.Index.Vectors
import CodeRetrieval.Proofs.Embedding.Requests
import CodeRetrieval.Proofs.Store.Invariants
import CodeRetrieval.Proofs.Store.Naming
import CodeRetrieval.Proofs.Retrieval.Protocol
import CodeRetrieval.Proofs.Retrieval.Listing
import CodeRetrieval.Proofs.Retrieval.Dependencies
import CodeRetrieval.Proofs.Retrieval.DocumentReport
import CodeRetrieval.Proofs.Chunk.Order
import CodeRetrieval.Proofs.Source.Outline.Declarations
import CodeRetrieval.Proofs.Source.Outline.Nesting
import CodeRetrieval.Proofs.Chunk.Passages
import CodeRetrieval.Proofs.Chunk.Keys
import CodeRetrieval.Proofs.Chunk.Location
import CodeRetrieval.Proofs.Chunk.Summary
import CodeRetrieval.Proofs.Chunk.Members
import CodeRetrieval.Proofs.Ranking.Fusion
import CodeRetrieval.Proofs.Ranking.Dominance
import CodeRetrieval.Proofs.Ranking.Keyword
import CodeRetrieval.Proofs.Question.Analysis
import CodeRetrieval.Proofs.Question.Intent
import CodeRetrieval.Proofs.Command.Chat
import CodeRetrieval.Proofs.Embedding.Outages
import CodeRetrieval.Proofs.Service.Network
import CodeRetrieval.Proofs.Server
import CodeRetrieval.Proofs.Chunk.Truncation
import CodeRetrieval.Proofs.Source.TypeList
import CodeRetrieval.Proofs.Service.Embedding
