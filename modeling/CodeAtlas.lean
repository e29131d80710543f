import CodeAtlas.Analysis.Run
import CodeAtlas.Analysis.Stages
import CodeAtlas.AppError
import CodeAtlas.Batches
import CodeAtlas.Decimal.Shortest
import CodeAtlas.Generation.Basic
import CodeAtlas.Generation.Provider
import CodeAtlas.Generation.Reply
import CodeAtlas.Generation.Retry
import CodeAtlas.Grammar.PythonForms
import CodeAtlas.Grammar.PythonWords
import CodeAtlas.Grammar.Reader
import CodeAtlas.Grammar.RustForms
import CodeAtlas.Grammar.RustTypes
import CodeAtlas.Grammar.RustWords
import CodeAtlas.Grammar.ScriptForms
import CodeAtlas.Grammar.ScriptTypes
import CodeAtlas.Grammar.ScriptWords
import CodeAtlas.Host.Address
import CodeAtlas.Host.Basic
import CodeAtlas.Host.Rest
import CodeAtlas.Host.Selection
import CodeAtlas.Http
import CodeAtlas.Ident
import CodeAtlas.Instant
import CodeAtlas.Json.Basic
import CodeAtlas.Json.Decode
import CodeAtlas.Json.Read
import CodeAtlas.Language
import CodeAtlas.Outline.Artifact
import CodeAtlas.Outline.Codec
import CodeAtlas.Outline.Extract
import CodeAtlas.Outline.Finding
import CodeAtlas.Outline.Python
import CodeAtlas.Outline.Rust
import CodeAtlas.Outline.Script
import CodeAtlas.Profile.Basic
import CodeAtlas.Profile.Codec
import CodeAtlas.Profile.Index
import CodeAtlas.Profile.Metrics
import CodeAtlas.Record.Basic
import CodeAtlas.Record.Codec
import CodeAtlas.Search.Engine
import CodeAtlas.Search.Intent
import CodeAtlas.Search.Match
import CodeAtlas.Search.Patterns
import CodeAtlas.Search.Query
import CodeAtlas.Search.Rank
import CodeAtlas.Search.Score
import CodeAtlas.Service.Answer
import CodeAtlas.Service.Basic
import CodeAtlas.Service.Launch
import CodeAtlas.Service.Registration
import CodeAtlas.Settings
import CodeAtlas.Sorted
import CodeAtlas.Store.Archive
import CodeAtlas.Store.Basic
import CodeAtlas.Summary.Basic
import CodeAtlas.Summary.Features
import CodeAtlas.Summary.Overview
import CodeAtlas.Summary.Structure
import CodeAtlas.Summary.TechStack
import CodeAtlas.SyntaxTree.Census
import CodeAtlas.SyntaxTree.Node
import CodeAtlas.SyntaxTree.Walk
import CodeAtlas.Text.Blank
import CodeAtlas.Text.CaseTable
import CodeAtlas.Text.Find
import CodeAtlas.Text.Lines
import CodeAtlas.Text.Lower
import CodeAtlas.Text.Name
import CodeAtlas.Text.NameTable
import CodeAtlas.Text.Quoted
import CodeAtlas.Text.VisibleTable
import CodeAtlas.Proofs.Json.Numbers
import CodeAtlas.Proofs.Json.Texts
import CodeAtlas.Proofs.Json.Forms
import CodeAtlas.Proofs.Outline.Written
import CodeAtlas.Proofs.Profile.Written
import CodeAtlas.Proofs.Record.Written
import CodeAtlas.Proofs.Store.Records
import CodeAtlas.Proofs.Store.Operations
import CodeAtlas.Proofs.Store.Reading
import CodeAtlas.Proofs.Store.Lifecycle
import CodeAtlas.Proofs.Store.Durability
import CodeAtlas.Proofs.Store.Repositories
import CodeAtlas.Proofs.Service.Demands
import CodeAtlas.Proofs.Analysis.Stream
import CodeAtlas.Proofs.Analysis.Turns
import CodeAtlas.Proofs.Analysis.Concurrent
import CodeAtlas.Proofs.Service.Serial
import CodeAtlas.Proofs.Service.Overlap
import CodeAtlas.Proofs.Generation.Prompts
import CodeAtlas.Proofs.Json.Lowering
import CodeAtlas.Proofs.Search.Completeness
import CodeAtlas.Proofs.Search.Soundness
import CodeAtlas.Proofs.Analysis.Isolation
import CodeAtlas.Proofs.Decimal.Floats
import CodeAtlas.Proofs.Generation.Delays
import CodeAtlas.Proofs.Search.Stream
import CodeAtlas.Proofs.Search.Results
import CodeAtlas.Proofs.Search.Restriction
import CodeAtlas.Proofs.Search.Order
import CodeAtlas.Proofs.Store.History
import CodeAtlas.Proofs.Store.Document
import CodeAtlas.Proofs.Host.Selection
import CodeAtlas.Proofs.Profile.Counts
import CodeAtlas.Proofs.Search.Ties
import CodeAtlas.Proofs.Service.Registry
import CodeAtlas.Proofs.Search.Paths
import CodeAtlas.Proofs.Search.Points
import CodeAtlas.Proofs.Search.Listing
import CodeAtlas.Proofs.Search.Indexed
import CodeAtlas.Proofs.Generation.Sanitizing
import CodeAtlas.Proofs.Search.Monotonicity
import CodeAtlas.Proofs.Search.Verbatim
import CodeAtlas.Proofs.Analysis.Fetching
import CodeAtlas.Proofs.Generation.Attempts
import CodeAtlas.Proofs.Outline.Branches
import CodeAtlas.Proofs.Outline.UseSplitting
import CodeAtlas.Proofs.Outline.Docstrings
import CodeAtlas.Proofs.Outline.Methods
import CodeAtlas.Proofs.Outline.Outcome
import CodeAtlas.Proofs.Generation.Replies
import CodeAtlas.Proofs.Summary.NormalForms
import CodeAtlas.Proofs.Search.Repetitions
import CodeAtlas.Proofs.Outline.StartLines
import CodeAtlas.Proofs.Host.Addresses
