import ApiSurface.Cli.Arguments
import ApiSurface.Cli.Run
import ApiSurface.Code.Parser
import ApiSurface.Code.Term
import ApiSurface.Code.Token
import ApiSurface.Config
import ApiSurface.CrossReference
import ApiSurface.Decimal.Fixed
import ApiSurface.Decimal.Shortest
import ApiSurface.Decimal.Unsigned
import ApiSurface.Diagnostic.Rules
import ApiSurface.Digest.Blake3
import ApiSurface.Digest.Bytes
import ApiSurface.Distinct
import ApiSurface.Engine
import ApiSurface.Extraction.Assembly
import ApiSurface.Extraction.Conventions
import ApiSurface.Extraction.Dependencies
import ApiSurface.Extraction.ErrorTypes
import ApiSurface.Extraction.Hierarchy
import ApiSurface.Extraction.Identity
import ApiSurface.Extraction.Ledger
import ApiSurface.Extraction.Order
import ApiSurface.Extraction.Run
import ApiSurface.Failure
import ApiSurface.Files.Path
import ApiSurface.Files.Pattern
import ApiSurface.Files.Root
import ApiSurface.Files.Tree
import ApiSurface.Files.Walk
import ApiSurface.Fingerprint
import ApiSurface.Go.Conventions
import ApiSurface.Go.Extractor
import ApiSurface.Go.Grammar
import ApiSurface.Go.Lexer
import ApiSurface.Go.Parser
import ApiSurface.Go.Statement
import ApiSurface.Go.Stub
import ApiSurface.Go.Surface
import ApiSurface.Go.Tree
import ApiSurface.Index.Basic
import ApiSurface.Index.Json
import ApiSurface.Java.Comment
import ApiSurface.Java.Conventions
import ApiSurface.Java.Extractor
import ApiSurface.Java.Grammar
import ApiSurface.Java.Lexer
import ApiSurface.Java.Parser
import ApiSurface.Java.Project
import ApiSurface.Java.Statement
import ApiSurface.Java.Stub
import ApiSurface.Java.Surface
import ApiSurface.Java.Tree
import ApiSurface.Json.Basic
import ApiSurface.Json.Decoder
import ApiSurface.Json.Printer
import ApiSurface.Json.Reader
import ApiSurface.Language
import ApiSurface.Main
import ApiSurface.Process.BoundedReader
import ApiSurface.Process.ByteSource
import ApiSurface.Process.Capture
import ApiSurface.Process.Executable
import ApiSurface.Process.Machine
import ApiSurface.Process.Sandbox
import ApiSurface.Process.Timeout
import ApiSurface.Python.Conventions
import ApiSurface.Python.Expression
import ApiSurface.Python.Extractor
import ApiSurface.Python.Lexer
import ApiSurface.Python.Literal
import ApiSurface.Python.Overload
import ApiSurface.Python.Parser
import ApiSurface.Python.Project
import ApiSurface.Python.Scope
import ApiSurface.Python.Stub
import ApiSurface.Python.Surface
import ApiSurface.Python.Tree
import ApiSurface.Reference.Graph
import ApiSurface.Reference.Prune
import ApiSurface.Reference.Table
import ApiSurface.Script.Builtin
import ApiSurface.Script.Expansion
import ApiSurface.Script.Reader
import ApiSurface.Script.Run
import ApiSurface.Script.State
import ApiSurface.Script.Tree
import ApiSurface.Text.Blank
import ApiSurface.Text.Cut
import ApiSurface.Text.Name
import ApiSurface.Text.Quoted
import ApiSurface.Text.Summary
import ApiSurface.Text.UpperCase
import ApiSurface.Text.Utf8
import ApiSurface.Text.Word
import ApiSurface.Toml.Basic
import ApiSurface.Toml.Reader
import ApiSurface.Toolchain.Basic
import ApiSurface.Toolchain.Cache
import ApiSurface.Toolchain.Manifest
import ApiSurface.Toolchain.Resolver
import ApiSurface.Toolchain.Run
import ApiSurface.Usage.Clients
import ApiSurface.Usage.Report
import ApiSurface.Usage.Samples
import ApiSurface.Usage.Scan
import ApiSurface.Proofs.Lists
import ApiSurface.Proofs.Reference.Key
import ApiSurface.Proofs.Text.Name
import ApiSurface.Proofs.Reference.Reachability
import ApiSurface.Proofs.Reference.Resolution
import ApiSurface.Proofs.Reference.Restriction
import ApiSurface.Proofs.Reference.Scope
import ApiSurface.Proofs.Reference.Edges
import ApiSurface.Proofs.Reference.Prune
import ApiSurface.Proofs.Reference.Roots
import ApiSurface.Proofs.Reference.Stability
import ApiSurface.Proofs.Reference.Functions
import ApiSurface.Proofs.Reference.Frame
import ApiSurface.Proofs.Reference.Implementers
import ApiSurface.Proofs.Reference.Order
import ApiSurface.Proofs.Text.Utf8
import ApiSurface.Proofs.Text.Lossy
import ApiSurface.Proofs.Text.Incremental
import ApiSurface.Proofs.Text.Summary
import ApiSurface.Proofs.Process.Capture
import ApiSurface.Proofs.Extraction.Origin
import ApiSurface.Proofs.Extraction.Interleaving
import ApiSurface.Proofs.Extraction.Schedule
import ApiSurface.Proofs.Extraction.Identity
import ApiSurface.Proofs.Extraction.Assembly
import ApiSurface.Proofs.Extraction.Arrival
import ApiSurface.Proofs.Extraction.Accounting
import ApiSurface.Proofs.Extraction.ErrorSearch
import ApiSurface.Proofs.Extraction.ErrorOrder
import ApiSurface.Proofs.Extraction.Determinism
import ApiSurface.Proofs.Extraction.ErrorTypes
import ApiSurface.Proofs.Extraction.ErrorParents
import ApiSurface.Proofs.Json.Reading
import ApiSurface.Proofs.Json.Decoding
import ApiSurface.Proofs.Index.Json
import ApiSurface.Proofs.Diagnostic.Merge
import ApiSurface.Proofs.Index.CrossReference
import ApiSurface.Proofs.Fingerprint.Encoding
import ApiSurface.Proofs.Files.Walk
import ApiSurface.Proofs.Extraction.Inputs
import ApiSurface.Proofs.Fingerprint.Reuse
import ApiSurface.Proofs.Usage.Clients
import ApiSurface.Proofs.Usage.Report
import ApiSurface.Proofs.Usage.Samples
import ApiSurface.Proofs.Extraction.Hierarchy
import ApiSurface.Proofs.Extraction.Dependencies
import ApiSurface.Proofs.Diagnostic.DeprecatedParameters
import ApiSurface.Proofs.Toolchain.Cache
import ApiSurface.Proofs.Toolchain.Answer
import ApiSurface.Proofs.Toolchain.Run
import ApiSurface.Proofs.Toolchain.History
import ApiSurface.Proofs.Toolchain.Search
import ApiSurface.Proofs.Go.Constructors
import ApiSurface.Proofs.Go.Stub
import ApiSurface.Proofs.Decimal.Unsigned
import ApiSurface.Proofs.Config
import ApiSurface.Proofs.Python.Stub
import ApiSurface.Proofs.Python.Overload
import ApiSurface.Proofs.Java.Surface
import ApiSurface.Proofs.Process.BoundedReader
