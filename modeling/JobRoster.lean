import JobRoster.CommandLine.Arguments
import JobRoster.CommandLine.Demand
import JobRoster.CommandLine.Run
import JobRoster.Crate.Constant
import JobRoster.Crate.Folding
import JobRoster.Crate.Host
import JobRoster.Crate.ItemPath
import JobRoster.Crate.Loading
import JobRoster.Crate.Model
import JobRoster.Crate.Reference
import JobRoster.Crate.Resolution
import JobRoster.Crate.Scope
import JobRoster.Crate.UseTree
import JobRoster.Declaration.Basic
import JobRoster.Declaration.Declarations
import JobRoster.Files.FilePath
import JobRoster.Files.FileTree
import JobRoster.Files.IoError
import JobRoster.Files.Snapshot
import JobRoster.Files.Sources
import JobRoster.Job.Arguments
import JobRoster.Job.Basic
import JobRoster.Job.Diagnostic
import JobRoster.Job.Extraction
import JobRoster.Job.Failure
import JobRoster.Job.Roster
import JobRoster.Main
import JobRoster.Package.Basic
import JobRoster.Package.Build
import JobRoster.Package.Loading
import JobRoster.Package.Manifest
import JobRoster.Pass.Cancellation
import JobRoster.Pass.Run
import JobRoster.Pass.Stats
import JobRoster.Proofs.Crate.Interning
import JobRoster.Proofs.Job.Order
import JobRoster.Proofs.Job.Roster
import JobRoster.Proofs.Pass.Uncancelled
import JobRoster.Settings.Basic
import JobRoster.Settings.Validation
import JobRoster.Syntax.Grammar
import JobRoster.Syntax.Grammar.Attribute
import JobRoster.Syntax.Grammar.Expr
import JobRoster.Syntax.Grammar.Item
import JobRoster.Syntax.Grammar.Pattern
import JobRoster.Syntax.Grammar.Stmt
import JobRoster.Syntax.Grammar.Ty
import JobRoster.Syntax.Lexer
import JobRoster.Syntax.Numeral
import JobRoster.Syntax.Parser
import JobRoster.Syntax.Quotation
import JobRoster.Syntax.Source
import JobRoster.Syntax.Token
import JobRoster.Syntax.Tree
import JobRoster.Text.Blank
import JobRoster.Text.CodePoints
import JobRoster.Text.Identifier
import JobRoster.Text.IdentifierTables
import JobRoster.Text.PrintableTables
import JobRoster.Text.Quoted
import JobRoster.Text.Segments
import JobRoster.Toml.Decode
import JobRoster.Toml.Document
import JobRoster.Toml.Number
import JobRoster.Toml.Scanner
import JobRoster.Toml.Text
import JobRoster.Toml.Value
import JobRoster.Unit.DirectorySink
import JobRoster.Unit.Rendering
import JobRoster.Unit.Sink
import JobRoster.Proofs.Package.Registration
import JobRoster.Proofs.Pass.Relevance
import JobRoster.Proofs.Pass.Workers
import JobRoster.Proofs.Pass.AllOrNothing
import JobRoster.Proofs.Package.Sequence
import JobRoster.Proofs.Crate.Canonical
import JobRoster.Proofs.Crate.Alias
import JobRoster.Proofs.Crate.Qualified
import JobRoster.Proofs.Crate.PlainSearch
import JobRoster.Proofs.Crate.GlobOrder
import JobRoster.Proofs.Crate.Called
import JobRoster.Proofs.Crate.ItemPath
import JobRoster.Proofs.Package.OwnMarker
import JobRoster.Proofs.Package.ShortName
import JobRoster.Proofs.Syntax.Composing
import JobRoster.Proofs.Syntax.Lines
import JobRoster.Proofs.Syntax.LiteralText
import JobRoster.Proofs.Syntax.Spelling
import JobRoster.Proofs.Unit.Names
import JobRoster.Proofs.Unit.Tokens
import JobRoster.Proofs.Unit.Tree
import JobRoster.Proofs.Crate.Reference
import JobRoster.Proofs.Job.Extraction
import JobRoster.Proofs.Package.TypePaths
import JobRoster.Proofs.Package.Nameable
import JobRoster.Proofs.Crate.Reading
import JobRoster.Proofs.Crate.TestItems
import JobRoster.Proofs.Crate.ModuleFiles
import JobRoster.Proofs.Crate.Nesting
import JobRoster.Proofs.Syntax.Moving
import JobRoster.Proofs.Syntax.TypeRules
import JobRoster.Proofs.Unit.Calls
import JobRoster.Proofs.Unit.Rendered
import JobRoster.Proofs.Crate.Coherent
import JobRoster.Proofs.Crate.Folding
import JobRoster.Proofs.Pass.Accounting
import JobRoster.Proofs.Text.Delimited
import JobRoster.Proofs.Unit.ReadBack
import JobRoster.Proofs.Syntax.ExprRules
import JobRoster.Proofs.Syntax.ItemRules
import JobRoster.Proofs.Crate.GlobReach
import JobRoster.Proofs.Crate.LeastReference
import JobRoster.Proofs.Crate.Prefixes
import JobRoster.Proofs.Crate.DeclaredNames
import JobRoster.Proofs.Crate.OwnPaths
import JobRoster.Proofs.Job.Arguments
import JobRoster.Proofs.Job.Fields
import JobRoster.Proofs.Job.Normalizing
import JobRoster.Proofs.Job.Complaints
import JobRoster.Proofs.Job.Precedence
import JobRoster.Proofs.Job.Clashes
import JobRoster.Proofs.Pass.Symbols
import JobRoster.Proofs.Text.Pieces
import JobRoster.Proofs.Package.ByPath
import JobRoster.Proofs.Files.Joining
import JobRoster.Proofs.Crate.Places
import JobRoster.Proofs.Crate.ModulePaths
import JobRoster.Proofs.Crate.Enclosing
import JobRoster.Proofs.Crate.Restricted
import JobRoster.Proofs.Unit.LiteralValue
import JobRoster.Proofs.Unit.TypeReference
import JobRoster.Proofs.Crate.UseLeaves
import JobRoster.Proofs.Crate.PathText
import JobRoster.Proofs.Crate.Journal
import JobRoster.Proofs.Unit.DirectorySink
