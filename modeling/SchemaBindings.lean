import SchemaBindings.CommandLine.Arguments
import SchemaBindings.CommandLine.FileTree
import SchemaBindings.CommandLine.Run
import SchemaBindings.Diagnostic
import SchemaBindings.Json.Basic
import SchemaBindings.Json.Reader
import SchemaBindings.Json.Writer
import SchemaBindings.KeyedList
import SchemaBindings.Main
import SchemaBindings.Model.Basic
import SchemaBindings.Model.Build
import SchemaBindings.Model.BuildError
import SchemaBindings.Model.Encoding
import SchemaBindings.Model.Stable
import SchemaBindings.Model.Type
import SchemaBindings.Model.Value
import SchemaBindings.Naming.Reserved
import SchemaBindings.Naming.Style
import SchemaBindings.Naming.Words
import SchemaBindings.Number.Double
import SchemaBindings.Number.Layout
import SchemaBindings.Number.Reading
import SchemaBindings.Number.Shortest
import SchemaBindings.Proofs.Attempt
import SchemaBindings.Proofs.CommandLine.Generation
import SchemaBindings.Proofs.Model.References
import SchemaBindings.Proofs.Model.RoundTrip
import SchemaBindings.Proofs.Schema.CyclePaths
import SchemaBindings.Proofs.Schema.InputCycles
import SchemaBindings.Proofs.Schema.Loading
import SchemaBindings.Proofs.Schema.Merging
import SchemaBindings.Proofs.Schema.Operations
import SchemaBindings.Proofs.Schema.Validity
import SchemaBindings.Proofs.Schema.WellFormed
import SchemaBindings.Proofs.Sdl.Boundaries
import SchemaBindings.Proofs.Sdl.Combinators
import SchemaBindings.Proofs.Sdl.Definitions
import SchemaBindings.Proofs.Sdl.Documents
import SchemaBindings.Proofs.Sdl.Layout
import SchemaBindings.Proofs.Sdl.Markers
import SchemaBindings.Proofs.Sdl.Members
import SchemaBindings.Proofs.Sdl.Parsing
import SchemaBindings.Proofs.Sdl.Reading
import SchemaBindings.Proofs.Sdl.Scanning
import SchemaBindings.Proofs.Sdl.Sentence
import SchemaBindings.Proofs.Sdl.Tokens
import SchemaBindings.Proofs.Sdl.TypeDefinitions
import SchemaBindings.Proofs.Sdl.Types
import SchemaBindings.Proofs.Sdl.Values
import SchemaBindings.Proofs.Source.Lines
import SchemaBindings.Schema.Basic
import SchemaBindings.Schema.Fault
import SchemaBindings.Schema.Load
import SchemaBindings.Schema.Merge
import SchemaBindings.Schema.Validation
import SchemaBindings.Sdl.Cursor
import SchemaBindings.Sdl.Document
import SchemaBindings.Sdl.Grammar
import SchemaBindings.Sdl.Lexer
import SchemaBindings.Sdl.Marker
import SchemaBindings.Sdl.Parser
import SchemaBindings.Sdl.StringValue
import SchemaBindings.Sdl.Token
import SchemaBindings.Source.File
import SchemaBindings.Source.NameTable
import SchemaBindings.Source.Span
import SchemaBindings.Tables
import SchemaBindings.Target.Bindings
import SchemaBindings.Target.Clash
import SchemaBindings.Target.ClassShape
import SchemaBindings.Target.Comment
import SchemaBindings.Target.Dart
import SchemaBindings.Target.Dialect
import SchemaBindings.Target.GdScript
import SchemaBindings.Target.Kotlin
import SchemaBindings.Target.Language
import SchemaBindings.Target.Literal
import SchemaBindings.Target.Place
import SchemaBindings.Target.Quoting
import SchemaBindings.Target.Record
import SchemaBindings.Target.Storage
import SchemaBindings.Target.Summary
import SchemaBindings.Target.Swift
import SchemaBindings.Target.TypeReference
import SchemaBindings.Target.TypeScript
import SchemaBindings.Template.Basic
import SchemaBindings.Template.Evaluation
import SchemaBindings.Template.Tidy
import SchemaBindings.Text.Alphanumeric
import SchemaBindings.Text.Blank
import SchemaBindings.Text.Bytes
import SchemaBindings.Text.CodeRange
import SchemaBindings.Text.Hex
import SchemaBindings.Text.Letter
import SchemaBindings.Text.Lines
import SchemaBindings.Text.Quoted
import SchemaBindings.Text.Visible
import SchemaBindings.Proofs.Model.Defaults
import SchemaBindings.Proofs.Schema.Declarations
import SchemaBindings.Proofs.Source.Openings
import SchemaBindings.Proofs.Schema.Annotations
import SchemaBindings.Proofs.Model.Faults
import SchemaBindings.Proofs.Model.TableRows
import SchemaBindings.Proofs.Model.UnionMarkers
import SchemaBindings.Proofs.Model.Outlines
import SchemaBindings.Proofs.Model.DefaultOrigins
import SchemaBindings.Proofs.Target.Rendering
import SchemaBindings.Proofs.Model.FileBoundaries
import SchemaBindings.Proofs.Model.SchemaExtensions
import SchemaBindings.Proofs.Target.FileNames
import SchemaBindings.Proofs.Target.Storage
import SchemaBindings.Proofs.Model.FutureMarkers
import SchemaBindings.Proofs.Target.Identifiers
import SchemaBindings.Proofs.Target.Parameters
import SchemaBindings.Proofs.Target.Enums
import SchemaBindings.Proofs.Target.Defaults
import SchemaBindings.Proofs.Target.Quoting
import SchemaBindings.Proofs.Sdl.BlockStrings
import SchemaBindings.Proofs.Target.Coercion
import SchemaBindings.Proofs.Sdl.StringLines
import SchemaBindings.Proofs.Target.BlockComments
import SchemaBindings.Proofs.Target.LineComments
import SchemaBindings.Proofs.Template.Tidying
import SchemaBindings.Proofs.Template.Blocks
import SchemaBindings.Proofs.Target.Placement
import SchemaBindings.Proofs.Model.Records
import SchemaBindings.Proofs.Target.Protocols
import SchemaBindings.Proofs.Target.Classes
import SchemaBindings.Proofs.Target.ClassChains
import SchemaBindings.Proofs.Target.Supertypes
import SchemaBindings.Proofs.Target.Nullability
import SchemaBindings.Proofs.Schema.Rearranging
import SchemaBindings.Proofs.Model.TypeReferences
import SchemaBindings.Proofs.Model.Displays
import SchemaBindings.Proofs.Target.TrailingDefaults
import SchemaBindings.Proofs.Source.Numbering
import SchemaBindings.Proofs.Source.LineTable
import SchemaBindings.Proofs.Source.Positions
import SchemaBindings.Proofs.Sdl.LexicalFaults
import SchemaBindings.Proofs.Sdl.Termination
import SchemaBindings.Proofs.Sdl.Nesting
import SchemaBindings.Proofs.Sdl.MarkerSpans
import SchemaBindings.Proofs.Model.OutputTypes
import SchemaBindings.Proofs.Target.Placeholders
import SchemaBindings.Proofs.Sdl.ByteTokens
import SchemaBindings.Proofs.Model.WrittenTypes
