import PagePreview.CommandLine.Export
import PagePreview.CommandLine.Failure
import PagePreview.CommandLine.Invocation
import PagePreview.CommandLine.Run
import PagePreview.CommandLine.Sharing
import PagePreview.CommandLine.Shell
import PagePreview.CommandLine.Switches
import PagePreview.Console.Bootstrap
import PagePreview.Console.Command
import PagePreview.Console.Contexts
import PagePreview.Console.Execution
import PagePreview.Console.Message
import PagePreview.Console.Prompt
import PagePreview.Console.Session
import PagePreview.Decimal.Nearest
import PagePreview.Decimal.Notation
import PagePreview.Engine.Block
import PagePreview.Engine.Class
import PagePreview.Engine.Context
import PagePreview.Engine.Convert
import PagePreview.Engine.Declarations
import PagePreview.Engine.Display
import PagePreview.Engine.Evaluation
import PagePreview.Engine.Expression
import PagePreview.Engine.Function
import PagePreview.Engine.Iteration
import PagePreview.Engine.Legality
import PagePreview.Engine.Library
import PagePreview.Engine.Library.Arrays
import PagePreview.Engine.Library.Basic
import PagePreview.Engine.Library.Collections
import PagePreview.Engine.Library.Dates
import PagePreview.Engine.Library.Functions
import PagePreview.Engine.Library.Globals
import PagePreview.Engine.Library.JsonText
import PagePreview.Engine.Library.Numbers
import PagePreview.Engine.Library.Objects
import PagePreview.Engine.Library.Patterns
import PagePreview.Engine.Library.Promises
import PagePreview.Engine.Library.Texts
import PagePreview.Engine.Matching
import PagePreview.Engine.Module
import PagePreview.Engine.Operate
import PagePreview.Engine.Pattern
import PagePreview.Engine.Pausing
import PagePreview.Engine.Promise
import PagePreview.Engine.Property
import PagePreview.Engine.Reading
import PagePreview.Engine.Realm
import PagePreview.Engine.Run
import PagePreview.Engine.Scope
import PagePreview.Engine.Statement
import PagePreview.Engine.Value
import PagePreview.Files.Tree
import PagePreview.Import.Library
import PagePreview.Import.Origin
import PagePreview.Import.Resolution
import PagePreview.Json.Basic
import PagePreview.Json.Fault
import PagePreview.Json.Printer
import PagePreview.Json.Reader
import PagePreview.Json.Record
import PagePreview.Main
import PagePreview.Markup.Builder
import PagePreview.Markup.Doctype
import PagePreview.Markup.Document
import PagePreview.Markup.Node
import PagePreview.Markup.Normalize
import PagePreview.Markup.Token
import PagePreview.Page.Fragment
import PagePreview.Page.Launch
import PagePreview.Page.Preparation
import PagePreview.Proofs.CommandLine.Formatting
import PagePreview.Proofs.Console.ContextNumbers
import PagePreview.Proofs.Console.FailedDrains
import PagePreview.Proofs.Console.HistoryWalk
import PagePreview.Proofs.Console.PostOrder
import PagePreview.Proofs.Console.Quoting
import PagePreview.Proofs.Console.SessionLog
import PagePreview.Proofs.Console.ShownMessages
import PagePreview.Proofs.Files.Writing
import PagePreview.Proofs.Import.AddedLibrary
import PagePreview.Proofs.Import.DeclaredNames
import PagePreview.Proofs.Import.LeadingAway
import PagePreview.Proofs.Import.LibraryAddress
import PagePreview.Proofs.Import.LibraryNames
import PagePreview.Proofs.Import.NormalForm
import PagePreview.Proofs.Import.Origins
import PagePreview.Proofs.Import.PlainNames
import PagePreview.Proofs.Import.ResolvedTree
import PagePreview.Proofs.Json.QuotedText
import PagePreview.Proofs.Markup.BodiesInHeads
import PagePreview.Proofs.Markup.Building
import PagePreview.Proofs.Markup.ByteReader
import PagePreview.Proofs.Markup.ByteSafety
import PagePreview.Proofs.Markup.ByteTags
import PagePreview.Proofs.Markup.Contents
import PagePreview.Proofs.Markup.DoctypeReading
import PagePreview.Proofs.Markup.DoctypeText
import PagePreview.Proofs.Markup.Editing
import PagePreview.Proofs.Markup.Elements
import PagePreview.Proofs.Markup.Growing
import PagePreview.Proofs.Markup.HeadDepth
import PagePreview.Proofs.Markup.JoinedRow
import PagePreview.Proofs.Markup.PrintableEdit
import PagePreview.Proofs.Markup.Reprinting
import PagePreview.Proofs.Markup.Rereading
import PagePreview.Proofs.Markup.RootShape
import PagePreview.Proofs.Markup.SettledTree
import PagePreview.Proofs.Page.GuardedScripts
import PagePreview.Proofs.Page.Pointwise
import PagePreview.Proofs.Page.Prepared
import PagePreview.Proofs.Page.Rereading
import PagePreview.Proofs.Page.SettledFormat
import PagePreview.Proofs.Page.SharedLinks
import PagePreview.Proofs.Script.ImportDeclarations
import PagePreview.Proofs.Script.ImportedNames
import PagePreview.Proofs.Script.Lexemes
import PagePreview.Proofs.Script.Postconditions
import PagePreview.Proofs.Script.TokensAhead
import PagePreview.Proofs.Script.WordImports
import PagePreview.Proofs.Server.HeadRequests
import PagePreview.Proofs.Text.Base64Groups
import PagePreview.Proofs.Text.ByteOffsets
import PagePreview.Proofs.Text.ByteScans
import PagePreview.Proofs.Text.Pieces
import PagePreview.Proofs.Url.Addresses
import PagePreview.Proofs.Url.Authorities
import PagePreview.Proofs.Url.Directories
import PagePreview.Proofs.Url.HostNames
import PagePreview.Proofs.Url.HostNumbers
import PagePreview.Proofs.Url.Hosts
import PagePreview.Proofs.Url.Paths
import PagePreview.Proofs.Url.Places
import PagePreview.Proofs.Url.PunycodeRoundTrip
import PagePreview.Proofs.Url.RelativePaths
import PagePreview.Proofs.Url.Rereading
import PagePreview.Script.Compiler
import PagePreview.Script.Literal
import PagePreview.Script.Lowering
import PagePreview.Script.Lowering.Constant
import PagePreview.Script.Lowering.Enums
import PagePreview.Script.Lowering.Markup
import PagePreview.Script.Lowering.Modules
import PagePreview.Script.Lowering.Names
import PagePreview.Script.Lowering.Namespaces
import PagePreview.Script.Lowering.Types
import PagePreview.Script.Numeral
import PagePreview.Script.Operator
import PagePreview.Script.Parser
import PagePreview.Script.Parser.Expressions
import PagePreview.Script.Parser.Functions
import PagePreview.Script.Parser.Markup
import PagePreview.Script.Parser.Modules
import PagePreview.Script.Parser.Names
import PagePreview.Script.Parser.Parameters
import PagePreview.Script.Parser.State
import PagePreview.Script.Parser.Statements
import PagePreview.Script.Parser.Types
import PagePreview.Script.Pipeline
import PagePreview.Script.Printer
import PagePreview.Script.Printer.Expressions
import PagePreview.Script.Printer.Output
import PagePreview.Script.Printer.Statements
import PagePreview.Script.Printer.Types
import PagePreview.Script.Syntax
import PagePreview.Script.Token
import PagePreview.Server.Browser
import PagePreview.Server.Response
import PagePreview.Settings.Layer
import PagePreview.Text.Base64
import PagePreview.Text.Blank
import PagePreview.Text.Composition
import PagePreview.Text.Entity
import PagePreview.Text.Hex
import PagePreview.Text.Identifier
import PagePreview.Text.LetterCase
import PagePreview.Text.Search
import PagePreview.Text.Units
import PagePreview.Text.Utf8
import PagePreview.Text.Visible
import PagePreview.Url.Basic
import PagePreview.Url.Host
import PagePreview.Url.Idna
import PagePreview.Url.Parser
import PagePreview.Url.PathReader
import PagePreview.Url.Percent
import PagePreview.Url.Punycode
