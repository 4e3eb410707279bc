import CommandLine.Decimal.Shortest
import CommandLine.Descriptor
import CommandLine.Diagnostic
import CommandLine.Json
import CommandLine.Json.Lexeme
import CommandLine.Json.Limit
import CommandLine.Json.Printer
import CommandLine.Json.Reader
import CommandLine.Json.Shown
import CommandLine.Log
import CommandLine.Main
import CommandLine.Proofs.Abbreviation
import CommandLine.Proofs.Agreement
import CommandLine.Proofs.Bound
import CommandLine.Proofs.Canonical
import CommandLine.Proofs.Classification
import CommandLine.Proofs.ClusterResolution
import CommandLine.Proofs.Concatenation
import CommandLine.Proofs.CursorLoop
import CommandLine.Proofs.DirectTables
import CommandLine.Proofs.Failure
import CommandLine.Proofs.FileEffects
import CommandLine.Proofs.FullNames
import CommandLine.Proofs.Grammar
import CommandLine.Proofs.JsonRoundTrip
import CommandLine.Proofs.Lexemes
import CommandLine.Proofs.LogTrace
import CommandLine.Proofs.LongResolution
import CommandLine.Proofs.LongSearch
import CommandLine.Proofs.Lookahead
import CommandLine.Proofs.Loop
import CommandLine.Proofs.NextElement
import CommandLine.Proofs.OperandOrder
import CommandLine.Proofs.Outcome
import CommandLine.Proofs.Phrase
import CommandLine.Proofs.PlaceLoop
import CommandLine.Proofs.PlainReport
import CommandLine.Proofs.Provenance
import CommandLine.Proofs.QuotedText
import CommandLine.Proofs.ReadValues
import CommandLine.Proofs.RecordInvariant
import CommandLine.Proofs.Rewriting
import CommandLine.Proofs.RuleExtent
import CommandLine.Proofs.Scanning
import CommandLine.Proofs.Selection
import CommandLine.Proofs.SessionLifetime
import CommandLine.Proofs.SessionTexts
import CommandLine.Proofs.Spellings
import CommandLine.Proofs.Stores
import CommandLine.Proofs.StructuredReport
import CommandLine.Proofs.TableBuilding
import CommandLine.Proofs.TableFiles
import CommandLine.Proofs.TableGrowth
import CommandLine.Proofs.TableOrder
import CommandLine.Proofs.TableRepetition
import CommandLine.Proofs.TokenParts
import CommandLine.Proofs.ToolDecoding
import CommandLine.Proofs.ToolFiles
import CommandLine.Proofs.ToolRequest
import CommandLine.Proofs.ToolRestatement
import CommandLine.Proofs.ToolRuns
import CommandLine.Proofs.TreeFiles
import CommandLine.Record
import CommandLine.Report.Plain
import CommandLine.Report.Structured
import CommandLine.Resolution
import CommandLine.Scan
import CommandLine.Session
import CommandLine.Session.Operation
import CommandLine.Spec
import CommandLine.Table
import CommandLine.Table.Slice
import CommandLine.TableFile
import CommandLine.Text
import CommandLine.Text.Digit
import CommandLine.Text.Printable
import CommandLine.Text.Quoted
import CommandLine.Text.Utf8
import CommandLine.Token
import CommandLine.Token.Grammar
import CommandLine.Token.Pattern
import CommandLine.Tool.Flag
import CommandLine.Tool.Invocation
import CommandLine.Tool.Path
import CommandLine.Tool.Run
import CommandLine.Tool.System
import CommandLine.Tool.Tree
import CommandLine.Tool.Usage
