import ProjectD.CommandLine.Arguments
import ProjectD.CommandLine.Basic
import ProjectD.CommandLine.Switch
import ProjectD.Commands
import ProjectD.Files.Error
import ProjectD.Files.Path
import ProjectD.Files.Tree
import ProjectD.Json.Basic
import ProjectD.Json.Reader
import ProjectD.LexError
import ProjectD.Listing
import ProjectD.Main
import ProjectD.Number.Binary64
import ProjectD.Number.Digits
import ProjectD.Number.Shortest
import ProjectD.Program
import ProjectD.Proofs.CheckReports
import ProjectD.Proofs.Classification
import ProjectD.Proofs.Comments
import ProjectD.Proofs.Configuration
import ProjectD.Proofs.Continuation
import ProjectD.Proofs.CursorRuns
import ProjectD.Proofs.Digits
import ProjectD.Proofs.DumpAccounts
import ProjectD.Proofs.DumpAgain
import ProjectD.Proofs.DumpSteps
import ProjectD.Proofs.DumpStreams
import ProjectD.Proofs.FileTrees
import ProjectD.Proofs.FirstError
import ProjectD.Proofs.JsonListings
import ProjectD.Proofs.JsonTexts
import ProjectD.Proofs.Kinds
import ProjectD.Proofs.LineEndings
import ProjectD.Proofs.Lines
import ProjectD.Proofs.Lookahead
import ProjectD.Proofs.Neighbours
import ProjectD.Proofs.NumberTexts
import ProjectD.Proofs.NumeralGrammar
import ProjectD.Proofs.OutputNames
import ProjectD.Proofs.OutputPaths
import ProjectD.Proofs.Pieces
import ProjectD.Proofs.PositionOrder
import ProjectD.Proofs.Positions
import ProjectD.Proofs.Printing
import ProjectD.Proofs.QuotedLiterals
import ProjectD.Proofs.RealLiterals
import ProjectD.Proofs.Reconstruction
import ProjectD.Proofs.RepeatedWrites
import ProjectD.Proofs.Rounding
import ProjectD.Proofs.ScannerStates
import ProjectD.Proofs.Shapes
import ProjectD.Proofs.ShortestDecimals
import ProjectD.Proofs.Simulation
import ProjectD.Proofs.Spans
import ProjectD.Proofs.StandardOutput
import ProjectD.Proofs.TabWidth
import ProjectD.Proofs.Tables
import ProjectD.Proofs.Verdicts
import ProjectD.Proofs.Vocabulary
import ProjectD.Proofs.Waiting
import ProjectD.Scanner
import ProjectD.Settings
import ProjectD.Text.Characters
import ProjectD.Text.Cursor
import ProjectD.Text.Quoted
import ProjectD.Token.Basic
import ProjectD.Token.Classify
import ProjectD.Token.Symbol
import ProjectD.Toml.Basic
import ProjectD.Toml.Document
import ProjectD.Toml.Quoted
import ProjectD.Toml.Scalar
import ProjectD.ToolError
