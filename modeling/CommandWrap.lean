import CommandWrap.CommandLine
import CommandWrap.Composition
import CommandWrap.Decision
import CommandWrap.DecisionLog
import CommandWrap.Explanation
import CommandWrap.Fault
import CommandWrap.FileSystem.Basic
import CommandWrap.FileSystem.Error
import CommandWrap.FileSystem.TextFile
import CommandWrap.Homes
import CommandWrap.Hook
import CommandWrap.Json.Basic
import CommandWrap.Json.Error
import CommandWrap.Json.Parser
import CommandWrap.Json.Printer
import CommandWrap.Main
import CommandWrap.Number.Binary64
import CommandWrap.Number.Shortest
import CommandWrap.Path
import CommandWrap.Pattern
import CommandWrap.Proofs.Action
import CommandWrap.Proofs.CommandLine
import CommandWrap.Proofs.Composition
import CommandWrap.Proofs.Decision.Agreement
import CommandWrap.Proofs.Decision.Guards
import CommandWrap.Proofs.Decision.Repeated
import CommandWrap.Proofs.Decision.Shape
import CommandWrap.Proofs.DecisionLog
import CommandWrap.Proofs.Except
import CommandWrap.Proofs.Explanation
import CommandWrap.Proofs.Explanation.Quoted
import CommandWrap.Proofs.FileSystem.Following
import CommandWrap.Proofs.FileSystem.Growth
import CommandWrap.Proofs.FileSystem.Listing
import CommandWrap.Proofs.FileSystem.Names
import CommandWrap.Proofs.FileSystem.Recording
import CommandWrap.Proofs.Hook.Answer
import CommandWrap.Proofs.Hook.Answered
import CommandWrap.Proofs.Hook.Counting
import CommandWrap.Proofs.Hook.Discretion
import CommandWrap.Proofs.Hook.Effects
import CommandWrap.Proofs.Hook.Handling
import CommandWrap.Proofs.Hook.Sessions
import CommandWrap.Proofs.Hook.Surrounded
import CommandWrap.Proofs.Hook.Writes
import CommandWrap.Proofs.Json.Alike
import CommandWrap.Proofs.Json.Contents
import CommandWrap.Proofs.Json.Entries
import CommandWrap.Proofs.Json.InFront
import CommandWrap.Proofs.Json.NumberText
import CommandWrap.Proofs.Json.Reading
import CommandWrap.Proofs.Json.RoundTrip
import CommandWrap.Proofs.Json.StringText
import CommandWrap.Proofs.Json.VisibleText
import CommandWrap.Proofs.Number.Decimal
import CommandWrap.Proofs.Number.Nearest
import CommandWrap.Proofs.Pattern
import CommandWrap.Proofs.Report
import CommandWrap.Proofs.Report.Duration
import CommandWrap.Proofs.Rewriting
import CommandWrap.Proofs.Rewriting.Arguments
import CommandWrap.Proofs.Session.Appending
import CommandWrap.Proofs.Session.Concatenation
import CommandWrap.Proofs.Session.FoundAgain
import CommandWrap.Proofs.Session.Latest
import CommandWrap.Proofs.Session.Line
import CommandWrap.Proofs.Session.Refinement
import CommandWrap.Proofs.Session.Reported
import CommandWrap.Proofs.Session.Skipping
import CommandWrap.Proofs.Session.Timestamps
import CommandWrap.Proofs.Settings
import CommandWrap.Proofs.Settings.Image
import CommandWrap.Proofs.Settings.Loading
import CommandWrap.Proofs.Settings.Normal
import CommandWrap.Proofs.Settings.Tidied
import CommandWrap.Proofs.Shell.Command
import CommandWrap.Proofs.Shell.Lexing
import CommandWrap.Proofs.Shell.Literal
import CommandWrap.Proofs.Shell.Overlooked
import CommandWrap.Proofs.Shell.Rest
import CommandWrap.Proofs.Shell.Shape
import CommandWrap.Proofs.Shell.SimpleCommand
import CommandWrap.Proofs.Shell.Splicing
import CommandWrap.Proofs.Shell.Tree
import CommandWrap.Proofs.Tally
import CommandWrap.Proofs.Tally.Recorded
import CommandWrap.Proofs.Text.CodePoint
import CommandWrap.Proofs.Text.Lines
import CommandWrap.Proofs.Text.OpenLine
import CommandWrap.Proofs.Text.Pieces
import CommandWrap.Proofs.Text.Utf8
import CommandWrap.Proofs.Text.Words
import CommandWrap.Proofs.Time.Canonical
import CommandWrap.Proofs.Time.RoundTrip
import CommandWrap.Proofs.Workspace.LogCalls
import CommandWrap.Proofs.Workspace.Logging
import CommandWrap.Proofs.Workspace.Notices
import CommandWrap.Proofs.Workspace.Status
import CommandWrap.Report
import CommandWrap.Rewriting
import CommandWrap.Session
import CommandWrap.Settings.Basic
import CommandWrap.Settings.File
import CommandWrap.Settings.Parser
import CommandWrap.Shell.Enclosure
import CommandWrap.Shell.Expansion
import CommandWrap.Shell.Grammar
import CommandWrap.Shell.Lexer
import CommandWrap.Shell.Script
import CommandWrap.Shell.Shape
import CommandWrap.Shell.Token
import CommandWrap.Shell.Tree
import CommandWrap.Tally
import CommandWrap.Text.Basic
import CommandWrap.Text.Blank
import CommandWrap.Text.Letter
import CommandWrap.Text.Lines
import CommandWrap.Text.Printable
import CommandWrap.Text.Quoted
import CommandWrap.Text.Utf8
import CommandWrap.Time.Date
import CommandWrap.Time.Iso
import CommandWrap.Time.Stamp
import CommandWrap.Workspace
