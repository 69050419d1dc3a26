import Outline.CommandLine.Arguments
import Outline.CommandLine.Outcome
import Outline.CommandLine.Run
import Outline.CommandLine.Usage
import Outline.CommandLine.Words
import Outline.Decimal
import Outline.Declaration.Basic
import Outline.Declaration.Extract
import Outline.Declaration.Member
import Outline.Declaration.Site
import Outline.Declaration.Wire
import Outline.Dependency
import Outline.Disk.FileTree
import Outline.Disk.Probe
import Outline.Document
import Outline.Entries
import Outline.Event
import Outline.Hash.Sha256
import Outline.Ignore.Pattern
import Outline.Ignore.Rules
import Outline.Json.Parser
import Outline.Json.Printer
import Outline.Json.Value
import Outline.Main
import Outline.Module.Extract
import Outline.Module.Specifiers
import Outline.Module.Statement
import Outline.Module.Walk
import Outline.Position
import Outline.Proofs.CommandLine.Agreement
import Outline.Proofs.CommandLine.Options
import Outline.Proofs.CommandLine.Shared
import Outline.Proofs.Declaration.Drawing
import Outline.Proofs.Declaration.Heads
import Outline.Proofs.Declaration.Likeness
import Outline.Proofs.Declaration.Members
import Outline.Proofs.Declaration.Overloads
import Outline.Proofs.Declaration.Placement
import Outline.Proofs.Declaration.Proper
import Outline.Proofs.Declaration.Relabel
import Outline.Proofs.Declaration.Uncommented
import Outline.Proofs.Declaration.Unfailing
import Outline.Proofs.Dependency.FirstUse
import Outline.Proofs.Dependency.Grouping
import Outline.Proofs.Dependency.Letters
import Outline.Proofs.Dependency.Names
import Outline.Proofs.Dependency.Runs
import Outline.Proofs.Dependency.Words
import Outline.Proofs.Disk.Places
import Outline.Proofs.Disk.Probes
import Outline.Proofs.Entries.Distinct
import Outline.Proofs.Entries.Keys
import Outline.Proofs.Entries.Related
import Outline.Proofs.Ignore.Matching
import Outline.Proofs.Ignore.Nested
import Outline.Proofs.Ignore.Ranges
import Outline.Proofs.Ignore.Scoping
import Outline.Proofs.Ignore.Segments
import Outline.Proofs.Module.Attribution
import Outline.Proofs.Module.Collected
import Outline.Proofs.Module.Comments
import Outline.Proofs.Module.Comparison
import Outline.Proofs.Module.Containment
import Outline.Proofs.Module.Envelope
import Outline.Proofs.Module.Equations
import Outline.Proofs.Module.GivenOut
import Outline.Proofs.Module.Interruptions
import Outline.Proofs.Module.Isolation
import Outline.Proofs.Module.LocalExports
import Outline.Proofs.Module.Ordering
import Outline.Proofs.Module.Passes
import Outline.Proofs.Module.PassingOn
import Outline.Proofs.Module.Prescan
import Outline.Proofs.Module.Probing
import Outline.Proofs.Module.Qualification
import Outline.Proofs.Module.Rejection
import Outline.Proofs.Module.Relocation
import Outline.Proofs.Module.SpecifierOrder
import Outline.Proofs.Module.Unfailing
import Outline.Proofs.Module.Upkeep
import Outline.Proofs.Position.Order
import Outline.Proofs.Position.RawCode
import Outline.Proofs.Position.RowColumn
import Outline.Proofs.Reading.Agreement
import Outline.Proofs.Reading.Ensures
import Outline.Proofs.Reading.Unfailing
import Outline.Proofs.Scan.IgnoreFiles
import Outline.Proofs.Scan.IgnoreRules
import Outline.Proofs.Scan.Paths
import Outline.Proofs.Scan.Precedence
import Outline.Proofs.Scan.Schedule
import Outline.Proofs.Scan.Sources
import Outline.Proofs.Scan.Tally
import Outline.Proofs.Scan.Visited
import Outline.Proofs.Settings.Keyed
import Outline.Proofs.Settings.Leaves
import Outline.Proofs.Settings.Library
import Outline.Proofs.Settings.Merging
import Outline.Proofs.Settings.Nested
import Outline.Proofs.Settings.Priority
import Outline.Proofs.Settings.Spelled
import Outline.Proofs.Settings.Variables
import Outline.Proofs.Signature.Callables
import Outline.Proofs.Signature.Canonical
import Outline.Proofs.Signature.Comments
import Outline.Proofs.Signature.Equations
import Outline.Proofs.Signature.Faithful
import Outline.Proofs.Signature.Forms
import Outline.Proofs.Signature.Identity
import Outline.Proofs.Signature.Layout
import Outline.Proofs.Signature.Promises
import Outline.Proofs.Signature.Requoting
import Outline.Proofs.Signature.Returns
import Outline.Proofs.Signature.Uncommented
import Outline.Proofs.Signature.Unfailing
import Outline.Proofs.Specifier.Climbing
import Outline.Proofs.Specifier.Confirmed
import Outline.Proofs.Specifier.Inquiries
import Outline.Proofs.Specifier.Rewriting
import Outline.Proofs.Specifier.Spellings
import Outline.Proofs.Specifier.Tables
import Outline.Proofs.Text.Brackets
import Outline.Proofs.Text.Bytes
import Outline.Proofs.Text.Lower
import Outline.Proofs.Text.Split
import Outline.Proofs.Text.StringLiteral
import Outline.Proofs.Text.Utf8
import Outline.Proofs.Tree.Address
import Outline.Proofs.Tree.Comments
import Outline.Proofs.Tree.FirstFault
import Outline.Proofs.Tree.Inside
import Outline.Proofs.Tree.Nested
import Outline.Proofs.Tree.Uncommented
import Outline.Proofs.Walk.Agreement
import Outline.Proofs.Walk.Ensures
import Outline.Proofs.Walk.Standard
import Outline.Proofs.Walk.Steady
import Outline.Proofs.Walk.Unfailing
import Outline.Reading
import Outline.Scan.Collect
import Outline.Scan.Directory
import Outline.Scan.Pool
import Outline.Scan.Report
import Outline.Settings.Basic
import Outline.Settings.DotEnv
import Outline.Settings.Environment
import Outline.Settings.Load
import Outline.Settings.Numeral
import Outline.Settings.Toml
import Outline.Settings.Validate
import Outline.Settings.Value
import Outline.Signature.Heritage
import Outline.Signature.Parameter
import Outline.Signature.Render
import Outline.Signature.TypeForm
import Outline.Source
import Outline.Specifier.Alias
import Outline.Specifier.Inquiry
import Outline.Specifier.Relative
import Outline.Specifier.Resolver
import Outline.Specifier.Search
import Outline.Text.Blank
import Outline.Text.Cased
import Outline.Text.Integer
import Outline.Text.Lower
import Outline.Text.Printable
import Outline.Text.Quoted
import Outline.Text.Utf8
import Outline.Tree.Below
import Outline.Tree.Dialect
import Outline.Tree.Fault
import Outline.Tree.Json
import Outline.Tree.Node
