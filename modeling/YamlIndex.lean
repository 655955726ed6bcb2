import YamlIndex.Ancestors
import YamlIndex.Association
import YamlIndex.CommandLine.Arguments
import YamlIndex.CommandLine.Grammar
import YamlIndex.CommandLine.Outcome
import YamlIndex.CommandLine.Report
import YamlIndex.CommandLine.Request
import YamlIndex.CommandLine.Usage
import YamlIndex.Decimal.Binary
import YamlIndex.Decimal.Shortest
import YamlIndex.Entry
import YamlIndex.FilePath
import YamlIndex.Ignore.Glob
import YamlIndex.Ignore.Rules
import YamlIndex.Json
import YamlIndex.Line
import YamlIndex.LogFormat
import YamlIndex.Main
import YamlIndex.Node
import YamlIndex.Path
import YamlIndex.Project.Options
import YamlIndex.Project.Scanner
import YamlIndex.Proofs.Ancestry
import YamlIndex.Proofs.Columns
import YamlIndex.Proofs.Context
import YamlIndex.Proofs.Entries
import YamlIndex.Proofs.KeySearch
import YamlIndex.Proofs.Layout
import YamlIndex.Proofs.Layout.Agreement
import YamlIndex.Proofs.Layout.Paths
import YamlIndex.Proofs.Line.Assignment
import YamlIndex.Proofs.Line.Exchange
import YamlIndex.Proofs.Line.Splitting
import YamlIndex.Proofs.Matching
import YamlIndex.Proofs.Matching.Greedy
import YamlIndex.Proofs.Nesting
import YamlIndex.Proofs.Numbering
import YamlIndex.Proofs.OtherFiles
import YamlIndex.Proofs.Outline
import YamlIndex.Proofs.Path.RoundTrip
import YamlIndex.Proofs.Project.Depth
import YamlIndex.Proofs.Project.Extensions
import YamlIndex.Proofs.Project.FileByFile
import YamlIndex.Proofs.Project.Naming
import YamlIndex.Proofs.Project.Paths
import YamlIndex.Proofs.Project.Pipelines
import YamlIndex.Proofs.Project.Provenance
import YamlIndex.Proofs.Session.Actions
import YamlIndex.Proofs.Session.CacheRuns
import YamlIndex.Proofs.Session.EditLaws
import YamlIndex.Proofs.Session.FocusKey
import YamlIndex.Proofs.Session.Forgetting
import YamlIndex.Proofs.Session.LedgerRuns
import YamlIndex.Proofs.Session.Queries
import YamlIndex.Proofs.Session.Records
import YamlIndex.Proofs.Session.Repeats
import YamlIndex.Proofs.Session.Snapshots
import YamlIndex.Proofs.Session.Staleness
import YamlIndex.Proofs.Session.Transparency
import YamlIndex.Proofs.Staircase
import YamlIndex.Proofs.Text.OctetOrder
import YamlIndex.Proofs.Values
import YamlIndex.Proofs.Values.Agreement
import YamlIndex.Proofs.Walk.Listing
import YamlIndex.Proofs.Walk.Verdicts
import YamlIndex.Scan
import YamlIndex.Session.Basic
import YamlIndex.Session.Cache
import YamlIndex.Session.Edit
import YamlIndex.Session.Editor
import YamlIndex.Session.Jump
import YamlIndex.Session.Ledger
import YamlIndex.Session.Picker
import YamlIndex.Session.Project
import YamlIndex.Session.Source
import YamlIndex.Settings
import YamlIndex.Text.Blank
import YamlIndex.Text.CharacterTables
import YamlIndex.Text.Lines
import YamlIndex.Text.Lowercase
import YamlIndex.Text.Number
import YamlIndex.Text.Quoted
import YamlIndex.Volume
import YamlIndex.Volume.Changes
import YamlIndex.Volume.Descent
import YamlIndex.Volume.FileTree
import YamlIndex.Volume.Location
import YamlIndex.Walk
import YamlIndex.Yaml.Cursor
import YamlIndex.Yaml.Scalar
import YamlIndex.Yaml.Token
import YamlIndex.Yaml.Token.Lexer
import YamlIndex.Yaml.Token.Property
import YamlIndex.Yaml.Token.Scalar
import YamlIndex.Yaml.Tree
import YamlIndex.Yaml.Value
