import PagePipes.Action
import PagePipes.Checksum.Block
import PagePipes.Checksum.Crc32c
import PagePipes.Checksum.Sha1
import PagePipes.Checksum.Sha256
import PagePipes.Checksum.Sums
import PagePipes.Command.Arguments
import PagePipes.Command.Basic
import PagePipes.Command.Run
import PagePipes.Command.Session
import PagePipes.Database.Basic
import PagePipes.Database.Change
import PagePipes.Database.Exchange
import PagePipes.Database.Journal
import PagePipes.Database.Pipes
import PagePipes.Database.Relation
import PagePipes.Database.Resources
import PagePipes.Database.Rules
import PagePipes.Database.Trigger
import PagePipes.Database.Views
import PagePipes.Decimal.Binary64
import PagePipes.Decimal.Literal
import PagePipes.Decimal.Shortest
import PagePipes.Error
import PagePipes.Failure
import PagePipes.Files.Basic
import PagePipes.Files.Path
import PagePipes.Files.Tree
import PagePipes.Graph
import PagePipes.Graph.Walk
import PagePipes.Http.Message
import PagePipes.Http.Service
import PagePipes.Index
import PagePipes.Index.Edit
import PagePipes.Index.Qualified
import PagePipes.Json.Decode
import PagePipes.Json.Document
import PagePipes.Json.Printer
import PagePipes.Json.Value
import PagePipes.Key
import PagePipes.Key.Decode
import PagePipes.Key.Parse
import PagePipes.Main
import PagePipes.Pipe
import PagePipes.Pipe.Flatten
import PagePipes.Plan
import PagePipes.Plan.Graph
import PagePipes.Planner
import PagePipes.Point
import PagePipes.Program
import PagePipes.Proofs.Database.Absorption
import PagePipes.Proofs.Database.Aliases
import PagePipes.Proofs.Database.AppendOnly
import PagePipes.Proofs.Database.Attachments
import PagePipes.Proofs.Database.Captures
import PagePipes.Proofs.Database.CollectionTables
import PagePipes.Proofs.Database.Conditions
import PagePipes.Proofs.Database.Constraints
import PagePipes.Proofs.Database.Effects
import PagePipes.Proofs.Database.Exchanges
import PagePipes.Proofs.Database.Filling
import PagePipes.Proofs.Database.Headings
import PagePipes.Proofs.Database.History
import PagePipes.Proofs.Database.Joins
import PagePipes.Proofs.Database.Matching
import PagePipes.Proofs.Database.Mirror
import PagePipes.Proofs.Database.Operations
import PagePipes.Proofs.Database.Qualification
import PagePipes.Proofs.Database.Recording
import PagePipes.Proofs.Database.Records
import PagePipes.Proofs.Database.References
import PagePipes.Proofs.Database.Removal
import PagePipes.Proofs.Database.Resolution
import PagePipes.Proofs.Database.Rows
import PagePipes.Proofs.Database.Schema
import PagePipes.Proofs.Database.Sound
import PagePipes.Proofs.Database.SqlViews
import PagePipes.Proofs.Database.Steps
import PagePipes.Proofs.Database.Stored
import PagePipes.Proofs.Database.StoredPipes
import PagePipes.Proofs.Database.StoredTwice
import PagePipes.Proofs.Database.StoredViews
import PagePipes.Proofs.Database.Tables
import PagePipes.Proofs.Database.ViewRemoval
import PagePipes.Proofs.Database.ViewRows
import PagePipes.Proofs.Decimal.Digits
import PagePipes.Proofs.Decimal.Distinct
import PagePipes.Proofs.Decimal.Grid
import PagePipes.Proofs.Decimal.Literals
import PagePipes.Proofs.Decimal.Nearest
import PagePipes.Proofs.Decimal.Rounding
import PagePipes.Proofs.Graph.Emission
import PagePipes.Proofs.Graph.Walk
import PagePipes.Proofs.Index.Accidental
import PagePipes.Proofs.Index.BareNames
import PagePipes.Proofs.Index.Closure
import PagePipes.Proofs.Index.Coherent
import PagePipes.Proofs.Index.Edits
import PagePipes.Proofs.Index.Grounded
import PagePipes.Proofs.Index.Meaning
import PagePipes.Proofs.Index.Qualification
import PagePipes.Proofs.Index.References
import PagePipes.Proofs.Json.Fields
import PagePipes.Proofs.Json.Nesting
import PagePipes.Proofs.Json.Numerals
import PagePipes.Proofs.Json.Reading
import PagePipes.Proofs.Json.Spacing
import PagePipes.Proofs.Json.Unique
import PagePipes.Proofs.Json.Values
import PagePipes.Proofs.Lookup
import PagePipes.Proofs.NormalizedRules
import PagePipes.Proofs.Pipe.Expansion
import PagePipes.Proofs.Pipe.Flattening
import PagePipes.Proofs.Pipe.Inlining
import PagePipes.Proofs.Pipe.Written
import PagePipes.Proofs.Plan.BreadthFirst
import PagePipes.Proofs.Plan.Listing
import PagePipes.Proofs.Plan.Places
import PagePipes.Proofs.Plan.Reading
import PagePipes.Proofs.Plan.Shape
import PagePipes.Proofs.Plan.Size
import PagePipes.Proofs.Plan.Stability
import PagePipes.Proofs.Planner.Order
import PagePipes.Proofs.Planner.Reading
import PagePipes.Proofs.Planner.Run
import PagePipes.Proofs.Predicates
import PagePipes.Proofs.References
import PagePipes.Proofs.Repointing
import PagePipes.Proofs.Resource.Decoded
import PagePipes.Proofs.Resource.Identity
import PagePipes.Proofs.Resource.Read
import PagePipes.Proofs.Resource.Reread
import PagePipes.Proofs.Resource.Written
import PagePipes.Proofs.Result
import PagePipes.Proofs.Spelling
import PagePipes.Proofs.Sql.Accepted
import PagePipes.Proofs.Sql.Arguments
import PagePipes.Proofs.Sql.Names
import PagePipes.Proofs.Sql.Quoting
import PagePipes.Proofs.Sql.Shown
import PagePipes.Proofs.Store.Agreement
import PagePipes.Proofs.Text.Base64
import PagePipes.Proofs.Traversal
import PagePipes.Proofs.Trigger.Outcome
import PagePipes.Proofs.WrittenKeys
import PagePipes.Proofs.Yaml.Reading
import PagePipes.Regex.Basic
import PagePipes.Regex.CharSet
import PagePipes.Regex.Parser
import PagePipes.Regex.Property
import PagePipes.Resource
import PagePipes.Resource.Envelope
import PagePipes.Resource.Load
import PagePipes.Resource.Yaml
import PagePipes.Rule
import PagePipes.Settings
import PagePipes.Sql.Argument
import PagePipes.Sql.Collection
import PagePipes.Sql.Name
import PagePipes.Sql.Value
import PagePipes.Store.Memory
import PagePipes.Text.Base64
import PagePipes.Text.Blank
import PagePipes.Text.Composition
import PagePipes.Text.Hex
import PagePipes.Text.Letter
import PagePipes.Text.Printable
import PagePipes.Text.Quoted
import PagePipes.Text.Utf8
import PagePipes.Toml.Parser
import PagePipes.Toml.Scalar
import PagePipes.Toml.Value
import PagePipes.Trigger
import PagePipes.Url.Address
import PagePipes.Url.Basic
import PagePipes.Url.Domain
import PagePipes.Url.Folding
import PagePipes.Url.Parser
import PagePipes.Url.Percent
import PagePipes.Url.Punycode
import PagePipes.Uuid
import PagePipes.View
import PagePipes.Yaml.Cell
import PagePipes.Yaml.Meaning
import PagePipes.Yaml.Node
import PagePipes.Yaml.Printer
import PagePipes.Yaml.Reading
import PagePipes.Yaml.Scalar
import PagePipes.Yaml.Token
