import Scenario.Bean
import Scenario.Entity.Assembly
import Scenario.Entity.Basic
import Scenario.Entity.Dump
import Scenario.Entity.Load
import Scenario.Entity.World
import Scenario.Error
import Scenario.Evaluator
import Scenario.Expr.Basic
import Scenario.Expr.Parser
import Scenario.Expr.Token
import Scenario.Field.Basic
import Scenario.Field.Binding
import Scenario.Journal
import Scenario.Json.Numeral
import Scenario.Json.Reader
import Scenario.Json.Text
import Scenario.Library.Builtin
import Scenario.Library.Probe
import Scenario.Lock.Basic
import Scenario.Lock.Table
import Scenario.Listing
import Scenario.Log
import Scenario.Number.Basic
import Scenario.Number.Digits
import Scenario.Number.Layout
import Scenario.Number.Reading
import Scenario.Number.Rounding
import Scenario.Output
import Scenario.Proofs.Adequacy
import Scenario.Proofs.Arena
import Scenario.Proofs.Frames
import Scenario.Proofs.Layers
import Scenario.Proofs.Nesting
import Scenario.Proofs.Parsing
import Scenario.Proofs.Results
import Scenario.Proofs.Returns
import Scenario.Proofs.Containers
import Scenario.Proofs.Steps
import Scenario.Proofs.Walk
import Scenario.Registry
import Scenario.Resource.Basic
import Scenario.Resource.Disk
import Scenario.Run.Exec
import Scenario.Run.State
import Scenario.Scope.Arena
import Scenario.Scope.Frame
import Scenario.Settings.Basic
import Scenario.Settings.Layer
import Scenario.Tag
import Scenario.Template
import Scenario.Text.Blank
import Scenario.Text.Letter
import Scenario.Text.LowerCase
import Scenario.Text.Printable
import Scenario.Text.Quoted
import Scenario.Text.Ranges
import Scenario.Text.Unquoted
import Scenario.Text.Utf8
import Scenario.Tree
import Scenario.Value.Accumulator
import Scenario.Value.Basic
import Scenario.Xml.Attribute
import Scenario.Xml.Document
import Scenario.Xml.Element
import Scenario.Xml.Entity
import Scenario.Xml.Event
import Scenario.Xml.Markup
import Scenario.Xml.Namespace
import Scenario.Proofs.Aborts
import Scenario.Proofs.Bindings
import Scenario.Proofs.Building
import Scenario.Proofs.Preparation
import Scenario.Proofs.Loading
import Scenario.Proofs.Cycles
import Scenario.Proofs.Wrapping
import Scenario.Proofs.Lockstep
import Scenario.Proofs.Tandem
import Scenario.Proofs.Transparency
import Scenario.Proofs.Choices
import Scenario.Proofs.Locks
import Scenario.Proofs.Keeping
import Scenario.Proofs.Listings
import Scenario.Proofs.Positions
import Scenario.Proofs.Names
import Scenario.Proofs.Mishaps
import Scenario.Proofs.Blame
import Scenario.Proofs.Attribution
import Scenario.Proofs.Lineage
import Scenario.Proofs.Farewells
import Scenario.Proofs.DocumentOrder
import Scenario.Proofs.WholeNumbers
import Scenario.Proofs.Scanning
import Scenario.Proofs.RoundTrip
import Scenario.Proofs.Grammar
import Scenario.Proofs.Documents
import Scenario.Proofs.Splitting
import Scenario.Proofs.Encoding
import Scenario.Proofs.LineCounts
import Scenario.Proofs.Writing
import Scenario.Proofs.Gathering
import Scenario.Proofs.Values
import Scenario.Proofs.Views
import Scenario.Proofs.FieldValues
import Scenario.Proofs.Locality
import Scenario.Proofs.Parameters
import Scenario.Proofs.Indexes
import Scenario.Proofs.DottedPaths
import Scenario.Proofs.Offences
import Scenario.Proofs.Arrivals
import Scenario.Proofs.Queues
import Scenario.Proofs.Edits
import Scenario.Proofs.Equality
import Scenario.Proofs.Serialization
import Scenario.Proofs.Quotes
import Scenario.Proofs.Spelling
import Scenario.Proofs.Origins
import Scenario.Proofs.DumpLines
import Scenario.Proofs.Relays
