import DataLayer.Code.Column
import DataLayer.Code.Conversion
import DataLayer.Code.Entity
import DataLayer.Code.Enumeration
import DataLayer.Code.Fault
import DataLayer.Code.Imports
import DataLayer.Code.Item
import DataLayer.Code.Layout
import DataLayer.Code.Object
import DataLayer.Code.Scope
import DataLayer.Code.SourceFile
import DataLayer.Code.Tree
import DataLayer.Code.Type
import DataLayer.Code.Union
import DataLayer.Command
import DataLayer.Json.Number
import DataLayer.Json.Printer
import DataLayer.Json.Quoted
import DataLayer.Json.Reader
import DataLayer.Json.Token
import DataLayer.Json.Value
import DataLayer.Main
import DataLayer.Name
import DataLayer.Number.Double
import DataLayer.Number.Integer
import DataLayer.Number.Shortest
import DataLayer.Record.Codec
import DataLayer.Record.Fault
import DataLayer.Sample.Account
import DataLayer.Sample.Drawing
import DataLayer.Sample.Owner
import DataLayer.Sample.Shape
import DataLayer.Sample.Status
import DataLayer.Schema.Declaration
import DataLayer.Schema.Fault
import DataLayer.Schema.Model
import DataLayer.Schema.Resolution
import DataLayer.Schema.TypeExpr
import DataLayer.Schema.Validation
import DataLayer.Settings.Connection
import DataLayer.Settings.Locations
import DataLayer.Storage.Action
import DataLayer.Storage.Directory
import DataLayer.Storage.Disk
import DataLayer.Storage.Fault
import DataLayer.Storage.Path
import DataLayer.Support.Column
import DataLayer.Support.ColumnText
import DataLayer.Support.ConnectionText
import DataLayer.Support.MarshalText
import DataLayer.Support.Resource
import DataLayer.Table
import DataLayer.Text.Blank
import DataLayer.Text.Case
import DataLayer.Text.Coded
import DataLayer.Text.Digits
import DataLayer.Text.Hex
import DataLayer.Text.Lines
import DataLayer.Text.Quoted
import DataLayer.Text.Span
import DataLayer.Time.Date
import DataLayer.Time.Timestamp
import DataLayer.Xml.Attribute
import DataLayer.Xml.Event
import DataLayer.Xml.Fault
import DataLayer.Xml.Markup
import DataLayer.Xml.Reference
import DataLayer.Proofs.Outcome
import DataLayer.Proofs.Identifiers
import DataLayer.Proofs.Tables
import DataLayer.Proofs.Xml.Element
import DataLayer.Proofs.Xml.Nesting
import DataLayer.Proofs.Schema.Loading
import DataLayer.Proofs.Schema.Truncation
import DataLayer.Proofs.Schema.References
import DataLayer.Proofs.Text.Numerals
import DataLayer.Proofs.Time.Moments
import DataLayer.Proofs.Record.Codecs
import DataLayer.Proofs.Sample.RoundTrip
import DataLayer.Proofs.Code.Imports
import DataLayer.Proofs.Code.Uses
import DataLayer.Proofs.Code.Scopes
import DataLayer.Proofs.Code.Faults
import DataLayer.Proofs.Code.Success
import DataLayer.Proofs.Code.Layout
import DataLayer.Proofs.Code.Definitions
import DataLayer.Proofs.Code.Methods
import DataLayer.Proofs.Code.Generation
import DataLayer.Proofs.Code.Fields
import DataLayer.Proofs.Code.LinkClosure
import DataLayer.Proofs.Code.Initials
import DataLayer.Proofs.Code.PrimaryKeys
import DataLayer.Proofs.Code.Discriminator
import DataLayer.Proofs.Code.Locality
import DataLayer.Proofs.Schema.Reordering
import DataLayer.Proofs.Code.Reordering
import DataLayer.Proofs.Storage.Paths
import DataLayer.Proofs.Storage.Writing
import DataLayer.Proofs.Code.Written
import DataLayer.Proofs.Code.Containment
import DataLayer.Proofs.Code.Comments
import DataLayer.Proofs.Code.Descriptions
import DataLayer.Proofs.Text.Lines
import DataLayer.Proofs.Storage.Sights
import DataLayer.Proofs.Storage.Replacing
import DataLayer.Proofs.Code.Runs
import DataLayer.Proofs.Xml.Writing
import DataLayer.Proofs.Schema.Spelling
import DataLayer.Proofs.Schema.Documents
import DataLayer.Proofs.Schema.Lossless
import DataLayer.Proofs.Code.Shape
import DataLayer.Proofs.Record.Objects
import DataLayer.Proofs.Sample.LifeCycle
import DataLayer.Proofs.Xml.Attributes
import DataLayer.Proofs.Schema.Attributes
import DataLayer.Proofs.Xml.Locality
import DataLayer.Proofs.Xml.Content
import DataLayer.Proofs.Schema.Respelling
import DataLayer.Proofs.Schema.Peeling
import DataLayer.Proofs.Code.Conversions
import DataLayer.Proofs.Sample.Refusal
import DataLayer.Proofs.Code.Declarations
import DataLayer.Proofs.Code.Naming
import DataLayer.Proofs.Code.Header
import DataLayer.Proofs.Code.Shadowing
import DataLayer.Proofs.Code.Accessors
import DataLayer.Proofs.Code.Members
import DataLayer.Proofs.Text.Hex
import DataLayer.Proofs.Text.Slices
import DataLayer.Proofs.Record.Bytes
import DataLayer.Proofs.Number.Canonical
import DataLayer.Proofs.Record.WholeNumbers
import DataLayer.Proofs.Code.Capture
import DataLayer.Proofs.Time.Offsets
import DataLayer.Proofs.Record.Rewriting
import DataLayer.Proofs.Record.Timestamps
import DataLayer.Proofs.Record.Nesting
import DataLayer.Proofs.Code.ConvertedValues
import DataLayer.Proofs.Code.Widths
import DataLayer.Proofs.Code.Claims
import DataLayer.Proofs.SnakeCase
import DataLayer.Proofs.Text.Case
import DataLayer.Proofs.Code.DerivedNames
import DataLayer.Proofs.Code.DocComments
import DataLayer.Proofs.Code.Indentation
import DataLayer.Proofs.Code.SideBuffers
