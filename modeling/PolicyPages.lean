import PolicyPages.Annotation
import PolicyPages.Annotation.Json
import PolicyPages.CommandLine.Arguments
import PolicyPages.CommandLine.Complaint
import PolicyPages.CommandLine.Program
import PolicyPages.Decimal.Binary64
import PolicyPages.Decimal.Layout
import PolicyPages.Decimal.Shortest
import PolicyPages.Dictionary
import PolicyPages.Discovery
import PolicyPages.Document
import PolicyPages.Document.Assembly
import PolicyPages.Document.Membership
import PolicyPages.Failure
import PolicyPages.Files.Access
import PolicyPages.Files.Error
import PolicyPages.Files.Lookup
import PolicyPages.Files.Tree
import PolicyPages.Files.Volume
import PolicyPages.Files.Walk
import PolicyPages.Generation
import PolicyPages.Json.Merge
import PolicyPages.Json.Number
import PolicyPages.Json.Printing
import PolicyPages.Json.Reading
import PolicyPages.Json.Token
import PolicyPages.Json.Value
import PolicyPages.Json.Written
import PolicyPages.Log.Event
import PolicyPages.Log.Filter
import PolicyPages.Log.Level
import PolicyPages.Log.Line
import PolicyPages.Main
import PolicyPages.Page.Anchor
import PolicyPages.Page.AsciiDoc
import PolicyPages.Page.Layout
import PolicyPages.Page.Renderer
import PolicyPages.Page.RuleData
import PolicyPages.Path
import PolicyPages.Registry
import PolicyPages.Registry.Loading
import PolicyPages.Session
import PolicyPages.Settings
import PolicyPages.Settings.Json
import PolicyPages.Settings.Loading
import PolicyPages.Settings.Override
import PolicyPages.Settings.Session
import PolicyPages.Site
import PolicyPages.Source.Error
import PolicyPages.Source.Grouping
import PolicyPages.Source.Line
import PolicyPages.Source.Metadata
import PolicyPages.Source.Module
import PolicyPages.Text.Affix
import PolicyPages.Text.Blank
import PolicyPages.Text.Lines
import PolicyPages.Text.Utf8
import PolicyPages.Topic
import PolicyPages.Yaml.Anchor
import PolicyPages.Yaml.Cell
import PolicyPages.Yaml.Node
import PolicyPages.Yaml.Property
import PolicyPages.Yaml.Reading
import PolicyPages.Yaml.Resolution
import PolicyPages.Yaml.Scalar.Block
import PolicyPages.Yaml.Scalar.Gap
import PolicyPages.Yaml.Scalar.Plain
import PolicyPages.Yaml.Scalar.Quoted
import PolicyPages.Yaml.Token
import PolicyPages.Yaml.Tokens
import PolicyPages.Yaml.Value
import PolicyPages.Proofs.Source.LineKind
import PolicyPages.Proofs.Source.Derivation
import PolicyPages.Proofs.Source.Items
import PolicyPages.Proofs.Source.Fields
import PolicyPages.Proofs.Source.Shape
import PolicyPages.Proofs.Source.Acceptance
import PolicyPages.Proofs.Source.Grammar
import PolicyPages.Proofs.Source.Printing
import PolicyPages.Proofs.Document.Ownership
import PolicyPages.Proofs.Registry
import PolicyPages.Proofs.Document.Members
import PolicyPages.Proofs.Topic
import PolicyPages.Proofs.Source.OnePackage
import PolicyPages.Proofs.Document.Completeness
import PolicyPages.Proofs.Sequencing
import PolicyPages.Proofs.Page.Lines
import PolicyPages.Proofs.Page.Links
import PolicyPages.Proofs.Site
import PolicyPages.Proofs.Page.Targets
import PolicyPages.Proofs.Document.Titles
import PolicyPages.Proofs.Page.Rendering
import PolicyPages.Proofs.Path
import PolicyPages.Proofs.Files.Lookup
import PolicyPages.Proofs.Files.Arrival
import PolicyPages.Proofs.Files.Access
import PolicyPages.Proofs.Files.Directories
import PolicyPages.Proofs.Repetition
import PolicyPages.Proofs.Generation
import PolicyPages.Proofs.Page.Names
import PolicyPages.Proofs.Files.Below
import PolicyPages.Proofs.Page.Places
import PolicyPages.Proofs.Page.Overwriting
import PolicyPages.Proofs.Files.Denotation
import PolicyPages.Proofs.Files.Volume
import PolicyPages.Proofs.Site.Writing
import PolicyPages.Proofs.Site.Confinement
import PolicyPages.Proofs.Page.Reading
import PolicyPages.Proofs.Page.Contents
import PolicyPages.Proofs.Site.Agreement
import PolicyPages.Proofs.Settings.Validity
import PolicyPages.Proofs.Json.Layers
import PolicyPages.Proofs.Settings.Layers
import PolicyPages.Proofs.Files.Children
import PolicyPages.Proofs.Files.Walk
import PolicyPages.Proofs.Discovery
import PolicyPages.Proofs.Files.Listing
import PolicyPages.Proofs.Discovery.Reading
import PolicyPages.Proofs.Discovery.Order
import PolicyPages.Proofs.Registry.Loading
import PolicyPages.Proofs.Document.Isolation
import PolicyPages.Proofs.Text.Editing
import PolicyPages.Proofs.Source.Layout
import PolicyPages.Proofs.Json.Words
import PolicyPages.Proofs.Json.RoundTrip
import PolicyPages.Proofs.Annotation.Listing
import PolicyPages.Proofs.Json.Leaves
import PolicyPages.Proofs.Settings.Suffixes
import PolicyPages.Proofs.Settings.Reports
import PolicyPages.Proofs.Annotation.Segments
import PolicyPages.Proofs.Source.Grouping
import PolicyPages.Proofs.Text.ByteOrder
import PolicyPages.Proofs.Page.RuleData
import PolicyPages.Proofs.Page.Identifiers
import PolicyPages.Proofs.Discovery.Sources
