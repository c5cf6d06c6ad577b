import DynProto.Binary.Reader
import DynProto.Binary.Writer
import DynProto.Command.Convert
import DynProto.Command.Invocation
import DynProto.Command.Report
import DynProto.Command.Setup
import DynProto.Config
import DynProto.Container
import DynProto.Descriptor.Basic
import DynProto.Descriptor.File
import DynProto.Descriptor.Layout
import DynProto.Descriptor.Node
import DynProto.Error
import DynProto.Json.Basic
import DynProto.Json.Parser
import DynProto.Json.Printer
import DynProto.Main
import DynProto.Message
import DynProto.Name.CamelCase
import DynProto.Name.Dotted
import DynProto.Name.Identifier
import DynProto.Name.Qualified
import DynProto.Namespace
import DynProto.Number.Format
import DynProto.Number.Numeral
import DynProto.Number.Scaling
import DynProto.Number.Shortest
import DynProto.Options
import DynProto.OrderedMap
import DynProto.Plain.Conversion
import DynProto.Plain.Reader
import DynProto.Plain.Writer
import DynProto.Proofs.Binary.Filling
import DynProto.Proofs.Binary.Piece
import DynProto.Proofs.Binary.Reencoding
import DynProto.Proofs.Binary.Reinterpretation
import DynProto.Proofs.Binary.RoundTrip
import DynProto.Proofs.Binary.WellFormed
import DynProto.Proofs.Container
import DynProto.Proofs.Number.Exact
import DynProto.Proofs.OrderedMap
import DynProto.Proofs.Plain.Conversion
import DynProto.Proofs.Plain.RoundTrip
import DynProto.Proofs.Plain.WellFormed
import DynProto.Proofs.Produced
import DynProto.Proofs.Record.Canonical
import DynProto.Proofs.Record.Nesting
import DynProto.Proofs.Record.WellFormed
import DynProto.Proofs.Registry.Batch
import DynProto.Proofs.Registry.Reachable
import DynProto.Proofs.Text.Base64
import DynProto.Proofs.Traversal
import DynProto.Proofs.Wire.Content
import DynProto.Proofs.Wire.Reading
import DynProto.Registry.Basic
import DynProto.Registry.Ingest
import DynProto.Scalar
import DynProto.Schema.Enum
import DynProto.Schema.Field
import DynProto.Schema.Message
import DynProto.SchemaUnit
import DynProto.Text.Base64
import DynProto.Text.Blank
import DynProto.Text.CaseMapping
import DynProto.Text.Decimal
import DynProto.Text.Utf8
import DynProto.Value
import DynProto.Wire.Content
import DynProto.Wire.Fault
import DynProto.Wire.Field
import DynProto.Wire.Reader
import DynProto.Wire.Varint
import DynProto.Yaml.Character
import DynProto.Yaml.Mapping
import DynProto.Yaml.Property
import DynProto.Yaml.Scalar.Basic
import DynProto.Yaml.Scalar.Block
import DynProto.Yaml.Scalar.Plain
import DynProto.Yaml.Scalar.Quoted
import DynProto.Yaml.Token
import DynProto.Proofs.Record.Merge
import DynProto.Proofs.Binary.Concatenation
import DynProto.Proofs.Binary.Element
import DynProto.Proofs.Wire.Skipping
import DynProto.Proofs.Record.Recast
import DynProto.Proofs.Binary.Evolution
import DynProto.Proofs.Schema.Enum
import DynProto.Proofs.Schema.PlainKeys
import DynProto.Proofs.Name.Qualified
import DynProto.Proofs.Name.Chain
import DynProto.Proofs.Namespace
import DynProto.Proofs.Namespace.Nodes
import DynProto.Proofs.Namespace.Population
import DynProto.Proofs.Registry.Listing
import DynProto.Proofs.Descriptor.Reading
import DynProto.Proofs.SchemaUnit
import DynProto.Proofs.Registry.Framing
import DynProto.Proofs.Registry.MapKeys
import DynProto.Proofs.Binary.Failure
import DynProto.Proofs.Registry.Independence
import DynProto.Proofs.Json.Token
import DynProto.Proofs.Json.Layout
import DynProto.Proofs.Record.Floatless
import DynProto.Proofs.Plain.Printing
import DynProto.Proofs.RecursionLimit
import DynProto.Proofs.Registry.Declarations
import DynProto.Proofs.Registry.Flattening
import DynProto.Proofs.Registry.Entities
import DynProto.Proofs.Registry.MapFields
import DynProto.Proofs.Wire.Locality
import DynProto.Proofs.Wire.Segment
import DynProto.Proofs.Binary.Resumption
import DynProto.Proofs.Binary.Reordering
import DynProto.Proofs.Plain.Showing
import DynProto.Proofs.Binary.Packing
import DynProto.Proofs.Message
import DynProto.Proofs.Binary.Rearrangement
import DynProto.Proofs.Plain.Pruning
import DynProto.Proofs.Plain.Renaming
import DynProto.Proofs.Text.Decimal
import DynProto.Proofs.Number.Rounding
import DynProto.Proofs.Number.Integral
import DynProto.Proofs.Number.Decimal
import DynProto.Proofs.Number.Spelling
import DynProto.Proofs.Number.Scaling
import DynProto.Proofs.Plain.Wide
import DynProto.Proofs.Plain.Integer
import DynProto.Proofs.Json.Literal
import DynProto.Proofs.Plain.Literal
import DynProto.Proofs.Plain.Float
