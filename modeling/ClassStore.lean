import ClassStore.Backend
import ClassStore.Catalog.Attribute
import ClassStore.Catalog.Basic
import ClassStore.Catalog.CatalogError
import ClassStore.Catalog.Dependency
import ClassStore.Catalog.ObjectClass
import ClassStore.Catalog.Resolution
import ClassStore.Catalog.SemanticType
import ClassStore.Date.Calendar
import ClassStore.Date.Notation
import ClassStore.Date.Partial
import ClassStore.Date.Segment
import ClassStore.Exchange.Codec
import ClassStore.Exchange.Descriptor
import ClassStore.Exchange.Json
import ClassStore.Exchange.Reader
import ClassStore.Exchange.Settings
import ClassStore.Exchange.Writer
import ClassStore.Query.Compile
import ClassStore.Query.CompileError
import ClassStore.Query.Constraints
import ClassStore.Query.Fragment
import ClassStore.Query.Leaf
import ClassStore.Schema.Check
import ClassStore.Schema.ClassSchema
import ClassStore.Schema.Collection
import ClassStore.Schema.Default
import ClassStore.Schema.Domain
import ClassStore.Schema.Gtin
import ClassStore.Schema.SchemaError
import ClassStore.Schema.Script
import ClassStore.Schema.Setting
import ClassStore.Schema.Statement
import ClassStore.Schema.Table
import ClassStore.Schema.Trigger
import ClassStore.Schema.View
import ClassStore.Schema.Write
import ClassStore.Search.Coercion
import ClassStore.Search.Mismatch
import ClassStore.Search.Node
import ClassStore.Search.Operator
import ClassStore.Search.ParseError
import ClassStore.Search.Parser
import ClassStore.Search.Scalar
import ClassStore.Search.Term
import ClassStore.Search.Token
import ClassStore.Search.Token.Cursor
import ClassStore.Search.Token.Scanner
import ClassStore.Search.Token.Walker
import ClassStore.Sql.Literal
import ClassStore.Text.Blank
import ClassStore.Text.Case
import ClassStore.Text.DecimalDigit
import ClassStore.Text.Fields
import ClassStore.Text.Lines
import ClassStore.Text.Numeral
import ClassStore.Text.Truth
import ClassStore.Proofs.Token.Run
import ClassStore.Proofs.Token.Step
import ClassStore.Proofs.Token.Position
import ClassStore.Proofs.Token.Bytes
import ClassStore.Proofs.Token.Cursor
import ClassStore.Proofs.Token.Boundaries
import ClassStore.Proofs.Token.Excerpt
import ClassStore.Proofs.Token.Walk
import ClassStore.Proofs.Token.Spelling
import ClassStore.Proofs.Token.WrittenForm
import ClassStore.Proofs.Token.Agreement
import ClassStore.Proofs.Token.Seam
import ClassStore.Proofs.Query.Binding
import ClassStore.Proofs.Query.Tree
import ClassStore.Proofs.Condition.Lexeme
import ClassStore.Proofs.Condition.Reader
import ClassStore.Proofs.Condition.Comparison
import ClassStore.Proofs.Condition.Grouping
import ClassStore.Proofs.Catalog.Order
import ClassStore.Proofs.Catalog.Resolved
import ClassStore.Proofs.Catalog.Settled
import ClassStore.Proofs.Catalog.Attributes
import ClassStore.Proofs.Catalog.Names
import ClassStore.Proofs.Catalog.Columns
import ClassStore.Proofs.Query.ViewColumns
import ClassStore.Proofs.Query.Noninterference
import ClassStore.Proofs.Catalog.TopologicalOrder
import ClassStore.Proofs.Catalog.Acyclic
import ClassStore.Proofs.Query.Placeholders
import ClassStore.Proofs.Date.Assignment
import ClassStore.Proofs.Date.Reading
import ClassStore.Proofs.Text.Comparison
import ClassStore.Proofs.Text.Numeral
import ClassStore.Proofs.Date.Reachable
import ClassStore.Proofs.Date.RoundTrip
import ClassStore.Proofs.Date.SegmentOrder
import ClassStore.Proofs.Date.Chronology
import ClassStore.Proofs.Grammar.Acceptance
import ClassStore.Proofs.Grammar.Terms
import ClassStore.Proofs.Grammar.WellTyped
import ClassStore.Proofs.Grammar.Faults
import ClassStore.Proofs.Grammar.Arrows
import ClassStore.Proofs.Grammar.Separators
import ClassStore.Proofs.Query.DateFaults
import ClassStore.Proofs.Query.Meaningful
import ClassStore.Proofs.Query.Backends
import ClassStore.Proofs.Query.LeafBinds
import ClassStore.Proofs.Query.Conjunction
import ClassStore.Proofs.Catalog.Copies
import ClassStore.Proofs.Schema.WriteThrough
import ClassStore.Proofs.Catalog.Chains
import ClassStore.Proofs.Catalog.Visibility
import ClassStore.Proofs.Catalog.ColumnSegments
import ClassStore.Proofs.Catalog.Delegation
import ClassStore.Proofs.Schema.Setting
import ClassStore.Proofs.Schema.ViewItems
import ClassStore.Proofs.Schema.Writes
import ClassStore.Proofs.Schema.WriteColumns
import ClassStore.Proofs.Schema.LinkedNumber
import ClassStore.Proofs.Schema.Objects
import ClassStore.Proofs.Schema.Groups
import ClassStore.Proofs.Schema.CreationOrder
import ClassStore.Proofs.Catalog.DefaultNames
import ClassStore.Proofs.Schema.ComposedNames
import ClassStore.Proofs.Schema.TableNames
import ClassStore.Proofs.Schema.CreatedNames
import ClassStore.Proofs.Schema.NameFamilies
import ClassStore.Proofs.Schema.ClassNames
import ClassStore.Proofs.Schema.NamesApart
import ClassStore.Proofs.Schema.DistinctFamilies
import ClassStore.Proofs.Schema.DistinctNames
import ClassStore.Proofs.Schema.FirstFault
import ClassStore.Proofs.Sql.Constants
import ClassStore.Proofs.Schema.WrittenDefaults
import ClassStore.Proofs.Text.Layout
import ClassStore.Proofs.Schema.LaidOutDefaults
import ClassStore.Proofs.Schema.DistinctColumns
import ClassStore.Proofs.Schema.UniqueValues
import ClassStore.Proofs.Schema.FilledWrites
import ClassStore.Proofs.Exchange.Text
import ClassStore.Proofs.Exchange.RoundTrip
import ClassStore.Proofs.Query.Evaluation
import ClassStore.Proofs.Query.Negation
import ClassStore.Proofs.Query.Alternatives
import ClassStore.Proofs.Query.DateOrder
import ClassStore.Proofs.Catalog.FixedPoints
import ClassStore.Proofs.Catalog.SameOrder
import ClassStore.Proofs.Schema.CheckDigit
import ClassStore.Proofs.Catalog.Rebuilding
import ClassStore.Proofs.Sql.ClosedLiterals
import ClassStore.Proofs.Schema.QuotedValues
