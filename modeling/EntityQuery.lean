import EntityQuery.Config
import EntityQuery.Document.Filter
import EntityQuery.Document.Path
import EntityQuery.Document.TextPattern
import EntityQuery.Entity.Codec
import EntityQuery.Entity.Maps
import EntityQuery.Entity.Types
import EntityQuery.FieldMap.Basic
import EntityQuery.FieldMap.Draft
import EntityQuery.FieldType
import EntityQuery.Filter.Bind
import EntityQuery.Filter.BindDocument
import EntityQuery.Filter.Catalogue
import EntityQuery.Filter.Codec
import EntityQuery.Filter.Error
import EntityQuery.Filter.Lexeme
import EntityQuery.Filter.Node
import EntityQuery.Filter.Operator
import EntityQuery.Filter.Parse
import EntityQuery.Filter.ParseState
import EntityQuery.Filter.Resolve
import EntityQuery.Filter.Validate
import EntityQuery.Guid
import EntityQuery.Host
import EntityQuery.Inspect
import EntityQuery.Json.Basic
import EntityQuery.Json.Fields
import EntityQuery.Json.Reader
import EntityQuery.Json.Writer
import EntityQuery.Number.Basic
import EntityQuery.Number.Decimal
import EntityQuery.Number.Power
import EntityQuery.Number.Shortest
import EntityQuery.Predicate.Basic
import EntityQuery.Proofs.Document.Equality
import EntityQuery.Proofs.Document.Join
import EntityQuery.Proofs.Document.Lookup
import EntityQuery.Proofs.Document.Paths
import EntityQuery.Proofs.Document.Pattern
import EntityQuery.Proofs.Document.Selection
import EntityQuery.Proofs.Entity.Notes
import EntityQuery.Proofs.FieldMap.Building
import EntityQuery.Proofs.Filter.Advertised
import EntityQuery.Proofs.Filter.Binding
import EntityQuery.Proofs.Filter.Classes
import EntityQuery.Proofs.Filter.Continuing
import EntityQuery.Proofs.Filter.Derived
import EntityQuery.Proofs.Filter.Faults
import EntityQuery.Proofs.Filter.Fitting
import EntityQuery.Proofs.Filter.Grammar
import EntityQuery.Proofs.Filter.Language
import EntityQuery.Proofs.Filter.Locating
import EntityQuery.Proofs.Filter.Margins
import EntityQuery.Proofs.Filter.Outline
import EntityQuery.Proofs.Filter.Reading
import EntityQuery.Proofs.Filter.Recasing
import EntityQuery.Proofs.Filter.Regrouping
import EntityQuery.Proofs.Filter.Relexing
import EntityQuery.Proofs.Filter.Renaming
import EntityQuery.Proofs.Filter.Resolving
import EntityQuery.Proofs.Filter.Restyling
import EntityQuery.Proofs.Filter.Rewriting
import EntityQuery.Proofs.Filter.Scanning
import EntityQuery.Proofs.Filter.Sizes
import EntityQuery.Proofs.Filter.Subtrees
import EntityQuery.Proofs.Filter.Typing
import EntityQuery.Proofs.Guid.Spelling
import EntityQuery.Proofs.Json.Nested
import EntityQuery.Proofs.Lists
import EntityQuery.Proofs.Number.Rounding
import EntityQuery.Proofs.Number.Spelling
import EntityQuery.Proofs.Query.Backends
import EntityQuery.Proofs.Query.Checking
import EntityQuery.Proofs.Query.Including
import EntityQuery.Proofs.Query.Loading
import EntityQuery.Proofs.Query.Mentions
import EntityQuery.Proofs.Query.Order
import EntityQuery.Proofs.Query.Paging
import EntityQuery.Proofs.Query.Preorder
import EntityQuery.Proofs.Query.Projection
import EntityQuery.Proofs.Query.Resending
import EntityQuery.Proofs.Query.Restyling
import EntityQuery.Proofs.Query.SortKeys
import EntityQuery.Proofs.Query.Sorting
import EntityQuery.Proofs.Query.Visibility
import EntityQuery.Proofs.RoundTrip.Era
import EntityQuery.Proofs.RoundTrip.Filter
import EntityQuery.Proofs.RoundTrip.Guid
import EntityQuery.Proofs.RoundTrip.Instant
import EntityQuery.Proofs.RoundTrip.Tree
import EntityQuery.Proofs.RoundTrip.Value
import EntityQuery.Proofs.Sql.Agreement
import EntityQuery.Proofs.Sql.Escaping
import EntityQuery.Proofs.Sql.Expression
import EntityQuery.Proofs.Sql.Identifier
import EntityQuery.Proofs.Sql.Like
import EntityQuery.Proofs.Sql.Meaning
import EntityQuery.Proofs.Sql.Ordering
import EntityQuery.Proofs.Sql.Parameters
import EntityQuery.Proofs.Sql.Placeholders
import EntityQuery.Proofs.Sql.PlanOrder
import EntityQuery.Proofs.Sql.Rendering
import EntityQuery.Proofs.Sql.Statements
import EntityQuery.Proofs.Sql.Token
import EntityQuery.Proofs.Text.Case
import EntityQuery.Proofs.Time.Calendar
import EntityQuery.Proofs.Time.Denoted
import EntityQuery.Proofs.Time.Numbers
import EntityQuery.Proofs.Time.Reading
import EntityQuery.Proofs.Time.Recognizing
import EntityQuery.Proofs.Time.Spelling
import EntityQuery.Proofs.Time.Unambiguous
import EntityQuery.Proofs.Time.Written
import EntityQuery.Query.Compile
import EntityQuery.Query.IncludeSet
import EntityQuery.Query.Page
import EntityQuery.Query.Projection
import EntityQuery.Query.Request
import EntityQuery.Query.Sort
import EntityQuery.Query.StableSort
import EntityQuery.Registry
import EntityQuery.SortDirection
import EntityQuery.Sql.Condition
import EntityQuery.Sql.Like
import EntityQuery.Sql.Name
import EntityQuery.Sql.Statement
import EntityQuery.Store
import EntityQuery.Text.Blank
import EntityQuery.Text.Case
import EntityQuery.Text.CaseTable
import EntityQuery.Text.Escape
import EntityQuery.Text.Hex
import EntityQuery.Text.HiddenTable
import EntityQuery.Text.Pattern
import EntityQuery.Text.Quoted
import EntityQuery.Time.Date
import EntityQuery.Time.Instant
import EntityQuery.Time.Reader
import EntityQuery.Value
import EntityQuery.Proofs.Document.Flattening
import EntityQuery.Proofs.Filter.Bounds
import EntityQuery.Proofs.Filter.Quoting
