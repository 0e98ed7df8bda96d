import RecordQuery.Text.Blank
import RecordQuery.Text.Lowercase
import RecordQuery.Text.Quoted
import RecordQuery.Text.EditDistance
import RecordQuery.Number.Shortest
import RecordQuery.Number.Decimal
import RecordQuery.Guid
import RecordQuery.Calendar.Notation
import RecordQuery.Token.Lexer
import RecordQuery.Error
import RecordQuery.Syntax.Parser
import RecordQuery.Plan.Compile
import RecordQuery.Query
import RecordQuery.Query.QueryString
import RecordQuery.Query.Json
import RecordQuery.Json.Writer
import RecordQuery.Options.Toml
import RecordQuery.Proofs.Schema.Conformance
import RecordQuery.Proofs.Schema.Lookup
import RecordQuery.Proofs.Outcome
import RecordQuery.Proofs.Plan.Rules
import RecordQuery.Proofs.Plan.Compilation
import RecordQuery.Proofs.Plan.Missing
import RecordQuery.Proofs.Plan.Typing
import RecordQuery.Proofs.Syntax.Grammar
import RecordQuery.Proofs.Syntax.Reading
import RecordQuery.Proofs.Order.Mixed
import RecordQuery.Proofs.Order.StableSort
import RecordQuery.Proofs.Order.Values
import RecordQuery.Proofs.Syntax.Recognition
import RecordQuery.Proofs.Query.Page
import RecordQuery.Proofs.Syntax.Depth
import RecordQuery.Proofs.Query.Calls
import RecordQuery.Proofs.Query.Observation
import RecordQuery.Proofs.Schema.Navigation
import RecordQuery.Proofs.Query.Sorting
import RecordQuery.Proofs.Plan.Faults
import RecordQuery.Proofs.Syntax.Composition
import RecordQuery.Proofs.Syntax.Printing
import RecordQuery.Proofs.Query.Tiling
import RecordQuery.Proofs.Schema.Unfolding
import RecordQuery.Proofs.Syntax.Spelling
import RecordQuery.Proofs.Text.LetterCase
import RecordQuery.Proofs.Plan.Stability
import RecordQuery.Proofs.Query.Spelling
import RecordQuery.Proofs.Token.Tiling
import RecordQuery.Proofs.Text.FormEncoding
import RecordQuery.Proofs.Query.QueryString
import RecordQuery.Proofs.Plan.Renaming
import RecordQuery.Proofs.Syntax.Nesting
import RecordQuery.Proofs.Syntax.Layout
import RecordQuery.Proofs.Plan.Comparisons
import RecordQuery.Proofs.Query.SortingInTurn
import RecordQuery.Proofs.Calendar.Midnight
import RecordQuery.Proofs.Plan.Fields
import RecordQuery.Proofs.Plan.Days
import RecordQuery.Proofs.Number.Rational
import RecordQuery.Proofs.Plan.Integers
import RecordQuery.Proofs.Plan.Occurrences
import RecordQuery.Proofs.Token.Numerals
import RecordQuery.Proofs.Plan.Hints
import RecordQuery.Proofs.Syntax.SortTerms
