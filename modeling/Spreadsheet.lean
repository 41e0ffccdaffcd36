import Spreadsheet.Binary64.Bits
import Spreadsheet.Binary64.Sum
import Spreadsheet.Calendar.Format
import Spreadsheet.Dependency.Cycle
import Spreadsheet.Dependency.Links
import Spreadsheet.Dependency.Order
import Spreadsheet.Dependency.Tracker
import Spreadsheet.Eval.Formula
import Spreadsheet.Grid
import Spreadsheet.Json.Printer
import Spreadsheet.Json.Reader
import Spreadsheet.Number.Display
import Spreadsheet.Number.Reading
import Spreadsheet.Number.Splice
import Spreadsheet.Proofs.Binary64.Grouping
import Spreadsheet.Proofs.Binary64.Monotone
import Spreadsheet.Proofs.Binary64.Rounding
import Spreadsheet.Proofs.Binary64.Value
import Spreadsheet.Proofs.Decimal.Fixed
import Spreadsheet.Proofs.Decimal.Leading
import Spreadsheet.Proofs.Decimal.Longest
import Spreadsheet.Proofs.Decimal.Numeral
import Spreadsheet.Proofs.Decimal.Shortest
import Spreadsheet.Proofs.Decimal.Written
import Spreadsheet.Proofs.Dependency.Agreement
import Spreadsheet.Proofs.Dependency.Among
import Spreadsheet.Proofs.Dependency.Arrangement
import Spreadsheet.Proofs.Dependency.Cycles
import Spreadsheet.Proofs.Dependency.Edges
import Spreadsheet.Proofs.Dependency.Enumeration
import Spreadsheet.Proofs.Dependency.Legible
import Spreadsheet.Proofs.Dependency.Links
import Spreadsheet.Proofs.Dependency.Order
import Spreadsheet.Proofs.Dependency.Reach
import Spreadsheet.Proofs.Dependency.Rejected
import Spreadsheet.Proofs.Dependency.Search
import Spreadsheet.Proofs.Dependency.Tracker
import Spreadsheet.Proofs.Eval.Arithmetic
import Spreadsheet.Proofs.Eval.ExactSum
import Spreadsheet.Proofs.Eval.Fallback
import Spreadsheet.Proofs.Eval.Literal
import Spreadsheet.Proofs.Eval.Lookup
import Spreadsheet.Proofs.Eval.OneCell
import Spreadsheet.Proofs.Eval.ReadSet
import Spreadsheet.Proofs.Eval.RefusedKey
import Spreadsheet.Proofs.Eval.Rounded
import Spreadsheet.Proofs.Eval.SortedLookup
import Spreadsheet.Proofs.Eval.Spacing
import Spreadsheet.Proofs.Eval.Surfacing
import Spreadsheet.Proofs.Eval.TableColumn
import Spreadsheet.Proofs.Eval.Textual
import Spreadsheet.Proofs.Eval.ThroughCell
import Spreadsheet.Proofs.Formula.Adjacent
import Spreadsheet.Proofs.Formula.Boundary
import Spreadsheet.Proofs.Formula.Completeness
import Spreadsheet.Proofs.Formula.Cover
import Spreadsheet.Proofs.Formula.EitherCase
import Spreadsheet.Proofs.Formula.Letters
import Spreadsheet.Proofs.Formula.Margins
import Spreadsheet.Proofs.Formula.Operands
import Spreadsheet.Proofs.Formula.Padding
import Spreadsheet.Proofs.Formula.Pattern
import Spreadsheet.Proofs.Formula.Piece
import Spreadsheet.Proofs.Formula.Progress
import Spreadsheet.Proofs.Formula.Reads
import Spreadsheet.Proofs.Formula.Soundness
import Spreadsheet.Proofs.Formula.Spaced
import Spreadsheet.Proofs.Formula.Spelling
import Spreadsheet.Proofs.Grid
import Spreadsheet.Proofs.Number.Display
import Spreadsheet.Proofs.Number.Exponent
import Spreadsheet.Proofs.Number.Prefix
import Spreadsheet.Proofs.Number.Splice
import Spreadsheet.Proofs.Outcome
import Spreadsheet.Proofs.Recalculation.Affected
import Spreadsheet.Proofs.Recalculation.Consistency
import Spreadsheet.Proofs.Recalculation.Convergence
import Spreadsheet.Proofs.Recalculation.Edit
import Spreadsheet.Proofs.Recalculation.Frame
import Spreadsheet.Proofs.Recalculation.History
import Spreadsheet.Proofs.Recalculation.InsertionOrder
import Spreadsheet.Proofs.Recalculation.Pass
import Spreadsheet.Proofs.Recalculation.Readable
import Spreadsheet.Proofs.Recalculation.Refresh
import Spreadsheet.Proofs.Recalculation.Rendering
import Spreadsheet.Proofs.Recalculation.Settled
import Spreadsheet.Proofs.Recalculation.Success
import Spreadsheet.Proofs.Reference.Coordinates
import Spreadsheet.Proofs.Reference.Expansion
import Spreadsheet.Proofs.Reference.Notation
import Spreadsheet.Proofs.Reference.Rectangle
import Spreadsheet.Proofs.Reference.Refusal
import Spreadsheet.Proofs.Reference.Sorting
import Spreadsheet.Proofs.Reference.Stable
import Spreadsheet.Proofs.Service.Evaluation
import Spreadsheet.Proofs.Service.Expansion
import Spreadsheet.Proofs.Service.Recalculation
import Spreadsheet.Proofs.Service.Request
import Spreadsheet.Proofs.Store.Input
import Spreadsheet.Proofs.Store.Reload
import Spreadsheet.Proofs.Text.Blank
import Spreadsheet.Proofs.Text.Padded
import Spreadsheet.Proofs.Text.Upper
import Spreadsheet.Recalculation
import Spreadsheet.Report
import Spreadsheet.Service.Endpoint
