import RowQuery.Session
import RowQuery.Table.Cursor
import RowQuery.Proofs.Attempts
import RowQuery.Proofs.Condition.Connectives
import RowQuery.Proofs.Path.Failures
import RowQuery.Proofs.Condition.Fragment
import RowQuery.Proofs.Condition.MultiValue
import RowQuery.Proofs.Fields
import RowQuery.Proofs.Table.Selection
import RowQuery.Proofs.Table.Distinct
import RowQuery.Proofs.Table.Layout
import RowQuery.Proofs.Table.Movement
import RowQuery.Proofs.Evaluation.Rows
import RowQuery.Proofs.Evaluation.Stages
import RowQuery.Proofs.Path.Branches
import RowQuery.Proofs.Path.Breaks
import RowQuery.Proofs.Path.Leaves
import RowQuery.Proofs.Path.Composition
import RowQuery.Proofs.Path.Leniency
import RowQuery.Proofs.Path.Enumeration
import RowQuery.Proofs.Path.Itemwise
import RowQuery.Proofs.Condition.Congruence
import RowQuery.Proofs.Evaluation.Leniency
import RowQuery.Proofs.Evaluation.Locality
import RowQuery.Proofs.Evaluation.Sieve
import RowQuery.Proofs.Path.Agreement
import RowQuery.Proofs.Condition.Emptiness
import RowQuery.Proofs.Condition.Subset
import RowQuery.Proofs.Condition.Containment
import RowQuery.Proofs.Condition.Occurrence
import RowQuery.Proofs.Decimal.Digits
import RowQuery.Proofs.Calendar.Layouts
import RowQuery.Proofs.Calendar.Exclusion
import RowQuery.Proofs.Value.Inference
import RowQuery.Proofs.Calendar.Rendering
import RowQuery.Proofs.Decimal.Finite
import RowQuery.Proofs.Value.Canonical
import RowQuery.Proofs.Value.Rereading
import RowQuery.Proofs.Evaluation.WholeRow
import RowQuery.Proofs.Evaluation.Lossless
import RowQuery.Proofs.Recovery
import RowQuery.Proofs.Calendar.Literals
import RowQuery.Proofs.Form.RoundTrip
import RowQuery.Proofs.Value.Order
import RowQuery.Proofs.Condition.Comparison
import RowQuery.Proofs.Condition.Duality
import RowQuery.Proofs.Condition.Range
import RowQuery.Proofs.Condition.WholeNumbers
import RowQuery.Proofs.Condition.Parentheses
import RowQuery.Proofs.Table.Projection
import RowQuery.Proofs.Table.Hashing
import RowQuery.Proofs.Decimal.Rounding
import RowQuery.Proofs.Decimal.Places
import RowQuery.Proofs.Value.Widening
import RowQuery.Proofs.Condition.RangeWidening
import RowQuery.Proofs.Table.History
import RowQuery.Proofs.Calendar.Canonical
import RowQuery.Proofs.Decimal.Nearest
import RowQuery.Proofs.Value.Rendered
