import RecordFilter.Calendar.Moment
import RecordFilter.Calendar.Printing
import RecordFilter.Calendar.Reading
import RecordFilter.Coercion
import RecordFilter.Comparison
import RecordFilter.Compilation
import RecordFilter.Condition
import RecordFilter.Error
import RecordFilter.Json.Document
import RecordFilter.Json.Number
import RecordFilter.Json.Quoted
import RecordFilter.Json.ReadError
import RecordFilter.Json.Structure
import RecordFilter.Json.Tree
import RecordFilter.Limits
import RecordFilter.Literal
import RecordFilter.Number.Binary64
import RecordFilter.Number.Decimal
import RecordFilter.Number.FloatStyle
import RecordFilter.Number.Integer
import RecordFilter.Number.Shortest
import RecordFilter.Operator
import RecordFilter.Path
import RecordFilter.Proofs.FirstError
import RecordFilter.Proofs.Runs
import RecordFilter.Request
import RecordFilter.Request.Reading
import RecordFilter.Request.Writing
import RecordFilter.Resolution
import RecordFilter.Samples
import RecordFilter.Schema
import RecordFilter.Session
import RecordFilter.Text.Blank
import RecordFilter.Text.Folding
import RecordFilter.Text.Inspected
import RecordFilter.Text.LowerCase
import RecordFilter.Text.Name
import RecordFilter.Text.Order
import RecordFilter.Text.Visible
import RecordFilter.Value
import RecordFilter.Value.Inspected
import RecordFilter.ValueTest
import RecordFilter.Yaml.Node
import RecordFilter.Yaml.Scalar
import RecordFilter.Yaml.Token
import RecordFilter.Proofs.Blocks
import RecordFilter.Proofs.Reading
import RecordFilter.Proofs.Covering
import RecordFilter.Proofs.Following
import RecordFilter.Proofs.Reach
import RecordFilter.Proofs.Refusal
import RecordFilter.Proofs.Conforming
import RecordFilter.Proofs.Evaluation
import RecordFilter.Proofs.JoinedAlike
import RecordFilter.Proofs.JsonText
import RecordFilter.Proofs.PathText
import RecordFilter.Proofs.Rereading
import RecordFilter.Proofs.Transmission
import RecordFilter.Proofs.Respelling
import RecordFilter.Proofs.NamedFields
import RecordFilter.Proofs.Structures
import RecordFilter.Proofs.WireForms
import RecordFilter.Proofs.Routes
import RecordFilter.Proofs.FoldedText
import RecordFilter.Proofs.OperatorLaws
import RecordFilter.Proofs.Rounding
import RecordFilter.Proofs.ExactValue
import RecordFilter.Proofs.Numerals
import RecordFilter.Proofs.WholeNumbers
import RecordFilter.Proofs.SinglePrecision
import RecordFilter.Proofs.Coercing
import RecordFilter.Proofs.LiteralText
import RecordFilter.Proofs.TestOutcomes
import RecordFilter.Proofs.PathForms
import RecordFilter.Proofs.DayCount
import RecordFilter.Proofs.DateReadings
import RecordFilter.Proofs.WrittenMoments
import RecordFilter.Proofs.DateLiterals
import RecordFilter.Proofs.NumberTexts
import RecordFilter.Proofs.DocumentTexts
import RecordFilter.Proofs.LiteralReadings
import RecordFilter.Proofs.FieldLookup
import RecordFilter.Proofs.CodedValues
import RecordFilter.Proofs.NumberOrder
