import Measures.Binary64.Arithmetic
import Measures.Binary64.Reading
import Measures.Binary64.Text
import Measures.Text.Quoted
import Measures.Datum.Basic
import Measures.Fault
import Measures.Datum.Number
import Measures.Datum.Rule
import Measures.Quantity.Power
import Measures.Quantity.Make
import Measures.Quantity.Algebra
import Measures.Quantity.Function
import Measures.Json.Parser
import Measures.Json.Printer
import Measures.Json.Compare
import Measures.Pattern.Reading
import Measures.Schema.Reading
import Measures.Property.Registry
import Measures.Property.Contract
import Measures.Property.Document
import Measures.Property.Lookup
import Measures.Quantity.Validation
import Measures.Session
import Measures.Catalog.Step
import Measures.Formula
import Measures.Scalar.Guarded
import Measures.Quantity.Limited
import Measures.Proofs.Session.Change
import Measures.Proofs.Binary64.Exact
import Measures.Proofs.Scalar.Wrap
import Measures.Proofs.Session.Step
import Measures.Proofs.Failure
import Measures.Proofs.Quantity.Sound
import Measures.Proofs.Session.Sound
import Measures.Proofs.Quantity.Alike
import Measures.Proofs.Session.Failure
import Measures.Proofs.Session.Lockstep
import Measures.Proofs.Property.Registry
import Measures.Proofs.Property.Registration
import Measures.Proofs.Quantity.Dimension
import Measures.Proofs.Quantity.Product
import Measures.Proofs.Pattern.Matching
import Measures.Proofs.Quantity.Kind
import Measures.Proofs.Property.Name
import Measures.Proofs.Schema.Check
import Measures.Proofs.Property.Contract
import Measures.Proofs.Property.Definition
import Measures.Proofs.Property.Loading
import Measures.Proofs.Property.Agreement
import Measures.Proofs.Property.Reachable
import Measures.Proofs.Quantity.Validation
import Measures.Proofs.Session.Validation
import Measures.Proofs.Json.Distinct
import Measures.Proofs.Schema.Path
import Measures.Proofs.Catalog.Step
import Measures.Proofs.Catalog.Default
import Measures.Proofs.Property.Verdict
import Measures.Proofs.Property.Lookup
import Measures.Proofs.Property.Writing
import Measures.Proofs.Property.Order
import Measures.Proofs.Catalog.Loader
import Measures.Proofs.Session.Frame
import Measures.Proofs.Session.Provenance
import Measures.Proofs.Binary64.Whole
import Measures.Proofs.Scalar.Guarded
import Measures.Proofs.Quantity.Surface
import Measures.Proofs.Session.Surface
import Measures.Proofs.Binary64.Arithmetic
import Measures.Proofs.Quantity.Rules
import Measures.Proofs.Quantity.Classification
import Measures.Proofs.Session.Rules
import Measures.Proofs.Session.Classification
import Measures.Proofs.Binary64.Held
import Measures.Proofs.Binary64.Rounding
import Measures.Proofs.Binary64.Rational
import Measures.Proofs.Scalar.Period
import Measures.Proofs.Scalar.Inverse
import Measures.Proofs.Quantity.Round
import Measures.Proofs.Session.Inverse
import Measures.Proofs.Binary64.TowardZero
import Measures.Proofs.Scalar.Saturation
import Measures.Proofs.Session.Integer
import Measures.Proofs.Scalar.Remainder
import Measures.Proofs.Session.Remainder
import Measures.Proofs.Binary64.Error
import Measures.Proofs.Scalar.Close
import Measures.Proofs.Unit.RoundTrip
import Measures.Proofs.Binary64.Reading
import Measures.Proofs.Binary64.Text
import Measures.Proofs.Quantity.Text
import Measures.Proofs.Session.Text
import Measures.Proofs.Quantity.WholePart
import Measures.Proofs.Binary64.Overflow
import Measures.Proofs.Scalar.Quotient
import Measures.Proofs.Property.Grammar
import Measures.Proofs.Session.Extremum
import Measures.Proofs.Quantity.Limited
import Measures.Proofs.Session.Diagnostic
