import VisibilityRules.Builder
import VisibilityRules.Cache.Key
import VisibilityRules.Cache.State
import VisibilityRules.Condition.Written
import VisibilityRules.Configuration
import VisibilityRules.Document
import VisibilityRules.Registry.Operation
import VisibilityRules.Shorthand
import VisibilityRules.Proofs.Evaluation.Basic
import VisibilityRules.Proofs.Evaluation.ShortCircuit
import VisibilityRules.Proofs.Table
import VisibilityRules.Proofs.Value.NormalForm
import VisibilityRules.Proofs.Evaluation.Dependence
import VisibilityRules.Proofs.Registry.Step
import VisibilityRules.Proofs.Registry.History
import VisibilityRules.Proofs.Registry.FirstMatch
import VisibilityRules.Proofs.Dependency.Coverage
import VisibilityRules.Proofs.Number.Layout
import VisibilityRules.Proofs.Json.Quoted
import VisibilityRules.Proofs.Cache.Key
import VisibilityRules.Proofs.Cache.State
import VisibilityRules.Proofs.Cache.Transparency
import VisibilityRules.Proofs.Evaluation.Flattening
import VisibilityRules.Proofs.Number.Overflow
import VisibilityRules.Proofs.Dependency.Noninterference
import VisibilityRules.Proofs.Cache.KeyText
import VisibilityRules.Proofs.Evaluation.Failure
import VisibilityRules.Proofs.Schema.Reading
import VisibilityRules.Proofs.Document.Grammar
import VisibilityRules.Proofs.Json.Reader
import VisibilityRules.Proofs.Json.RoundTrip
import VisibilityRules.Proofs.Document.RoundTrip
import VisibilityRules.Proofs.Registry.Bulk
import VisibilityRules.Proofs.Registry.Atomicity
import VisibilityRules.Proofs.Cache.Stability
import VisibilityRules.Proofs.Registry.Hits
import VisibilityRules.Proofs.Cache.Request
import VisibilityRules.Proofs.Cache.Memoisation
import VisibilityRules.Proofs.Cache.Strategy
import VisibilityRules.Proofs.Registry.Separation
import VisibilityRules.Proofs.Number.Line
import VisibilityRules.Proofs.Number.Nearest
import VisibilityRules.Proofs.Value.Partwise
import VisibilityRules.Proofs.Value.EqualityLaws
import VisibilityRules.Proofs.Value.Coercion
import VisibilityRules.Proofs.Value.Order
import VisibilityRules.Proofs.Evaluation.Comparison
import VisibilityRules.Proofs.Evaluation.Shorthand
import VisibilityRules.Proofs.Builder.Membership
import VisibilityRules.Proofs.TermName.Search
import VisibilityRules.Proofs.TermName.Reading
import VisibilityRules.Proofs.Builder.Trace
import VisibilityRules.Proofs.Builder.Responsive
import VisibilityRules.Proofs.Builder.Canonical
import VisibilityRules.Proofs.FirstSeen
import VisibilityRules.Proofs.Registry.Arrival
import VisibilityRules.Proofs.Dependency.Tree
import VisibilityRules.Proofs.Configuration
import VisibilityRules.Proofs.Cache.Operations
import VisibilityRules.Proofs.Text.Spelling
import VisibilityRules.Proofs.Dependency.Agreement
import VisibilityRules.Proofs.Kept
import VisibilityRules.Proofs.Dependency.Extraction
import VisibilityRules.Proofs.Value.Digits
