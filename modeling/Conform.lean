import Conform.Registry.Config
import Conform.Proofs.Compile.Inside
import Conform.Proofs.Compile.Comparison
import Conform.Proofs.Compile.Unfolding
import Conform.Proofs.Registry.Step
import Conform.Proofs.Registry.Sound
import Conform.Proofs.Compile.Outcome
import Conform.Proofs.Registry.Alias
import Conform.Proofs.Registry.Stability
import Conform.Proofs.Registry.Context
import Conform.Proofs.Check.Accepted
import Conform.Proofs.Meaning.Faithful
import Conform.Proofs.Number.Rounding
import Conform.Proofs.Number.Decimal
import Conform.Proofs.Number.Order
import Conform.Proofs.Number.Exact
import Conform.Proofs.Range
import Conform.Proofs.Range.Bounds
import Conform.Proofs.Range.Count
import Conform.Proofs.Meaning.Grammar
import Conform.Proofs.Registry.CoreOnly
import Conform.Proofs.Value.Content
import Conform.Proofs.Value.RoundTrip
import Conform.Proofs.Json.Numeral
import Conform.Proofs.Json.Layout
import Conform.Proofs.Json.Token
import Conform.Proofs.Json.Text
import Conform.Proofs.Check.Parallel
import Conform.Proofs.Check.Record
import Conform.Proofs.Check.Spelling
import Conform.Proofs.Compile.Parallel
import Conform.Proofs.Registry.Loosening
import Conform.Proofs.Registry.Spelling
import Conform.Proofs.Registry.Key
import Conform.Proofs.Compile.Confined
import Conform.Proofs.Registry.Commuting
import Conform.Proofs.Registry.Completion
import Conform.Proofs.Registry.Log
import Conform.Proofs.Registry.Configured
import Conform.Proofs.Registry.Naming
import Conform.Proofs.Schema.Expansion
import Conform.Proofs.Meaning.Integer
import Conform.Proofs.Compile.Points
import Conform.Proofs.Registry.Blame
import Conform.Proofs.Registry.Trace
import Conform.Proofs.Registry.Splitting
import Conform.Proofs.Value.Reading
import Conform.Proofs.Value.Text
import Conform.Proofs.Config.Reading
import Conform.Proofs.Config.RoundTrip
