import Rewind.Grammar.Live
import Rewind.Json.Reading
import Rewind.Parser.Session
import Rewind.Position
import Rewind.Text.Blank
import Rewind.Proofs.Parser.RunProperty
import Rewind.Proofs.Grammar.RunProperty
import Rewind.Proofs.Grammar.Discipline
import Rewind.Proofs.Failure.Furthest
import Rewind.Proofs.Failure.Band
import Rewind.Proofs.Grammar.Furthest
import Rewind.Proofs.Parser.Agreement
import Rewind.Proofs.Parser.Choice
import Rewind.Proofs.Json.Token
import Rewind.Proofs.Json.Plain
import Rewind.Proofs.Json.Soundness
import Rewind.Proofs.Parser.Accepts
import Rewind.Proofs.Json.TokenCompleteness
import Rewind.Proofs.Json.Completeness
import Rewind.Proofs.Json.Recognition
import Rewind.Proofs.Json.Bytes
import Rewind.Proofs.Json.Faults
import Rewind.Proofs.Json.Rendering
import Rewind.Proofs.Json.RoundTrip
import Rewind.Proofs.Json.Form
import Rewind.Proofs.Json.Prospects
import Rewind.Proofs.Parser.Overlap
import Rewind.Proofs.Json.Tidy
import Rewind.Proofs.Json.Overlap
import Rewind.Proofs.Json.Locality
import Rewind.Proofs.Parser.Laws
import Rewind.Proofs.Parser.Separation
import Rewind.Proofs.Parser.Lockstep
import Rewind.Proofs.Json.Lockstep
import Rewind.Proofs.Grammar.Tracing
import Rewind.Proofs.Grammar.Kinds
import Rewind.Proofs.Grammar.Truth
import Rewind.Proofs.Parser.Tracking
import Rewind.Proofs.Json.Tracking
import Rewind.Proofs.Json.Guard
import Rewind.Proofs.Json.Options
import Rewind.Proofs.Grammar.OrderedChoice
import Rewind.Proofs.Grammar.Counting
import Rewind.Proofs.Grammar.Bracketing
import Rewind.Proofs.Parser.Script
import Rewind.Proofs.Parser.Parallel
import Rewind.Proofs.Grammar.Parallel
import Rewind.Proofs.Grammar.References
import Rewind.Proofs.Grammar.Uncached
import Rewind.Proofs.Grammar.Caches
import Rewind.Proofs.Grammar.Reuse
import Rewind.Proofs.Json.Script
import Rewind.Proofs.Json.Strings
import Rewind.Proofs.Parser.Settles
import Rewind.Proofs.Json.Numbers
import Rewind.Proofs.Json.Delimiting
import Rewind.Proofs.Json.Progress
import Rewind.Proofs.Json.Overflow
import Rewind.Proofs.Json.Loop
import Rewind.Proofs.Number.Literal
import Rewind.Proofs.Number.Finite
import Rewind.Proofs.Number.Fraction
import Rewind.Proofs.Position.Walk
