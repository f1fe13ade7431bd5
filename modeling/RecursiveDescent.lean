import RecursiveDescent.Action
import RecursiveDescent.Diagnostics.Report
import RecursiveDescent.Display
import RecursiveDescent.Session
import RecursiveDescent.Proofs.RuleEquations
import RecursiveDescent.Proofs.Coverage
import RecursiveDescent.Proofs.Termination
import RecursiveDescent.Proofs.Json.RoundTrip
import RecursiveDescent.Proofs.DefinitionOrder
import RecursiveDescent.Proofs.EarlyParses
import RecursiveDescent.Proofs.Answers
import RecursiveDescent.Proofs.Provenance
import RecursiveDescent.Proofs.Inlining
import RecursiveDescent.Proofs.Installs
import RecursiveDescent.Proofs.Recognition
import RecursiveDescent.Proofs.ForwardPatterns
import RecursiveDescent.Proofs.Offsets
import RecursiveDescent.Proofs.Persistence
import RecursiveDescent.Proofs.Access
import RecursiveDescent.Proofs.Spans
import RecursiveDescent.Proofs.WellFormed
import RecursiveDescent.Proofs.Separation
import RecursiveDescent.Proofs.EndOfSource
import RecursiveDescent.Proofs.Distribution
import RecursiveDescent.Proofs.IntegerRoundTrip
import RecursiveDescent.Proofs.DecimalValues
import RecursiveDescent.Proofs.Excerpt
import RecursiveDescent.Proofs.Positions
import RecursiveDescent.Proofs.LiteralPatterns
import RecursiveDescent.Proofs.CompiledPatterns
import RecursiveDescent.Proofs.Json.Objects
