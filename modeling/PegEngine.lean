import PegEngine.Workspace
import PegEngine.Callback.Script
import PegEngine.Main
import PegEngine.Proofs.Journal
import PegEngine.Proofs.Reachability
import PegEngine.Proofs.Callback.Course
import PegEngine.Proofs.Matching.Isolation
import PegEngine.Proofs.Matching.ByValue
import PegEngine.Proofs.Matching.Refinement
import PegEngine.Proofs.Peg.Judgement
import PegEngine.Proofs.Peg.Primitives
import PegEngine.Proofs.Peg.Soundness
import PegEngine.Proofs.Peg.Completeness
import PegEngine.Proofs.Graph.Coherence
import PegEngine.Proofs.Graph.Release
import PegEngine.Proofs.Graph.Binding
import PegEngine.Proofs.Graph.Built
import PegEngine.Proofs.Graph.Freeing
import PegEngine.Proofs.Matching.Spans
import PegEngine.Proofs.Graph.Copies
import PegEngine.Proofs.Tokenizer.Tracing
import PegEngine.Proofs.Tokenizer.Nesting
import PegEngine.Proofs.Tokenizer.Resumption
import PegEngine.Proofs.Matching.CallTree
import PegEngine.Proofs.Callback.Conduct
import PegEngine.Proofs.Matching.TracedCalls
import PegEngine.Proofs.Graph.Completion
import PegEngine.Proofs.Pattern.Recognition
import PegEngine.Proofs.Pattern.Making
import PegEngine.Proofs.Lexer.Patterns
import PegEngine.Proofs.Lexer.Strings
import PegEngine.Proofs.Lexer.Rules
import PegEngine.Proofs.Lexer.Steps
import PegEngine.Proofs.Lexer.Tokens
import PegEngine.Proofs.Lexer.Stops
import PegEngine.Proofs.Stacks.Snapshots
import PegEngine.Proofs.Stacks.StaleCheckpoints
import PegEngine.Proofs.Matching.Bounds
import PegEngine.Proofs.Matching.CaptureOrder
import PegEngine.Proofs.Matching.Displacement
import PegEngine.Proofs.Matching.Suffix
import PegEngine.Proofs.Matching.Attribution
import PegEngine.Proofs.Matching.LeftRecursion
import PegEngine.Proofs.Matching.Flattening
import PegEngine.Proofs.Matching.Repetition
import PegEngine.Proofs.Matching.Unmentioned
import PegEngine.Proofs.Matching.Sources
import PegEngine.Proofs.Matching.Progress
import PegEngine.Proofs.Pattern.Lines
import PegEngine.Proofs.Pattern.Search
import PegEngine.Proofs.Pattern.Sums
import PegEngine.Proofs.Pattern.Tags
import PegEngine.Proofs.Trace.Faults
import PegEngine.Proofs.Lexer.StringMatches
import PegEngine.Proofs.Stacks.Observers
import PegEngine.Proofs.Rendering.Places
import PegEngine.Proofs.Trace.Printing
import PegEngine.Proofs.Rendering.Words
import PegEngine.Proofs.Rendering.Expressions
