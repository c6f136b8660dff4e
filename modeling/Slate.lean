import Slate.CommandLine.Directory
import Slate.Main
import Slate.Proofs.CommandLine.Failures
import Slate.Proofs.Compile.Addresses
import Slate.Proofs.Compile.Balance
import Slate.Proofs.Compile.Conformance
import Slate.Proofs.Compile.Definitions
import Slate.Proofs.Compile.Jumps
import Slate.Proofs.Compile.Literals
import Slate.Proofs.Compile.PrintRoutine
import Slate.Proofs.Diagnostic
import Slate.Proofs.Eval.Builtins
import Slate.Proofs.Eval.Context
import Slate.Proofs.Eval.DepthLimit
import Slate.Proofs.Eval.FailingSinks
import Slate.Proofs.Eval.Lifetimes
import Slate.Proofs.Eval.Linked
import Slate.Proofs.Eval.LoopFree
import Slate.Proofs.Eval.Sessions
import Slate.Proofs.Flow.Accepted
import Slate.Proofs.Flow.Joined
import Slate.Proofs.Flow.Layout
import Slate.Proofs.Flow.Texts
import Slate.Proofs.Grammar.Earliest
import Slate.Proofs.Grammar.Nested
import Slate.Proofs.Grammar.Powers
import Slate.Proofs.Grammar.Progress
import Slate.Proofs.Grammar.RoundTrip
import Slate.Proofs.Renaming
import Slate.Proofs.Token.Classified
import Slate.Proofs.Token.Resumed
import Slate.Proofs.Typing.Casts
import Slate.Proofs.Typing.Decided
import Slate.Proofs.Typing.Rechecked
import Slate.Typing.Elaboration
