import ExprLang.Main
import ExprLang.Proofs.Grammar.Completeness
import ExprLang.Proofs.Grammar.Continuation
import ExprLang.Proofs.Grammar.Truncation
import ExprLang.Proofs.Parser.Ending
import ExprLang.Proofs.Grammar.Soundness
import ExprLang.Proofs.Grammar.Recognition
import ExprLang.Proofs.Grammar.Nesting
import ExprLang.Proofs.Grammar.OperatorChain
import ExprLang.Proofs.Grammar.Blame
import ExprLang.Proofs.Grammar.Contents
import ExprLang.Proofs.Number.Positional
import ExprLang.Proofs.Number.ReadBack
import ExprLang.Proofs.Grammar.Writing
import ExprLang.Proofs.Grammar.RoundTrip
import ExprLang.Proofs.Tree.PrintedForm
import ExprLang.Proofs.Parser.Movement
import ExprLang.Proofs.Parser.Lockstep
import ExprLang.Proofs.Parser.Uniformity
import ExprLang.Proofs.Parser.Locality
import ExprLang.Proofs.Parser.LikeStreams
import ExprLang.Proofs.Parser.Cutoff
import ExprLang.Proofs.Parser.Limit
import ExprLang.Proofs.Parser.Passage
import ExprLang.Proofs.Parser.Operations
import ExprLang.Proofs.Parser.Termination
import ExprLang.Proofs.Trace.Record
import ExprLang.Proofs.Grammar.Concatenation
import ExprLang.Proofs.Grammar.EndOfInput
import ExprLang.Proofs.Text.Bytes
import ExprLang.Proofs.Source.LineLookup
import ExprLang.Proofs.Token.Shapes
import ExprLang.Proofs.Token.Language
import ExprLang.Proofs.Token.Boundary
import ExprLang.Proofs.Token.Tiling
import ExprLang.Proofs.Token.Scanning
import ExprLang.Proofs.Token.MaximalMunch
import ExprLang.Proofs.Token.Layout
import ExprLang.Proofs.Token.LineFeed
import ExprLang.Proofs.Token.Unrecognised
import ExprLang.Proofs.Token.Coverage
import ExprLang.Proofs.Source.Location
import ExprLang.Proofs.Token.PlainLine
import ExprLang.Proofs.Source.Arrow
import ExprLang.Proofs.Parser.Reentry
import ExprLang.Proofs.Trace.Functions
