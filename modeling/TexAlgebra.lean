import TexAlgebra.Main
import TexAlgebra.Text.Quoted
import TexAlgebra.Proofs.Evaluation.Steps
import TexAlgebra.Proofs.Printer.Results
import TexAlgebra.Proofs.Evaluation.Meaning
import TexAlgebra.Proofs.Expansion.Meaning
import TexAlgebra.Proofs.Expansion.Agreement
import TexAlgebra.Proofs.Grammar.Layers
import TexAlgebra.Proofs.Printer.RoundTrip
import TexAlgebra.Proofs.Session.Soundness
import TexAlgebra.Proofs.Session.Failures
import TexAlgebra.Proofs.Evaluation.Closures
import TexAlgebra.Proofs.Session.Answers
import TexAlgebra.Proofs.Session.Joined
import TexAlgebra.Proofs.Printer.Vocabulary
import TexAlgebra.Proofs.Token.Tiling
import TexAlgebra.Proofs.Document.Recovery
import TexAlgebra.Proofs.Environment.Resolution
import TexAlgebra.Proofs.Expansion.Normal
import TexAlgebra.Proofs.Expansion.Stepper
import TexAlgebra.Proofs.Document.Lossless
import TexAlgebra.Proofs.Document.Restored
import TexAlgebra.Proofs.Document.Reprinted
import TexAlgebra.Proofs.Evaluation.Folded
import TexAlgebra.Proofs.Evaluation.Respelled
import TexAlgebra.Proofs.Typing.Splitting
import TexAlgebra.Proofs.Session.Fresh
import TexAlgebra.Proofs.Token.Spacing
import TexAlgebra.Proofs.Printer.Literals
import TexAlgebra.Proofs.CommandLine.Stopping
import TexAlgebra.Proofs.Matching.Spelling
import TexAlgebra.Proofs.Shell.Reports
import TexAlgebra.Proofs.Grammar.Lists
