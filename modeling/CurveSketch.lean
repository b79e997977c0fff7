import CurveSketch.Environment
import CurveSketch.Expr.Grammar
import CurveSketch.Main
import CurveSketch.Program.Balance
import CurveSketch.Service.Routes
import CurveSketch.Value.Plain
import CurveSketch.Value.Reader
import CurveSketch.Proofs.Postfix
import CurveSketch.Proofs.Evaluation
import CurveSketch.Proofs.Precedence
import CurveSketch.Proofs.Reading
import CurveSketch.Proofs.Compilation
import CurveSketch.Proofs.StackSafety
import CurveSketch.Proofs.Substitution
import CurveSketch.Proofs.Completion
import CurveSketch.Proofs.Scanning
import CurveSketch.Proofs.Difference
import CurveSketch.Proofs.Windows
import CurveSketch.Proofs.Polyline
import CurveSketch.Proofs.Sampling
import CurveSketch.Proofs.Curve
import CurveSketch.Proofs.Nesting
import CurveSketch.Proofs.Service
import CurveSketch.Proofs.Writing
import CurveSketch.Proofs.Sessions
import CurveSketch.Proofs.Configuration
import CurveSketch.Proofs.Normalization
import CurveSketch.Proofs.Finiteness
import CurveSketch.Proofs.Products
import CurveSketch.Proofs.Leniency
import CurveSketch.Proofs.Stripping
import CurveSketch.Proofs.CommandLine
import CurveSketch.Proofs.Conservation
import CurveSketch.Proofs.Constancy
import CurveSketch.Proofs.Words
import CurveSketch.Proofs.Respacing
import CurveSketch.Proofs.Grid
import CurveSketch.Proofs.Ranges
import CurveSketch.Proofs.Extent
import CurveSketch.Proofs.Waiting
