import GraphCalc.Expr.Sketch
import GraphCalc.Main
import GraphCalc.Session
import GraphCalc.Proofs.Text.Classes
import GraphCalc.Proofs.Token.Spelling
import GraphCalc.Proofs.Item.Nesting
import GraphCalc.Proofs.Item.Partners
import GraphCalc.Proofs.Outline.Cuts
import GraphCalc.Proofs.Outline.Top
import GraphCalc.Proofs.Outline.Relabelled
import GraphCalc.Proofs.Expr.Limit
import GraphCalc.Proofs.Number.Numeral
import GraphCalc.Proofs.Grammar.Basic
import GraphCalc.Proofs.Grammar.Reading
import GraphCalc.Proofs.Token.Windows
import GraphCalc.Proofs.Expr.Moved
import GraphCalc.Proofs.Checked.Positions
import GraphCalc.Proofs.Checked.Ranges
import GraphCalc.Proofs.Checked.Outlines
import GraphCalc.Proofs.Checked.Builder
import GraphCalc.Proofs.Checked.Matching
import GraphCalc.Proofs.Checked.Once
import GraphCalc.Proofs.Checked.Setting
import GraphCalc.Proofs.Number.Bits
import GraphCalc.Proofs.Number.Decimal
import GraphCalc.Proofs.Number.Written
import GraphCalc.Proofs.Expr.Polish
import GraphCalc.Proofs.Expr.PostOrder
import GraphCalc.Proofs.Expr.Height
import GraphCalc.Proofs.Expr.Readable
import GraphCalc.Proofs.Expr.Simplify
import GraphCalc.Proofs.Number.Exact
import GraphCalc.Proofs.Grammar.Rendered
import GraphCalc.Proofs.Entering
import GraphCalc.Proofs.Expr.Slope
import GraphCalc.Proofs.Expr.Laws
import GraphCalc.Proofs.Number.Neutral
import GraphCalc.Proofs.Expr.Doubles
import GraphCalc.Proofs.Expr.Value
import GraphCalc.Proofs.Session.Runs
import GraphCalc.Proofs.Curve.Trail
import GraphCalc.Proofs.Figure
import GraphCalc.Proofs.Expr.Normal
import GraphCalc.Proofs.Grammar.Composed
import GraphCalc.Proofs.Curve.Replay
import GraphCalc.Proofs.Session.Curves
import GraphCalc.Proofs.Shell.Runs
import GraphCalc.Proofs.Token.Spans
import GraphCalc.Proofs.Token.Stumbles
import GraphCalc.Proofs.Expr.Folding
import GraphCalc.Proofs.Expr.Logarithms
import GraphCalc.Proofs.Expr.Complaints
import GraphCalc.Proofs.Expr.Twins
import GraphCalc.Proofs.Grammar.Accounted
import GraphCalc.Proofs.Quadrature
import GraphCalc.Proofs.Segments
import GraphCalc.Proofs.Curve.Grid
import GraphCalc.Proofs.Number.Rounding
import GraphCalc.Proofs.Number.Place
import GraphCalc.Proofs.Number.Sum
import GraphCalc.Proofs.Progress
import GraphCalc.Proofs.Grammar.Literals
import GraphCalc.Proofs.Number.Tolerance
import GraphCalc.Proofs.Shell.Words
