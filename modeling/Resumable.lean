import Resumable.Canon.Canonicalize
import Resumable.Canon.Classifier
import Resumable.Canon.Node
import Resumable.Canon.Refusal
import Resumable.Canon.Tag
import Resumable.Command.Arguments
import Resumable.Command.Compile
import Resumable.Command.Output
import Resumable.Command.Path
import Resumable.Doc
import Resumable.Doc.Layout
import Resumable.Grammar.Derivation
import Resumable.Grammar.Meaning
import Resumable.Grammar.Production
import Resumable.Grammar.Symbol
import Resumable.Ir
import Resumable.Ir.Scope
import Resumable.Ir.Terminal
import Resumable.Main
import Resumable.Parser.Ahead
import Resumable.Parser.Hint
import Resumable.Parser.Run
import Resumable.Parser.State
import Resumable.Report.Basic
import Resumable.Report.Compile
import Resumable.Report.Illustration
import Resumable.Report.Outburst
import Resumable.Report.Session
import Resumable.Source.Declaration
import Resumable.Source.Expr
import Resumable.Source.Phrase
import Resumable.Source.Spot
import Resumable.Source.Stmt
import Resumable.Text.Blank
import Resumable.Text.Lines
import Resumable.Text.Numeral
import Resumable.Text.Printable
import Resumable.Text.Quoted
import Resumable.Text.Ranges
import Resumable.Token
import Resumable.Token.Pattern
import Resumable.Token.Scan
import Resumable.Tree
import Resumable.Tree.Printer
import Resumable.Tree.Reader
import Resumable.Proofs.Except
import Resumable.Proofs.Canon.Rules
import Resumable.Proofs.Canon.Shape
import Resumable.Proofs.Canon.Image
import Resumable.Proofs.Canon.Erasure
import Resumable.Proofs.Doc.Fit
import Resumable.Proofs.Doc.Laid
import Resumable.Proofs.Grammar.Enumeration
import Resumable.Proofs.Grammar.Language
import Resumable.Proofs.Parser.Ahead
import Resumable.Proofs.Parser.First
import Resumable.Proofs.Parser.Items
import Resumable.Proofs.Parser.Follow
import Resumable.Proofs.Parser.Stations
import Resumable.Proofs.Parser.Moves
import Resumable.Proofs.Parser.Accepted
import Resumable.Proofs.Report.Parsing
import Resumable.Proofs.Token.Matching
import Resumable.Proofs.Tree.Reading
import Resumable.Proofs.Tree.Ink
import Resumable.Proofs.Tree.RoundTrip
import Resumable.Proofs.Token.Partition
import Resumable.Proofs.Grammar.Extensible
import Resumable.Proofs.Parser.Refused
import Resumable.Proofs.Report.Earliest
import Resumable.Proofs.Canon.Blame
import Resumable.Proofs.Report.Accounting
import Resumable.Proofs.Canon.Writable
import Resumable.Proofs.Grammar.Expressible
import Resumable.Proofs.Grammar.Sound
import Resumable.Proofs.Canon.Writing
import Resumable.Proofs.Report.Expressed
import Resumable.Proofs.Ir.Scope
import Resumable.Proofs.Ir.Decoding
import Resumable.Proofs.Report.ReadBack
import Resumable.Proofs.Grammar.Named
import Resumable.Proofs.Report.Outcome
import Resumable.Proofs.Command.Arguments
import Resumable.Proofs.Command.Faithful
import Resumable.Proofs.Ir.Composition
import Resumable.Proofs.Grammar.Leaves
import Resumable.Proofs.Canon.Violations
import Resumable.Proofs.Grammar.Placed
import Resumable.Proofs.Report.Traced
import Resumable.Proofs.Report.Log
import Resumable.Proofs.Tree.Reference
import Resumable.Proofs.Text.Lines
import Resumable.Proofs.Doc.Width
import Resumable.Proofs.Tree.Separators
import Resumable.Proofs.Tree.Overlong
import Resumable.Proofs.Ir.Paths
import Resumable.Proofs.Canon.Constructed
import Resumable.Proofs.Canon.Verdict
import Resumable.Proofs.Token.Filler
import Resumable.Proofs.Canon.Moved
import Resumable.Proofs.Grammar.Moved
import Resumable.Proofs.Report.Spacing
import Resumable.Proofs.Tree.Legible
import Resumable.Proofs.Doc.Exact
import Resumable.Proofs.Parser.LongestMatch
import Resumable.Proofs.Text.Positional
import Resumable.Proofs.Canon.Constants
import Resumable.Proofs.Token.Numerals
import Resumable.Proofs.Canon.Within
import Resumable.Proofs.Report.Within
import Resumable.Proofs.Report.Numerals
import Resumable.Proofs.Doc.WorkList
