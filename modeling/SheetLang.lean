import SheetLang.Main
import SheetLang.Program.Equality
import SheetLang.Proofs.Parser.Localisation
import SheetLang.Proofs.Program.Image
import SheetLang.Proofs.TokenStream.Layout
import SheetLang.Proofs.Grammar.Lines
import SheetLang.Proofs.Lexeme.LineBreaks
import SheetLang.Proofs.TokenStream.LineBreaks
import SheetLang.Proofs.Program.Appending
import SheetLang.Grammar.Boundaries
import SheetLang.Grammar.SheetRows
import SheetLang.Proofs.Grammar.Signs
import SheetLang.Proofs.Parser.SheetRows
import SheetLang.Proofs.Parser.SheetLiteral
import SheetLang.Proofs.Binary64.Nearest
import SheetLang.Proofs.Binary64.Shortest
import SheetLang.Outline.PlainZeros
import SheetLang.Program.PlainZeros
import SheetLang.Proofs.Binary64.Text
import SheetLang.Proofs.Program.Equality
import SheetLang.Proofs.Program.Faithfulness
import SheetLang.Content
import SheetLang.Proofs.Program.Content
import SheetLang.Outline.Path
import SheetLang.Outline.Schema
import SheetLang.Proofs.Outline.Paths
import SheetLang.Proofs.Program.Schema
import SheetLang.Proofs.Lexeme.Fronts
import SheetLang.TokenStream.Partition
import SheetLang.Proofs.TokenStream.Partition
import SheetLang.Parser.Refusal
import SheetLang.Program.Erased
import SheetLang.Proofs.Grammar.Erased
import SheetLang.Proofs.Parser.Respelling
import SheetLang.Parser.Trace
import SheetLang.Grammar.Lookahead
import SheetLang.Proofs.Parser.Trace
import SheetLang.CommandLine.Report
import SheetLang.Proofs.CommandLine.Drawing
import SheetLang.Proofs.CommandLine.Flags
import SheetLang.Proofs.Outline.Reading
import SheetLang.Proofs.Program.Reading
import SheetLang.Grammar.OperatorChain
import SheetLang.Proofs.Parser.OperatorChain
import SheetLang.Grammar.Production
import SheetLang.Proofs.Grammar.Productions
import SheetLang.Proofs.Parser.Parentheses
import SheetLang.Outline.Branches
import SheetLang.Graph.Numbering
import SheetLang.Graph.Quoting
import SheetLang.Graph.Visualizer
import SheetLang.Proofs.Outline.Branches
import SheetLang.Proofs.Graph.Drawing
import SheetLang.Proofs.Graph.Visualizer
import SheetLang.Proofs.Graph.Quoting
import SheetLang.Proofs.Graph.Reading
import SheetLang.Proofs.Parser.EndMark
import SheetLang.Lexeme.Uncommented
import SheetLang.Proofs.TokenStream.Comments
import SheetLang.Parser.Calls
import SheetLang.Program.Integers
import SheetLang.Proofs.Program.Integers
import SheetLang.Proofs.Grammar.Integers
import SheetLang.Proofs.Lexeme.WholeNumbers
import SheetLang.Proofs.Parser.Calls
import SheetLang.Proofs.Parser.WholeNumbers
import SheetLang.Cursor
import SheetLang.Cursor.Pieces
import SheetLang.Cursor.InStep
import SheetLang.Proofs.Cursor.Bytes
import SheetLang.Proofs.Cursor.Passing
import SheetLang.Proofs.Cursor.Pieces
import SheetLang.Proofs.Cursor.Calls
import SheetLang.Proofs.Cursor.Answers
