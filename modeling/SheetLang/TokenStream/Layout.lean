import SheetLang.Program.WellFormed
import SheetLang.TokenStream

/-!
# Layouts

Tokens written out as a source: every token on the line it is said to start on, and
the tokens of one line with a space between them.  What a token may be written as is
said kind by kind, without regard to its neighbours.

Then a source with another text in the place of one of its lexemes.
-/

namespace SheetLang

/-- The text of a token is in the language of its kind. -/
def Token.Valid (token : Token) : Prop :=
  match token.kind with
  | .keyword word => token.text = word.text
  | .symbol mark => token.text = mark.text
  | .ident => IsScalarName token.text
  | .coordinate => IsCoordinate token.text
  | .rangeName => IsRangeName token.text
  | .sheetName => IsSheetName token.text
  | .funcName => IsFunctionName token.text
  | .integer => Shape.integer token.text.toList = true
  | .decimal => Shape.decimal token.text.toList = true
  | .info => Shape.info token.text.toList = true ∧ ¬['!', '='] <+: token.text.toList

namespace TokenStream

/-- Valid tokens in the order of their lines, which are counted from one. -/
structure Orderly (tokens : List Token) : Prop where
  valid : ∀ token ∈ tokens, token.Valid
  counted : ∀ token ∈ tokens, 1 ≤ token.line
  ascending : tokens.Pairwise fun token later => token.line ≤ later.line

/-- What stands in front of a token, behind one that starts on a line. -/
def gapBefore (line : Nat) (token : Token) : List Char :=
  if token.line = line then [' '] else List.replicate (token.line - line) '\n'

/-- The tokens behind one that starts on a line. -/
def layoutBehind (line : Nat) : List Token → List Char
  | [] => []
  | token :: rest => gapBefore line token ++ token.text.toList ++ layoutBehind token.line rest

/-- Tokens as a source. -/
def layout : List Token → String
  | [] => ""
  | first :: rest =>
    String.ofList
      (List.replicate (first.line - 1) '\n' ++ first.text.toList ++ layoutBehind first.line rest)

end TokenStream

/-- A text between lexemes, as a source. -/
def Lexeme.splice (before : List Lexeme) (text : String) (after : List Lexeme) : String :=
  String.ofList (before.flatMap Lexeme.text ++ (text.toList ++ after.flatMap Lexeme.text))

end SheetLang
