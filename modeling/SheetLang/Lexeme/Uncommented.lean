import SheetLang.Lexeme

/-!
# Sources without comments

Of the gaps between tokens, those that begin with a dot are comments.  A source without its
comments has a space in the place of each.
-/

namespace SheetLang

/-- The text up to the first line break. -/
def firstLine (text : List Char) : List Char :=
  text.takeWhile (· != '\n')

namespace Lexeme

/-- Blanks begin no comment. -/
def isComment : Lexeme → Bool
  | gap text => text.head? == some '.'
  | token _ _ | illegal _ _ => false

/-- A space in the place of a comment. -/
def uncommented (lexeme : Lexeme) : Lexeme :=
  if lexeme.isComment then gap [' '] else lexeme

/-- The source with a space in the place of each comment. -/
def withoutComments (source : String) : String :=
  String.ofList (((cut source.toList).map uncommented).flatMap text)

end Lexeme

end SheetLang
