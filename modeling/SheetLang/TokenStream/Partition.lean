import SheetLang.Lexeme.Rules
import SheetLang.TokenStream

/-!
# Partitions

A source as gaps and the texts of tokens in turn.  Of a gap only its own text is looked
at, and a token is on the line that the line breaks of the whole text before it lead to.
-/

namespace SheetLang

/-- The texts that comments have: three dots at either end, and no line break. -/
structure IsComment (text : List Char) : Prop where
  enough : 6 ≤ text.length
  begins : ['.', '.', '.'] <+: text
  ends : ['.', '.', '.'] <:+ text
  oneLine : '\n' ∉ text

/-- Blanks, line breaks and comments in any order. -/
inductive IsGap : List Char → Prop where
  | empty : IsGap []
  | blank : IsBlank character → IsGap rest → IsGap (character :: rest)
  | comment : IsComment text → IsGap rest → IsGap (text ++ rest)

/-- The line of what follows a text. -/
def lineBehind (text : List Char) : Nat :=
  1 + text.count '\n'

namespace TokenStream

/-- The text behind another one is that of the tokens with gaps before, between and behind
them. -/
inductive Partition : List Char → List Token → List Char → Prop where
  | gap : IsGap text → Partition passed [] text
  | token {token : Token} {tokens : List Token} : IsGap gap → '\n' ∉ token.text.toList →
      token.line = lineBehind (passed ++ gap) →
      Partition (passed ++ gap ++ token.text.toList) tokens rest →
      Partition passed (token :: tokens) (gap ++ token.text.toList ++ rest)

/-- The line of an item. -/
def itemLine : Except Fault Token → Nat
  | .ok token => token.line
  | .error fault => fault.line

/-- The items of a stream: its tokens, and behind them its fault. -/
def items (stream : TokenStream) : List (Except Fault Token) :=
  stream.tokens.map .ok ++ (stream.fault.map .error).toList

end TokenStream

/-- The reader after so many items were asked for. -/
def Reader.advanced : Nat → Reader → Reader
  | 0, reader => reader
  | count + 1, reader => advanced count reader.next.2

end SheetLang
