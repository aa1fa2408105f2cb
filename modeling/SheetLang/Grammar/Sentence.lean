import SheetLang.Grammar

/-!
# Sentences

The grammar over kinds of tokens alone.  A sentence is what is left of a program
when the texts and lines of its tokens are dropped; as there is a whole number
within 64 bits for every place of one, sentences say nothing about the size of
whole numbers.
-/

namespace SheetLang

/-- Whether a token is a whole number that does not fit into 64 bits. -/
def Token.overflows (token : Token) : Bool :=
  token.kind == .integer && (Literal.int64? token.text).isNone

/-- The kinds of the tokens of a program. -/
def Sentence (kinds : List Token.Kind) : Prop :=
  ∃ tokens program, tokens.map Token.kind = kinds ∧ Derives .program tokens program

/-- Kinds that a sentence starts with. -/
def Viable (kinds : List Token.Kind) : Prop :=
  ∃ more, Sentence (kinds ++ more)

/-- A kind that stands behind a whole number in some sentence. -/
def FollowsInteger (kind : Token.Kind) : Prop :=
  ∃ before after, Sentence (before ++ .integer :: kind :: after)

end SheetLang
