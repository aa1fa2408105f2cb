import SheetLang.Grammar
import SheetLang.Parser.Expression

/-!
# Where phrases begin and end

The kinds that the first token of a phrase may have, and the kinds of token that could go on
with a phrase at its end.  A phrase is over where what follows has none of these.
-/

namespace SheetLang

open Grammar Parser

/-- Whether no token at all may derive from a nonterminal. -/
def Nonterminal.nullable : Nonterminal → Bool
  | many _ => true
  | separated item => item.nullable
  | _ => false

/-- The kinds of token that a derivation may start with. -/
def Nonterminal.starts : Nonterminal → Token.Kind → Bool
  | program, kind => startsDefinition kind || startsStatement kind
  | definition, kind => startsDefinition kind
  | variableDefinition, kind => startsVariable kind
  | contents, kind => kind == .symbol .leftBrace || kind == .integer
  | laterRow, kind => startsAtom kind
  | parameters, kind => kind == .symbol .leftBracket
  | parameter, kind => kind == .ident || kind == .rangeName || kind == .sheetName
  | returnType, kind => kind == .keyword .scalar || kind == .keyword .range
  | block, kind => startsStatement kind
  | statement, kind => startsStatement kind
  | call, kind => kind == .funcName
  | argument, kind => startsAtom kind || kind == .symbol .minus || startsRange kind
  | range, kind => startsRange kind
  | cell, kind => kind == .sheetName || kind == .symbol .dollar
  | comparison, kind => startsAtom kind || kind == .symbol .minus
  | sum signed, kind => startsAtom kind || signed && kind == .symbol .minus
  | product signed, kind => startsAtom kind || signed && kind == .symbol .minus
  | operand signed, kind => startsAtom kind || signed && kind == .symbol .minus
  | many item, kind => item.starts kind
  | separated item, kind => item.starts kind || item.nullable && kind == .symbol .comma

/-- Whether a kind is an operator of a level. -/
def Token.Kind.operates (level : Symbol → Option BinaryOperator) : Token.Kind → Bool
  | .symbol mark => (level mark).isSome
  | _ => false

/-- The kinds of token that could go on with an operand. -/
def Parser.extendsOperand (kind : Token.Kind) : Bool :=
  kind == .symbol .colon || kind == .symbol .leftBracket

/-- The kinds of token that could go on with a product. -/
def Parser.extendsProduct (kind : Token.Kind) : Bool :=
  extendsOperand kind || kind.operates multiplicative

/-- The kinds of token that could go on with a sum. -/
def Parser.extendsSum (kind : Token.Kind) : Bool :=
  extendsProduct kind || kind.operates additive

/-- The kinds of token that could go on with a comparison. -/
def Parser.extendsComparison (kind : Token.Kind) : Bool :=
  extendsSum kind || kind.operates comparing

/-- The kinds of token that could go on with a phrase at its end. -/
def Nonterminal.extends : Nonterminal → Token.Kind → Bool
  | cell, kind => kind == .symbol .colon
  | range, kind => extendsOperand kind
  | operand _, kind => extendsOperand kind
  | product _, kind => extendsProduct kind
  | sum _, kind => extendsSum kind
  | laterRow, kind => extendsSum kind || kind == .symbol .comma
  | comparison, kind => extendsComparison kind
  | argument, kind => extendsComparison kind || kind == .symbol .quote
  | statement, kind => extendsComparison kind
  | variableDefinition, kind => extendsComparison kind
  | definition, kind => extendsComparison kind
  | block, kind => extendsComparison kind || startsStatement kind
  | program, kind => extendsComparison kind || startsStatement kind
  | many item, kind => item.extends kind || item.starts kind
  | separated item, kind => item.extends kind || kind == .symbol .comma
  | _, _ => false

/-- What follows does not go on with the phrase. -/
def Ends (A : Nonterminal) (rest : List Token) : Prop :=
  ∀ token ∈ rest.head?, A.extends token.kind = false

/-- The nonterminals of single phrases, which are read without regard to their
neighbours. -/
def Nonterminal.isPhrase : Nonterminal → Bool
  | many _ | separated _ => false
  | _ => true

end SheetLang
