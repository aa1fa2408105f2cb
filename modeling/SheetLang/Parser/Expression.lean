import SheetLang.Parser
import SheetLang.Program

/-!
# Parsers of expressions

Comparisons, sums and products are chains of operands that nest to the right.
A range is a base with any number of subscripts behind it.

An expression may hold others: in parentheses, as the argument of a call, and
to the right of an operator.  In each of these places at least one token has
been taken before, so the nesting is bounded by the number of tokens.  `Nested`
holds the parsers for what lies one level deeper.
-/

namespace SheetLang

/-- Parsers of the expressions within an expression. -/
structure Nested where
  comparison : Parser Expr
  sum : Parser Expr
  product : Parser Expr
  argument : Parser Argument

namespace Parser

/-- The kinds of token that a statement starts with. -/
def startsStatement : Token.Kind → Bool
  | .keyword .printSheet | .keyword .printRange | .keyword .printScalar => true
  | .keyword .«if» | .keyword .«while» | .keyword .«for» | .keyword .«return» => true
  | .ident | .rangeName | .sheetName | .funcName | .symbol .dollar => true
  | _ => false

/-- The kinds of token that the definition of a variable starts with. -/
def startsVariable : Token.Kind → Bool
  | .keyword .scalar | .keyword .range | .keyword .sheet => true
  | _ => false

/-- The kinds of token that a definition starts with. -/
def startsDefinition : Token.Kind → Bool
  | .keyword .function | .keyword .subroutine => true
  | kind => startsVariable kind

/-- The kinds of token that can follow a whole number somewhere in a program:
the width of a sheet, its height, a column, a row. -/
def followsInteger : Token.Kind → Bool
  | .symbol .times | .symbol .comma | .symbol .rightBracket => true
  | kind => startsDefinition kind || startsStatement kind

def startsAtom : Token.Kind → Bool
  | .ident | .decimal | .funcName | .sheetName => true
  | .symbol .dollar | .symbol .hash | .symbol .leftParen => true
  | _ => false

def startsRange : Token.Kind → Bool
  | .rangeName | .keyword .range | .symbol .leftBracket => true
  | _ => false

/-- A whole number.  One that does not fit into 64 bits is at fault only if the
token after it could follow a whole number; otherwise that token is. -/
def integer : Parser Int64 := fun tokens =>
  match text .integer tokens with
  | .error rejection => .error rejection
  | .ok (literal, rest) =>
    match Literal.int64? literal with
    | some value => .ok (value, rest)
    | none =>
      match tokens, rest with
      | token :: _, next :: _ =>
        if followsInteger next.kind then .error (.overflow token rest)
        else .error (.unexpected rest)
      | _, _ => .error (.unexpected rest)

def cellRef : Parser CellRef := do
  match ← peek with
  | some .sheetName =>
    let sheet ← text .sheetName
    symbol .quote
    let coordinate ← text .coordinate
    return .inSheet sheet coordinate
  | _ =>
    symbol .dollar
    if ← optionalSymbol .colon then
      return .currentIn (← text .rangeName)
    else
      return .current

/-- The name of a function or subroutine and its arguments. -/
def call (inner : Nested) : Parser (String × List Argument) := do
  let function ← text .funcName
  symbol .leftBracket
  if ← optionalSymbol .rightBracket then
    return (function, [])
  else
    let arguments ← commaSeparated inner.argument inner.argument
    symbol .rightBracket
    return (function, arguments)

/-- A range without subscripts. -/
def rangeBase (inner : Nested) : Parser RangeExpr := do
  match ← peek with
  | some .rangeName => return .named (← text .rangeName)
  | some (.keyword .range) =>
    keyword .range
    let first ← cellRef
    symbol .dots
    return .span first (← cellRef)
  | _ =>
    symbol .leftBracket
    let (function, arguments) ← call inner
    symbol .rightBracket
    return .call function arguments

/-- A column and a row in brackets. -/
def subscript : Parser (Int64 × Int64) := do
  symbol .leftBracket
  let column ← integer
  symbol .comma
  let row ← integer
  symbol .rightBracket
  return (column, row)

def range (inner : Nested) : Parser RangeExpr := do
  let base ← rangeBase inner
  let subscripts ← many (· == .symbol .leftBracket) subscript
  return subscripts.foldl (fun range (column, row) => .part range column row) base

/-- An operand without a sign. -/
def atom (inner : Nested) : Parser Expr := do
  match ← peek with
  | some .ident => return .name (← text .ident)
  | some .decimal => return .ofDecimal (← text .decimal)
  | some .funcName =>
    let (function, arguments) ← call inner
    return .call function arguments
  | some (.symbol .hash) =>
    symbol .hash
    return .count (← range inner)
  | some (.symbol .leftParen) =>
    symbol .leftParen
    let value ← inner.comparison
    symbol .rightParen
    return value
  | _ => return .cell (← cellRef)

/-- An operand with or without a sign. -/
def operand (inner : Nested) : Parser Expr := do
  if ← optionalSymbol .minus then
    return .negate (← atom inner)
  else
    atom inner

/-- The operator that multiplies or divides at a symbol. -/
def multiplicative : Symbol → Option BinaryOperator
  | .times => some .times
  | .slash => some .divide
  | _ => none

/-- The operator that adds or subtracts at a symbol. -/
def additive : Symbol → Option BinaryOperator
  | .plus => some .plus
  | .minus => some .minus
  | _ => none

/-- The operator that compares at a symbol. -/
def comparing : Symbol → Option BinaryOperator
  | .equal => some .equal
  | .notEqual => some .notEqual
  | .less => some .less
  | .lessEqual => some .lessEqual
  | .greater => some .greater
  | .greaterEqual => some .greaterEqual
  | _ => none

/-- Takes an operator of one level, if one is next. -/
def operator (level : Symbol → Option BinaryOperator) :
    Parser (Option BinaryOperator) := do
  match ← peek with
  | some (.symbol mark) =>
    match level mark with
    | some operator =>
      symbol mark
      return some operator
    | none => return none
  | _ => return none

/-- An operand, and to the right of an operator the rest of the chain. -/
def chain (level : Symbol → Option BinaryOperator) (operand rest : Parser Expr) :
    Parser Expr := do
  let left ← operand
  match ← operator level with
  | some operator => return .binary operator left (← rest)
  | none => return left

/-- A product that starts with an operand of this form. -/
def product (inner : Nested) (operand : Parser Expr) : Parser Expr :=
  chain multiplicative operand inner.product

/-- A sum that starts with an operand of this form. -/
def sum (inner : Nested) (operand : Parser Expr) : Parser Expr :=
  chain additive (product inner operand) inner.sum

/-- A scalar of any form. -/
def comparison (inner : Nested) : Parser Expr :=
  chain comparing (sum inner (operand inner)) inner.comparison

/-- An argument of a call.  A sheet name starts a cell reference only where a
quote follows it. -/
def argument (inner : Nested) : Parser Argument := do
  match ← peek with
  | some .sheetName =>
    if (← peekSecond) = some (.symbol .quote) then
      return .scalar (← comparison inner)
    else
      return .sheet (← text .sheetName)
  | next =>
    if next.any startsRange then
      return .range (← range inner)
    else
      return .scalar (← comparison inner)

end Parser

/-- Parsers of expressions that are nested less deep than a bound. -/
def Nested.upTo : Nat → Nested
  | 0 => ⟨Parser.reject, Parser.reject, Parser.reject, Parser.reject⟩
  | bound + 1 =>
    let inner := upTo bound
    { comparison := Parser.comparison inner
      sum := Parser.sum inner (Parser.operand inner)
      product := Parser.product inner (Parser.operand inner)
      argument := Parser.argument inner }

end SheetLang
