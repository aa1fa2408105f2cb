import SheetLang.Parser.Statement
import SheetLang.TokenStream

/-!
# Parsers of definitions and programs

A program is any number of definitions and then a block.  Parsing a token
stream gives the program or the first fault: a token that is rejected comes
before a lexical fault, and a lexical fault before the end of the source.
-/

namespace SheetLang

namespace Parser

/-- What stands behind an equals sign, if one is next. -/
def optionalValue (value : Parser α) : Parser (Option α) := do
  if ← optionalSymbol .equal then
    return some (← value)
  else
    return none

/-- The rows of a sheet.  They stand side by side, so that a minus after a cell
always continues the cell; only the first row may open with one. -/
def rows (inner : Nested) : Parser (List (List Expr)) := do
  let cell := sum inner (operand inner)
  let first ← commaSeparated cell cell
  let others ← many startsAtom (commaSeparated (sum inner (atom inner)) cell)
  return first :: others

/-- What a sheet starts with: its rows in braces, or its width and height. -/
def sheetContents (inner : Nested) : Parser SheetContents := do
  if ← optionalSymbol .leftBrace then
    let contents ← rows inner
    symbol .rightBrace
    return .rows contents
  else
    let width ← integer
    symbol .times
    let height ← integer
    return .size width height

def variableDefinition (inner : Nested) : Parser Variable := do
  match ← peek with
  | some (.keyword .scalar) =>
    keyword .scalar
    let name ← text .ident
    return .scalar name (← optionalValue (comparison inner))
  | some (.keyword .range) =>
    keyword .range
    let name ← text .rangeName
    return .range name (← optionalValue (range inner))
  | _ =>
    keyword .sheet
    let name ← text .sheetName
    return .sheet name (← optionalValue (sheetContents inner))

/-- A formal parameter.  The shape of its name decides its family, which has to
be written behind the name nevertheless. -/
def parameter : Parser Parameter := do
  match ← peek with
  | some .ident =>
    let name ← text .ident
    symbol .colon
    keyword .scalar
    return ⟨name, .scalar⟩
  | some .rangeName =>
    let name ← text .rangeName
    symbol .colon
    keyword .range
    return ⟨name, .range⟩
  | _ =>
    let name ← text .sheetName
    symbol .colon
    keyword .sheet
    return ⟨name, .sheet⟩

/-- Formal parameters in brackets. -/
def parameters : Parser (List Parameter) := do
  symbol .leftBracket
  if ← optionalSymbol .rightBracket then
    return []
  else
    let items ← commaSeparated parameter parameter
    symbol .rightBracket
    return items

def returnType : Parser ReturnType := do
  match ← peek with
  | some (.keyword .scalar) =>
    keyword .scalar
    return .scalar
  | _ =>
    keyword .range
    return .range

/-- The local variables and the statements of a function or subroutine. -/
def body (inner : Nested) : Parser (List Variable × List Statement) := do
  keyword .is
  let locals ← many startsVariable (variableDefinition inner)
  let statements ← block inner
  keyword .«end»
  return (locals, statements)

def definition (inner : Nested) : Parser Definition := do
  match ← peek with
  | some (.keyword .function) =>
    keyword .function
    let name ← text .funcName
    let parameters ← parameters
    keyword .«return»
    let returnType ← returnType
    let (locals, statements) ← body inner
    return .function ⟨name, parameters, returnType, locals, statements⟩
  | some (.keyword .subroutine) =>
    keyword .subroutine
    let name ← text .funcName
    let parameters ← parameters
    let (locals, statements) ← body inner
    return .subroutine ⟨name, parameters, locals, statements⟩
  | _ => return .variable (← variableDefinition inner)

/-- A program at the front of a token list. -/
def program (inner : Nested) : Parser Program := do
  let definitions ← many startsDefinition (definition inner)
  let statements ← block inner
  return ⟨definitions, statements⟩

end Parser

/-- The program that a token list makes up. -/
def Program.ofTokens (tokens : List Token) : Except Rejection Program :=
  match Parser.program (Nested.upTo tokens.length) tokens with
  | .ok (program, []) => .ok program
  | .ok (_, token :: rest) => .error (.unexpected (token :: rest))
  | .error rejection => .error rejection

namespace TokenStream

/-- The line of the last token; 1 if there is none. -/
def lastLine (stream : TokenStream) : Nat :=
  (stream.tokens.getLast?.map Token.line).getD 1

/-- The fault that a rejection of the tokens means for the stream. -/
def faultOf (stream : TokenStream) : Rejection → Fault
  | .unexpected (token :: _) => .syntactic token.text token.line
  | .unexpected [] => stream.fault.getD (.syntactic Fault.endMark stream.lastLine)
  | .overflow literal _ => .syntactic literal.text literal.line

/-- The program of a stream, or its first fault. -/
def parse (stream : TokenStream) : Except Fault Program :=
  match Program.ofTokens stream.tokens with
  | .error rejection => .error (stream.faultOf rejection)
  | .ok program =>
    match stream.fault with
    | some fault => .error fault
    | none => .ok program

/-- The tokens that are looked at to parse a stream: all of them, unless one is
rejected; then those up to the first token that was not read. -/
def pulled (stream : TokenStream) : List Token :=
  match Program.ofTokens stream.tokens with
  | .error rejection =>
    stream.tokens.take (stream.tokens.length - rejection.rest.length + 1)
  | .ok _ => stream.tokens

end TokenStream

/-- The program that a source makes up, or its first fault. -/
def Program.ofSource (source : String) : Except Fault Program :=
  (TokenStream.ofSource source).parse

end SheetLang
