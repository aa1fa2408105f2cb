import SheetLang.Parser.Expression

/-!
# Parsers of statements

A block is a list of at least one statement.  Blocks within a block stand
behind a reserved word, so their nesting, too, is bounded by the number of
tokens.
-/

namespace SheetLang.Parser

/-- An info string without its exclamation marks, if one is next. -/
def optionalInfo : Parser (Option String) := do
  if (← peek) = some .info then
    let written ← text .info
    return some (String.ofList (written.toList.drop 1).dropLast)
  else
    return none

/-- A print statement for the argument that a parser reads. -/
def print (word : Keyword) (argument : Parser Argument) : Parser Statement := do
  keyword word
  let info ← optionalInfo
  return .print info (← argument)

/-- What stands behind an assignment sign. -/
def assigned (value : Parser α) : Parser α := do
  symbol .assign
  value

/-- A statement, given parsers for the expressions and blocks within it. -/
def statement (inner : Nested) (block : Parser (List Statement)) : Parser Statement := do
  match ← peek with
  | some (.keyword .printSheet) =>
    print .printSheet do return .sheet (← text .sheetName)
  | some (.keyword .printRange) =>
    print .printRange do return .range (← range inner)
  | some (.keyword .printScalar) =>
    print .printScalar do return .scalar (← comparison inner)
  | some (.keyword .«if») =>
    keyword .«if»
    let condition ← comparison inner
    keyword .«then»
    let positive ← block
    if (← peek) = some (.keyword .«else») then
      keyword .«else»
      let negative ← block
      keyword .endif
      return .branch condition positive (some negative)
    else
      keyword .endif
      return .branch condition positive none
  | some (.keyword .«while») =>
    keyword .«while»
    let condition ← comparison inner
    keyword .«do»
    let body ← block
    keyword .done
    return .loop condition body
  | some (.keyword .«for») =>
    keyword .«for»
    let ranges ← commaSeparated (range inner) (range inner)
    keyword .«do»
    let body ← block
    keyword .done
    return .traverse ranges body
  | some (.keyword .«return») =>
    keyword .«return»
    if (← peek).any startsRange then
      return .returnRange (← range inner)
    else
      return .returnScalar (← comparison inner)
  | some .funcName =>
    let (subroutine, arguments) ← call inner
    return .call subroutine arguments
  | some .ident =>
    let target ← text .ident
    return .assignScalar target (← assigned (comparison inner))
  | some .rangeName =>
    let target ← text .rangeName
    return .assignRange target (← assigned (range inner))
  | some .sheetName =>
    if (← peekSecond) = some (.symbol .quote) then
      let target ← cellRef
      return .assignCell target (← assigned (comparison inner))
    else
      let target ← text .sheetName
      return .assignSheet target (← assigned (text .sheetName))
  | _ =>
    let target ← cellRef
    return .assignCell target (← assigned (comparison inner))

/-- A block that is nested less deep than a bound. -/
def blockUpTo (inner : Nested) : Nat → Parser (List Statement)
  | 0 => reject
  | bound + 1 => do
    let first ← statement inner (blockUpTo inner bound)
    let others ← many startsStatement (statement inner (blockUpTo inner bound))
    return first :: others

def block (inner : Nested) : Parser (List Statement) :=
  fun tokens => blockUpTo inner tokens.length tokens

end SheetLang.Parser
