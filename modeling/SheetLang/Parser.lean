import SheetLang.Token

/-!
# Parsers of token lists

A parser reads a value off the front of a token list and leaves the rest, or
rejects the list.  It decides by the kind of the next token, in one case by the
next two, and never goes back.

Repetition is bounded by the number of tokens: every repeated part takes at
least one of them, so where the bound is used up no token is left.
-/

namespace SheetLang

/-- Why a token list is rejected. -/
inductive Rejection where
  /-- The first of these tokens cannot stand here; or, if there is none, the
  list ends too early. -/
  | unexpected (rest : List Token)
  /-- A whole number before these tokens does not fit into 64 bits. -/
  | overflow (literal : Token) (rest : List Token)
  deriving DecidableEq

/-- The tokens that were not read when a list was rejected. -/
def Rejection.rest : Rejection → List Token
  | unexpected rest => rest
  | overflow _ rest => rest

/-- Reads a value off the front of a token list. -/
abbrev Parser := StateT (List Token) (Except Rejection)

namespace Parser

def reject : Parser α :=
  fun tokens => .error (.unexpected tokens)

/-- The kind of the next token. -/
def peek : Parser (Option Token.Kind) :=
  fun tokens => .ok (tokens.head?.map Token.kind, tokens)

/-- The kind of the token after the next one. -/
def peekSecond : Parser (Option Token.Kind) :=
  fun tokens => .ok (tokens.tail.head?.map Token.kind, tokens)

/-- Takes a token of this kind and gives its text. -/
def text (kind : Token.Kind) : Parser String
  | token :: rest =>
    if token.kind = kind then .ok (token.text, rest) else .error (.unexpected (token :: rest))
  | [] => .error (.unexpected [])

def symbol (mark : Symbol) : Parser Unit := do
  let _ ← text (.symbol mark)

def keyword (word : Keyword) : Parser Unit := do
  let _ ← text (.keyword word)

/-- Takes the symbol if it is next, and tells whether it was. -/
def optionalSymbol (mark : Symbol) : Parser Bool := do
  if (← peek) = some (.symbol mark) then
    symbol mark
    return true
  else
    return false

/-- Reads items at most as often as the bound allows, as long as a token that
starts one is next. -/
def manyAtMost (starts : Token.Kind → Bool) (item : Parser α) : Nat → Parser (List α)
  | 0 => pure []
  | bound + 1 => do
    if (← peek).any starts then
      let first ← item
      let others ← manyAtMost starts item bound
      return first :: others
    else
      return []

/-- Reads items as long as a token that starts one is next. -/
def many (starts : Token.Kind → Bool) (item : Parser α) : Parser (List α) :=
  fun tokens => manyAtMost starts item tokens.length tokens

/-- Reads a first item, then an item after every comma. -/
def commaSeparated (first item : Parser α) : Parser (List α) := do
  let head ← first
  let tail ← many (· == .symbol .comma) do
    symbol .comma
    item
  return head :: tail

end Parser

end SheetLang
