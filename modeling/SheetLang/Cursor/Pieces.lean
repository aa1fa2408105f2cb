import SheetLang.Cursor
import SheetLang.Parser.Calls

/-!
# Reading pieces of a source

The pieces of a source read with a cursor: tokens, blanks and comments, and the characters
at which none of them starts.  How far comments and words in capitals reach is found out in
bytes before the cursor is moved.
-/

namespace SheetLang

namespace Scan

/-- What a piece of the source is: a token, text without one, or a fault. -/
abbrev Piece := Except Fault (Option Token)

/-- A token of this kind with the text of the piece so far. -/
def token (kind : Token.Kind) : Scan Piece := do
  let cursor ← here
  let text ← require (between? cursor.source cursor.start cursor.offset)
  return .ok (some ⟨kind, text, cursor.line⟩)

/-- Nothing starts at a character. -/
def illegal (character : Char) : Scan Piece := do
  return .error (.lexical character (← here).line)

/-- A symbol that is extended by an equals sign, if one follows. -/
def withEquals (long short : Symbol) : Scan Piece := do
  match ← advanceIf (· == '=') with
  | some _ => token (.symbol long)
  | none => token (.symbol short)

/-- A number behind its sign or first digit. -/
def number : Scan Piece := do
  advanceWhile Char.isDigit
  match (← here).left with
  | '.' :: digit :: _ =>
    if digit.isDigit then
      let _ ← advance
      let _ ← advance
      token .decimal
    else
      token .integer
  | _ => token .integer

/-- An info string behind its first exclamation mark. -/
def info : Scan Piece := do
  advanceWhile (· != '!')
  match ← advanceIf (· == '!') with
  | some _ => token .info
  | none => illegal '!'

/-- Where the first line of a text ends, in bytes. -/
def lineEnd (text : List Char) : Nat :=
  Reader.byteSize (text.takeWhile (· != '\n'))

/-- Where the last three dots in a row begin, in bytes. -/
def ellipsisOffset? (text : List Char) : Option Nat :=
  (Extent.lastEllipsis? text).map fun place => Reader.byteSize (text.take place)

/-- Where a comment ends whose first two dots are passed, if there is one. -/
def commentEnd? : Scan (Option Nat) := do
  let cursor ← here
  let rest ← require (between? cursor.source cursor.offset cursor.source.utf8ByteSize)
  match rest.toList with
  | '.' :: body =>
    let line ← require (between? (String.ofList body) 0 (lineEnd body))
    return (ellipsisOffset? line.toList).map fun close => cursor.offset + 1 + close + 3
  | _ => return none

/-- Dots behind the first of them. -/
def dots : Scan Piece := do
  match ← advanceIf (· == '.') with
  | none => illegal '.'
  | some _ =>
    match ← commentEnd? with
    | some target =>
      skip (fun cursor => some cursor.offset) target
      return .ok none
    | none => token (.symbol .dots)

/-- A word in lower case behind its first character. -/
def word : Scan Piece := do
  advanceWhile Shape.isWordChar
  let cursor ← here
  let text ← require (between? cursor.source cursor.start cursor.offset)
  if text.utf8ByteSize < 2 then illegal (text.toList.head?.getD '?')
  else token (.ofWord text)

/-- A range name behind its underscore. -/
def underscored : Scan Piece := do
  advanceWhile Shape.isWordChar
  if (← require (← here).width?) < 2 then illegal '_' else token .rangeName

/-- The number of bytes behind so many others before the first that is no accepted
character.  There is no such number if there are not so many others. -/
def countBehind? (accept : Char → Bool) (bytes : List UInt8) (first : Nat) : Option Nat :=
  if first ≤ bytes.length then
    some ((bytes.drop first).takeWhile fun byte => accept (Char.ofUInt8 byte)).length
  else
    none

/-- Cuts off so many bytes of a text and counts the accepted ones behind them. -/
def countBehind (accept : Char → Bool) (text : String) (first : Nat) : Scan Nat := do
  note (.cut text first)
  require (countBehind? accept text.toByteArray.data.toList first)

/-- The first of the longest. -/
def longest (candidates : List (Token.Kind × Nat)) : Token.Kind × Nat :=
  candidates.foldl (fun best candidate => if best.2 < candidate.2 then candidate else best)
    (.sheetName, 0)

/-- A word behind its first capital. -/
def capitalised : Scan Piece := do
  let cursor ← here
  let rest ← require (between? cursor.source cursor.start cursor.source.utf8ByteSize)
  let sheet ← countBehind Char.isUpper rest 0
  let func := 1 + (← countBehind Shape.isFuncChar rest 1)
  let digits ← countBehind Char.isDigit rest sheet
  let coordinate := if sheet ≤ 2 ∧ 0 < digits then sheet + min digits 3 else 0
  let (kind, width) :=
    longest [(.coordinate, coordinate), (.sheetName, sheet), (.funcName, func)]
  skip Cursor.width? width
  token kind

/-- A piece behind its first character. -/
def behind (head : Char) : Scan Piece :=
  match head with
  | ' ' | '\r' => return .ok none
  | '\n' => do
    moveTo ((← here).down 1)
    return .ok none
  | '(' => token (.symbol .leftParen)
  | ')' => token (.symbol .rightParen)
  | '[' => token (.symbol .leftBracket)
  | ']' => token (.symbol .rightBracket)
  | '{' => token (.symbol .leftBrace)
  | '}' => token (.symbol .rightBrace)
  | ',' => token (.symbol .comma)
  | '\'' => token (.symbol .quote)
  | '$' => token (.symbol .dollar)
  | '#' => token (.symbol .hash)
  | '=' => token (.symbol .equal)
  | '+' => token (.symbol .plus)
  | '*' => token (.symbol .times)
  | '/' => token (.symbol .slash)
  | ':' => withEquals .assign .colon
  | '<' => withEquals .lessEqual .less
  | '>' => withEquals .greaterEqual .greater
  | '!' => do
    match ← advanceIf (· == '=') with
    | some _ => token (.symbol .notEqual)
    | none => info
  | '.' => dots
  | '-' => do
    match (← here).left with
    | next :: _ => if next.isDigit then number else token (.symbol .minus)
    | [] => token (.symbol .minus)
  | '_' => underscored
  | _ =>
    if head.isDigit then number
    else if head.isLower then word
    else if head.isUpper then capitalised
    else illegal head

def piece : Scan Piece := do
  let before ← here
  let found ←
    match ← advance with
    | some head => behind head
    | none => pure (.ok none)
  note (.piece before (← here))
  return found

/-- What a round comes to with a piece: it asks for another one if the piece is no item. -/
def settle : Piece → Scan (ForInStep (Option (Except Fault Token)))
  | .ok (some token) => return .done (some (.ok token))
  | .ok none => return .yield none
  | .error fault => do
    moveTo (← here).stopped
    return .done (some (.error fault))

/-- Reads the piece at the cursor. -/
def nextRound : Scan (ForInStep (Option (Except Fault Token))) := do
  if (← here).left.isEmpty then
    return .done none
  else
    moveTo (← here).begun
    settle (← piece)

/-- The next token, or the fault; none behind a fault and at the end. -/
def next : Scan (Option (Except Fault Token)) := do
  if (← here).failed then return none else loop (fun _ => nextRound) none

/-- Reads the next token behind others, and asks for another round if there is one. -/
def tokenizeRound (read : Except Fault (List Token)) :
    Scan (ForInStep (Except Fault (List Token))) := do
  match ← next with
  | none => return .done read
  | some (.ok token) => return .yield (read.map (· ++ [token]))
  | some (.error fault) => return .done (.error fault)

/-- All tokens that are left, or the fault among them. -/
def tokenize : Scan (Except Fault (List Token)) :=
  loop tokenizeRound (.ok [])

def answer : Reader.Call → Scan Reader.Answer
  | .next => do return .item (← next)
  | .line => do return .line (← here).line
  | .tokenize => do return .tokens (← tokenize)

def answers : List Reader.Call → Scan (List Reader.Answer)
  | [] => return []
  | call :: calls => do
    let first ← answer call
    return first :: (← answers calls)

end Scan

end SheetLang
