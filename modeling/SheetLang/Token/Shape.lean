import SheetLang.Token

/-!
# Shapes of tokens

The texts that each kind of token may have, each kind by itself: what wins where
several kinds admit a text, and where a token ends, is not said here.

All shapes but those of info strings consist of ASCII characters.
-/

namespace SheetLang

namespace Shape

/-- Letters, digits and the underscore. -/
def isWordChar (character : Char) : Bool :=
  character.isAlphanum || character == '_'

/-- What may follow the capital of a function name. -/
def isFuncChar (character : Char) : Bool :=
  character.isLower || character.isDigit || character == '_'

/-- What may stand between the exclamation marks of an info string. -/
def isInfoChar (character : Char) : Bool :=
  character != '!' && character != '\n'

/-- At least one item, all of which are accepted. -/
def oneOrMore (accept : Char → Bool) (text : List Char) : Bool :=
  !text.isEmpty && text.all accept

/-- A lower-case letter and at least one more word character. -/
def ident : List Char → Bool
  | head :: rest => head.isLower && oneOrMore isWordChar rest
  | [] => false

/-- One or two capitals, then one to three digits. -/
def coordinate (text : List Char) : Bool :=
  let capitals := text.takeWhile Char.isUpper
  let digits := text.dropWhile Char.isUpper
  oneOrMore Char.isUpper capitals && capitals.length ≤ 2 && oneOrMore Char.isDigit digits &&
    digits.length ≤ 3

/-- An underscore and at least one more word character. -/
def rangeName : List Char → Bool
  | '_' :: rest => oneOrMore isWordChar rest
  | _ => false

/-- Capitals only. -/
def sheetName (text : List Char) : Bool :=
  oneOrMore Char.isUpper text

/-- A capital and any number of lower-case letters, digits and underscores. -/
def funcName : List Char → Bool
  | head :: rest => head.isUpper && rest.all isFuncChar
  | [] => false

/-- A text without a sign at its front. -/
def unsigned : List Char → List Char
  | '-' :: rest => rest
  | text => text

/-- Digits, perhaps with a sign. -/
def integer (text : List Char) : Bool :=
  oneOrMore Char.isDigit (unsigned text)

/-- Digits with no zero in front of others, and with a sign only in front of others than
zero. -/
def canonical (text : List Char) : Bool :=
  text == ['0'] || (integer text && (unsigned text).head? != some '0')

/-- Digits, a point and one digit, perhaps with a sign. -/
def decimal (text : List Char) : Bool :=
  oneOrMore Char.isDigit ((unsigned text).takeWhile Char.isDigit) &&
    match (unsigned text).dropWhile Char.isDigit with
    | ['.', digit] => digit.isDigit
    | _ => false

/-- Text between exclamation marks, on one line and without others. -/
def info : List Char → Bool
  | '!' :: rest => rest.getLast? == some '!' && rest.dropLast.all isInfoChar
  | _ => false

end Shape

/-- Whether a kind of token admits a text. -/
def Token.Kind.admits : Token.Kind → List Char → Bool
  | keyword word, text => text == word.text.toList
  | symbol mark, text => text == mark.text.toList
  | ident, text => Shape.ident text
  | coordinate, text => Shape.coordinate text
  | rangeName, text => Shape.rangeName text
  | sheetName, text => Shape.sheetName text
  | funcName, text => Shape.funcName text
  | integer, text => Shape.integer text
  | decimal, text => Shape.decimal text
  | info, text => Shape.info text

end SheetLang
