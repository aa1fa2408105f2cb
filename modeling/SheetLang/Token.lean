/-!
# Tokens

A token is a classified piece of source text together with the line it starts
on.  Reserved words and punctuation are told apart by their spelling, which
each of them has exactly one of; names and literals are told apart by their
shape.
-/

namespace SheetLang

/-- The reserved words. -/
inductive Keyword where
  | scalar
  | range
  | sheet
  | «do»
  | done
  | is
  | «while»
  | «for»
  | «if»
  | «then»
  | «else»
  | endif
  | function
  | subroutine
  | «return»
  | «end»
  | printSheet
  | printScalar
  | printRange
  deriving DecidableEq

namespace Keyword

def all : List Keyword :=
  [.scalar, .range, .sheet, .«do», .done, .is, .«while», .«for», .«if», .«then», .«else»,
    .endif, .function, .subroutine, .«return», .«end», .printSheet, .printScalar, .printRange]

def text : Keyword → String
  | .scalar => "scalar"
  | .range => "range"
  | .sheet => "sheet"
  | .«do» => "do"
  | .done => "done"
  | .is => "is"
  | .«while» => "while"
  | .«for» => "for"
  | .«if» => "if"
  | .«then» => "then"
  | .«else» => "else"
  | .endif => "endif"
  | .function => "function"
  | .subroutine => "subroutine"
  | .«return» => "return"
  | .«end» => "end"
  | .printSheet => "print_sheet"
  | .printScalar => "print_scalar"
  | .printRange => "print_range"

/-- The name of a reserved word in listings. -/
def name : Keyword → String
  | .scalar => "SCALAR"
  | .range => "RANGE"
  | .sheet => "SHEET"
  | .«do» => "DO"
  | .done => "DONE"
  | .is => "IS"
  | .«while» => "WHILE"
  | .«for» => "FOR"
  | .«if» => "IF"
  | .«then» => "THEN"
  | .«else» => "ELSE"
  | .endif => "ENDIF"
  | .function => "FUNCTION"
  | .subroutine => "SUBROUTINE"
  | .«return» => "RETURN"
  | .«end» => "END"
  | .printSheet => "PRINT_SHEET"
  | .printScalar => "PRINT_SCALAR"
  | .printRange => "PRINT_RANGE"

/-- The reserved word with exactly this spelling. -/
def ofText? (word : String) : Option Keyword :=
  all.find? fun keyword => keyword.text == word

theorem ofText?_text (keyword : Keyword) : ofText? keyword.text = some keyword := by
  cases keyword <;> decide

/-- A word is reserved exactly if it is spelled like a reserved word. -/
theorem ofText?_eq_some_iff {word : String} {keyword : Keyword} :
    ofText? word = some keyword ↔ keyword.text = word := by
  constructor
  · intro found
    simpa using List.find?_some found
  · rintro rfl
    exact ofText?_text keyword

end Keyword

/-- Punctuation and operators. -/
inductive Symbol where
  | assign
  | leftParen
  | rightParen
  | leftBracket
  | rightBracket
  | leftBrace
  | rightBrace
  | comma
  | dots
  | quote
  | colon
  | dollar
  | hash
  | equal
  | notEqual
  | less
  | lessEqual
  | greater
  | greaterEqual
  | plus
  | minus
  | times
  | slash
  deriving DecidableEq

namespace Symbol

def text : Symbol → String
  | .assign => ":="
  | .leftParen => "("
  | .rightParen => ")"
  | .leftBracket => "["
  | .rightBracket => "]"
  | .leftBrace => "\x7b"
  | .rightBrace => "\x7d"
  | .comma => ","
  | .dots => ".."
  | .quote => "'"
  | .colon => ":"
  | .dollar => "$"
  | .hash => "#"
  | .equal => "="
  | .notEqual => "!="
  | .less => "<"
  | .lessEqual => "<="
  | .greater => ">"
  | .greaterEqual => ">="
  | .plus => "+"
  | .minus => "-"
  | .times => "*"
  | .slash => "/"

/-- The name of a symbol in listings. -/
def name : Symbol → String
  | .assign => "ASSIGN"
  | .leftParen => "LPAREN"
  | .rightParen => "RPAREN"
  | .leftBracket => "LSQUARE"
  | .rightBracket => "RSQUARE"
  | .leftBrace => "LCURLY"
  | .rightBrace => "RCURLY"
  | .comma => "COMMA"
  | .dots => "DOTDOT"
  | .quote => "SQUOTE"
  | .colon => "COLON"
  | .dollar => "DOLLAR"
  | .hash => "NUMBER_SIGN"
  | .equal => "EQ"
  | .notEqual => "NOTEQ"
  | .less => "LT"
  | .lessEqual => "LTEQ"
  | .greater => "GT"
  | .greaterEqual => "GTEQ"
  | .plus => "PLUS"
  | .minus => "MINUS"
  | .times => "MULT"
  | .slash => "DIV"

end Symbol

/-- What a token is.  Names come in five families, told apart by their shape. -/
inductive Token.Kind where
  | keyword (word : Keyword)
  | symbol (mark : Symbol)
  /-- A lower-case letter and more word characters: a scalar. -/
  | ident
  /-- One or two capitals and up to three digits: a cell of a sheet. -/
  | coordinate
  /-- An underscore and more word characters: a range. -/
  | rangeName
  /-- Capitals only: a sheet. -/
  | sheetName
  /-- A capital, then lower-case letters, digits and underscores: a function or a subroutine. -/
  | funcName
  | integer
  | decimal
  /-- Text between exclamation marks. -/
  | info
  deriving DecidableEq

namespace Token.Kind

/-- The name of a kind in listings. -/
def name : Token.Kind → String
  | keyword word => word.name
  | symbol mark => mark.name
  | ident => "IDENT"
  | coordinate => "COORDINATE_IDENT"
  | rangeName => "RANGE_IDENT"
  | sheetName => "SHEET_IDENT"
  | funcName => "FUNC_IDENT"
  | integer => "INT_LITERAL"
  | decimal => "DECIMAL_LITERAL"
  | info => "INFO_STRING"

/-- The kind of a lower-case word: reserved words come before scalar names. -/
def ofWord (word : String) : Token.Kind :=
  match Keyword.ofText? word with
  | some reserved => keyword reserved
  | none => ident

end Token.Kind

/-- A classified piece of source text and the line it starts on. -/
structure Token where
  kind : Token.Kind
  text : String
  line : Nat
  deriving DecidableEq

namespace Token

/-- A token as one item of a listing. -/
def render (token : Token) : String :=
  "<" ++ token.kind.name ++ ": " ++ token.text ++ " @ " ++ toString token.line ++ ">"

/-- A token so many lines further down. -/
def down (lines : Nat) (token : Token) : Token :=
  { token with line := token.line + lines }

end Token

end SheetLang
