import SheetLang.Binary64

/-!
# Programs

The typed tree of a program: definitions, then statements.  There are three
families of values, scalars, ranges and sheets, and every place of the tree
holds values of the families that may stand there only.
-/

namespace SheetLang

/-- The families of values. -/
inductive Family where
  | scalar
  | range
  | sheet
  deriving DecidableEq

/-- The name of a family, which is also its reserved word. -/
def Family.name : Family → String
  | scalar => "scalar"
  | range => "range"
  | sheet => "sheet"

inductive CellRef where
  /-- The cell of a sheet at a coordinate. -/
  | inSheet (sheet coordinate : String)
  /-- The current cell within a range. -/
  | currentIn (range : String)
  /-- The current cell. -/
  | current
  deriving DecidableEq

/-- A cell reference as it is written in a source. -/
def CellRef.render : CellRef → String
  | inSheet sheet coordinate => sheet ++ "'" ++ coordinate
  | currentIn range => "$:" ++ range
  | current => "$"

/-- The operators between two scalars. -/
inductive BinaryOperator where
  | equal
  | notEqual
  | less
  | lessEqual
  | greater
  | greaterEqual
  | plus
  | minus
  | times
  | divide
  deriving DecidableEq

namespace BinaryOperator

def text : BinaryOperator → String
  | equal => "="
  | notEqual => "!="
  | less => "<"
  | lessEqual => "<="
  | greater => ">"
  | greaterEqual => ">="
  | plus => "+"
  | minus => "-"
  | times => "*"
  | divide => "/"

/-- Whether an operator compares its operands. -/
def isComparison : BinaryOperator → Bool
  | equal | notEqual | less | lessEqual | greater | greaterEqual => true
  | plus | minus | times | divide => false

end BinaryOperator

mutual

/-- An expression for a scalar. -/
inductive Expr where
  | name (name : String)
  | decimal (value : Binary64)
  | call (function : String) (arguments : List Argument)
  | cell (cell : CellRef)
  /-- The number of cells of a range. -/
  | count (range : RangeExpr)
  | binary (operator : BinaryOperator) (left right : Expr)
  | negate (operand : Expr)

/-- An expression for a range. -/
inductive RangeExpr where
  | named (name : String)
  /-- The range between two cells. -/
  | span (first last : CellRef)
  | call (function : String) (arguments : List Argument)
  /-- The part of a range at a column and a row. -/
  | part (range : RangeExpr) (column row : Int64)

/-- A value of any family, as calls and print statements take it. -/
inductive Argument where
  | scalar (value : Expr)
  | range (value : RangeExpr)
  | sheet (name : String)

end

/-- The operand that a decimal literal stands for: its number, or a name where
the text denotes no number. -/
def Expr.ofDecimal (text : String) : Expr :=
  match Binary64.ofLiteral? text with
  | some value => .decimal value
  | none => .name text

/-- The family of an argument. -/
def Argument.family : Argument → Family
  | scalar _ => .scalar
  | range _ => .range
  | sheet _ => .sheet

inductive Statement where
  | print (info : Option String) (argument : Argument)
  | branch (condition : Expr) (positive : List Statement) (negative : Option (List Statement))
  | loop (condition : Expr) (body : List Statement)
  | traverse (ranges : List RangeExpr) (body : List Statement)
  | call (subroutine : String) (arguments : List Argument)
  | returnScalar (value : Expr)
  | returnRange (value : RangeExpr)
  | assignScalar (target : String) (value : Expr)
  | assignCell (target : CellRef) (value : Expr)
  | assignRange (target : String) (value : RangeExpr)
  | assignSheet (target source : String)

/-- What a sheet starts with. -/
inductive SheetContents where
  | rows (rows : List (List Expr))
  | size (width height : Int64)

/-- The definition of a variable, at the top level or within a function or
subroutine. -/
inductive Variable where
  | scalar (name : String) (value : Option Expr)
  | range (name : String) (value : Option RangeExpr)
  | sheet (name : String) (contents : Option SheetContents)

/-- A formal parameter. -/
structure Parameter where
  name : String
  family : Family
  deriving DecidableEq

/-- What a function may return. -/
inductive ReturnType where
  | scalar
  | range
  deriving DecidableEq

/-- The name of a return type, which is also its reserved word. -/
def ReturnType.name : ReturnType → String
  | scalar => "scalar"
  | range => "range"

structure Function where
  name : String
  parameters : List Parameter
  returnType : ReturnType
  locals : List Variable
  body : List Statement

structure Subroutine where
  name : String
  parameters : List Parameter
  locals : List Variable
  body : List Statement

/-- A definition at the top level. -/
inductive Definition where
  | variable (definition : Variable)
  | function (definition : Function)
  | subroutine (definition : Subroutine)

structure Program where
  definitions : List Definition
  statements : List Statement

end SheetLang
