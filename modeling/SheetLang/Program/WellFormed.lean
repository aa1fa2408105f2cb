import SheetLang.Program
import SheetLang.Token.Shape

/-!
# Well-formed programs

What is true of every program that is written in some source, and of no others: lists
that cannot be written empty are not empty, and names, texts and numbers have the forms
in which they are written.  Whole numbers are only bounded by their type.
-/

namespace SheetLang

/-! ## Names and texts -/

/-- A scalar name is a lower-case word that is not reserved. -/
def IsScalarName (name : String) : Prop :=
  Shape.ident name.toList = true ∧ ∀ word : Keyword, word.text ≠ name

/-- A range name begins with an underscore, which is not all of it. -/
def IsRangeName (name : String) : Prop :=
  Shape.rangeName name.toList = true

/-- A sheet name has capitals only, and as many as it likes. -/
def IsSheetName (name : String) : Prop :=
  Shape.sheetName name.toList = true

/-- A coordinate is one cell: up to two capitals for the column, up to three digits for the row. -/
def IsCoordinate (name : String) : Prop :=
  Shape.coordinate name.toList = true

/-- A function name has at least two characters, and more than three if all but the
first are digits. -/
def IsFunctionName (name : String) : Prop :=
  ∃ capital rest, name.toList = capital :: rest ∧ capital.isUpper = true ∧
    Shape.oneOrMore Shape.isFuncChar rest = true ∧
    ¬(Shape.oneOrMore Char.isDigit rest = true ∧ rest.length ≤ 3)

/-- An info string, without the marks around it. -/
def IsInfo (text : String) : Prop :=
  '!' ∉ text.toList ∧ '\n' ∉ text.toList ∧ text.toList.head? ≠ some '='

/-- The numbers that decimal literals denote. -/
def IsDecimal (value : Binary64) : Prop :=
  ∃ text, Shape.decimal text.toList = true ∧ Binary64.ofLiteral text = value

/-! ## Expressions -/

/-- Of the three forms of a cell reference only the current cell has no name to be judged. -/
def CellRef.WellFormed : CellRef → Prop
  | inSheet sheet coordinate => IsSheetName sheet ∧ IsCoordinate coordinate
  | currentIn range => IsRangeName range
  | current => True

mutual

/-- A call may have no arguments, and every operator takes any operands; only names and
decimals have to be of their forms. -/
def Expr.WellFormed : Expr → Prop
  | .name name => IsScalarName name
  | .decimal value => IsDecimal value
  | .call function arguments => IsFunctionName function ∧ Argument.AllWellFormed arguments
  | .cell cell => cell.WellFormed
  | .count range => range.WellFormed
  | .binary _ left right => left.WellFormed ∧ right.WellFormed
  | .negate operand => operand.WellFormed

/-- The numbers of a part may be any that the type has, whichever range they belong to. -/
def RangeExpr.WellFormed : RangeExpr → Prop
  | .named name => IsRangeName name
  | .span first last => first.WellFormed ∧ last.WellFormed
  | .call function arguments => IsFunctionName function ∧ Argument.AllWellFormed arguments
  | .part range _ _ => range.WellFormed

/-- A sheet is passed by its name only. -/
def Argument.WellFormed : Argument → Prop
  | .scalar value => value.WellFormed
  | .range value => value.WellFormed
  | .sheet name => IsSheetName name

def Argument.AllWellFormed : List Argument → Prop
  | [] => True
  | first :: others => first.WellFormed ∧ Argument.AllWellFormed others

end

/-! ## Statements -/

mutual

/-- No block is empty, a loop over ranges has a range, and the targets of assignments have the
form of their family. -/
def Statement.WellFormed : Statement → Prop
  | .print info argument => (∀ text ∈ info, IsInfo text) ∧ argument.WellFormed
  | .branch condition positive negative =>
    condition.WellFormed ∧ positive ≠ [] ∧ Statement.AllWellFormed positive ∧
      Statement.ElseWellFormed negative
  | .loop condition body => condition.WellFormed ∧ body ≠ [] ∧ Statement.AllWellFormed body
  | .traverse ranges body =>
    ranges ≠ [] ∧ (∀ range ∈ ranges, range.WellFormed) ∧ body ≠ [] ∧
      Statement.AllWellFormed body
  | .call subroutine arguments => IsFunctionName subroutine ∧ Argument.AllWellFormed arguments
  | .returnScalar value => value.WellFormed
  | .returnRange value => value.WellFormed
  | .assignScalar target value => IsScalarName target ∧ value.WellFormed
  | .assignCell target value => target.WellFormed ∧ value.WellFormed
  | .assignRange target value => IsRangeName target ∧ value.WellFormed
  | .assignSheet target source => IsSheetName target ∧ IsSheetName source

def Statement.AllWellFormed : List Statement → Prop
  | [] => True
  | first :: others => first.WellFormed ∧ Statement.AllWellFormed others

/-- A second branch is absent or not empty. -/
def Statement.ElseWellFormed : Option (List Statement) → Prop
  | none => True
  | some body => body ≠ [] ∧ Statement.AllWellFormed body

end

/-! ## Definitions -/

/-- There is a row, and no row is empty; a width and a height may be any numbers, negative ones
included. -/
def SheetContents.WellFormed : SheetContents → Prop
  | .rows table =>
    table ≠ [] ∧ ∀ row ∈ table, row ≠ [] ∧ ∀ cell ∈ row, Expr.WellFormed cell
  | .size _ _ => True

/-- The name has the form of the family of the variable, which may start without a value. -/
def Variable.WellFormed : Variable → Prop
  | .scalar name value => IsScalarName name ∧ ∀ expression ∈ value, Expr.WellFormed expression
  | .range name value => IsRangeName name ∧ ∀ expression ∈ value, RangeExpr.WellFormed expression
  | .sheet name contents => IsSheetName name ∧ ∀ start ∈ contents, SheetContents.WellFormed start

/-- The form of the name belongs to the family that is written behind it. -/
def Parameter.WellFormed (parameter : Parameter) : Prop :=
  match parameter.family with
  | .scalar => IsScalarName parameter.name
  | .range => IsRangeName parameter.name
  | .sheet => IsSheetName parameter.name

/-- A function may have no parameters and no local variables, but it has a statement. -/
structure Function.WellFormed (function : Function) : Prop where
  name : IsFunctionName function.name
  parameters : ∀ parameter ∈ function.parameters, parameter.WellFormed
  locals : ∀ definition ∈ function.locals, definition.WellFormed
  nonempty : function.body ≠ []
  body : Statement.AllWellFormed function.body

/-- A subroutine has a statement, as a function does. -/
structure Subroutine.WellFormed (subroutine : Subroutine) : Prop where
  name : IsFunctionName subroutine.name
  parameters : ∀ parameter ∈ subroutine.parameters, parameter.WellFormed
  locals : ∀ definition ∈ subroutine.locals, definition.WellFormed
  nonempty : subroutine.body ≠ []
  body : Statement.AllWellFormed subroutine.body

def Definition.WellFormed : Definition → Prop
  | .variable definition => definition.WellFormed
  | .function definition => definition.WellFormed
  | .subroutine definition => definition.WellFormed

/-- A program may define nothing, but it has a statement. -/
structure Program.WellFormed (program : Program) : Prop where
  definitions : ∀ definition ∈ program.definitions, definition.WellFormed
  nonempty : program.statements ≠ []
  statements : Statement.AllWellFormed program.statements

end SheetLang
