import SheetLang.Program

/-!
# Plain zeros in programs

A program with plain zeros has the positive zero at every decimal that is zero.
-/

namespace SheetLang

/-- The number, without the sign if it is zero. -/
def Binary64.plainZero (number : Binary64) : Binary64 :=
  if number.rank = 0 then ⟨false, 0, Nat.zero_le _⟩ else number

mutual

/-- A scalar expression with plain zeros. -/
def Expr.plainZeros : Expr → Expr
  | .name name => .name name
  | .decimal value => .decimal value.plainZero
  | .call function arguments => .call function (Argument.plainZerosAll arguments)
  | .cell cell => .cell cell
  | .count range => .count range.plainZeros
  | .binary operator left right => .binary operator left.plainZeros right.plainZeros
  | .negate operand => .negate operand.plainZeros

def RangeExpr.plainZeros : RangeExpr → RangeExpr
  | .named name => .named name
  | .span first last => .span first last
  | .call function arguments => .call function (Argument.plainZerosAll arguments)
  | .part range column row => .part range.plainZeros column row

def Argument.plainZeros : Argument → Argument
  | .scalar value => .scalar value.plainZeros
  | .range value => .range value.plainZeros
  | .sheet name => .sheet name

def Argument.plainZerosAll : List Argument → List Argument
  | [] => []
  | argument :: others => argument.plainZeros :: Argument.plainZerosAll others

end

mutual

def Statement.plainZeros : Statement → Statement
  | .print info argument => .print info argument.plainZeros
  | .branch condition positive negative =>
    .branch condition.plainZeros (Statement.plainZerosAll positive)
      (Statement.plainZerosElse negative)
  | .loop condition body => .loop condition.plainZeros (Statement.plainZerosAll body)
  | .traverse ranges body =>
    .traverse (ranges.map RangeExpr.plainZeros) (Statement.plainZerosAll body)
  | .call subroutine arguments => .call subroutine (Argument.plainZerosAll arguments)
  | .returnScalar value => .returnScalar value.plainZeros
  | .returnRange value => .returnRange value.plainZeros
  | .assignScalar target value => .assignScalar target value.plainZeros
  | .assignCell target value => .assignCell target value.plainZeros
  | .assignRange target value => .assignRange target value.plainZeros
  | .assignSheet target source => .assignSheet target source

def Statement.plainZerosAll : List Statement → List Statement
  | [] => []
  | statement :: others => statement.plainZeros :: Statement.plainZerosAll others

/-- The statements of a second branch with plain zeros. -/
def Statement.plainZerosElse : Option (List Statement) → Option (List Statement)
  | none => none
  | some body => some (Statement.plainZerosAll body)

end

/-- What a sheet starts with, with plain zeros. -/
def SheetContents.plainZeros : SheetContents → SheetContents
  | .rows cells => .rows (cells.map (List.map Expr.plainZeros))
  | .size width height => .size width height

def Variable.plainZeros : Variable → Variable
  | .scalar name value => .scalar name (value.map Expr.plainZeros)
  | .range name value => .range name (value.map RangeExpr.plainZeros)
  | .sheet name contents => .sheet name (contents.map SheetContents.plainZeros)

def Function.plainZeros (function : Function) : Function :=
  { function with
    locals := function.locals.map Variable.plainZeros
    body := Statement.plainZerosAll function.body }

def Subroutine.plainZeros (subroutine : Subroutine) : Subroutine :=
  { subroutine with
    locals := subroutine.locals.map Variable.plainZeros
    body := Statement.plainZerosAll subroutine.body }

def Definition.plainZeros : Definition → Definition
  | .variable definition => .variable definition.plainZeros
  | .function definition => .function definition.plainZeros
  | .subroutine definition => .subroutine definition.plainZeros

def Program.plainZeros (program : Program) : Program where
  definitions := program.definitions.map Definition.plainZeros
  statements := Statement.plainZerosAll program.statements

end SheetLang
