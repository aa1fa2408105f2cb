import SheetLang.Program

/-!
# Erased programs

What is left of a program when its names, texts and numbers are wiped out: how it is built,
with which operators, families and return types.  Whether there is an info string still
shows.
-/

namespace SheetLang

/-- The number that stands in for every other one. -/
def Binary64.zero : Binary64 :=
  ⟨false, 0, zero_rank_le⟩

/-- A cell reference without its names. -/
def CellRef.erased : CellRef → CellRef
  | .inSheet _ _ => .inSheet "" ""
  | .currentIn _ => .currentIn ""
  | .current => .current

mutual

/-- A scalar expression without its names and numbers. -/
def Expr.erased : Expr → Expr
  | .name _ => .name ""
  | .decimal _ => .decimal .zero
  | .call _ arguments => .call "" (Argument.erasedAll arguments)
  | .cell cell => .cell cell.erased
  | .count range => .count range.erased
  | .binary operator left right => .binary operator left.erased right.erased
  | .negate operand => .negate operand.erased

def RangeExpr.erased : RangeExpr → RangeExpr
  | .named _ => .named ""
  | .span first last => .span first.erased last.erased
  | .call _ arguments => .call "" (Argument.erasedAll arguments)
  | .part range _ _ => .part range.erased 0 0

def Argument.erased : Argument → Argument
  | .scalar value => .scalar value.erased
  | .range value => .range value.erased
  | .sheet _ => .sheet ""

def Argument.erasedAll : List Argument → List Argument
  | [] => []
  | argument :: others => argument.erased :: Argument.erasedAll others

end

theorem Argument.erasedAll_eq_map (arguments : List Argument) :
    Argument.erasedAll arguments = arguments.map Argument.erased := by
  induction arguments with
  | nil => rfl
  | cons argument others induction => rw [Argument.erasedAll, induction, List.map_cons]

mutual

/-- A statement without its names, texts and numbers. -/
def Statement.erased : Statement → Statement
  | .print info argument => .print (info.map fun _ => "") argument.erased
  | .branch condition positive negative =>
    .branch condition.erased (Statement.erasedAll positive) (Statement.erasedElse negative)
  | .loop condition body => .loop condition.erased (Statement.erasedAll body)
  | .traverse ranges body =>
    .traverse (ranges.map RangeExpr.erased) (Statement.erasedAll body)
  | .call _ arguments => .call "" (Argument.erasedAll arguments)
  | .returnScalar value => .returnScalar value.erased
  | .returnRange value => .returnRange value.erased
  | .assignScalar _ value => .assignScalar "" value.erased
  | .assignCell target value => .assignCell target.erased value.erased
  | .assignRange _ value => .assignRange "" value.erased
  | .assignSheet _ _ => .assignSheet "" ""

def Statement.erasedAll : List Statement → List Statement
  | [] => []
  | statement :: others => statement.erased :: Statement.erasedAll others

/-- The statements of a second branch without their names, texts and numbers. -/
def Statement.erasedElse : Option (List Statement) → Option (List Statement)
  | none => none
  | some body => some (Statement.erasedAll body)

end

theorem Statement.erasedAll_eq_map (statements : List Statement) :
    Statement.erasedAll statements = statements.map Statement.erased := by
  induction statements with
  | nil => rfl
  | cons statement others induction => rw [Statement.erasedAll, induction, List.map_cons]

/-- What a sheet starts with, without names and numbers. -/
def SheetContents.erased : SheetContents → SheetContents
  | .rows cells => .rows (cells.map (List.map Expr.erased))
  | .size _ _ => .size 0 0

def Variable.erased : Variable → Variable
  | .scalar _ value => .scalar "" (value.map Expr.erased)
  | .range _ value => .range "" (value.map RangeExpr.erased)
  | .sheet _ contents => .sheet "" (contents.map SheetContents.erased)

def Parameter.erased (parameter : Parameter) : Parameter :=
  { parameter with name := "" }

def Function.erased (function : Function) : Function :=
  { function with
    name := ""
    parameters := function.parameters.map Parameter.erased
    locals := function.locals.map Variable.erased
    body := Statement.erasedAll function.body }

def Subroutine.erased (subroutine : Subroutine) : Subroutine :=
  { subroutine with
    name := ""
    parameters := subroutine.parameters.map Parameter.erased
    locals := subroutine.locals.map Variable.erased
    body := Statement.erasedAll subroutine.body }

def Definition.erased : Definition → Definition
  | .variable definition => .variable definition.erased
  | .function definition => .function definition.erased
  | .subroutine definition => .subroutine definition.erased

/-- A program without its names, texts and numbers. -/
def Program.erased (program : Program) : Program where
  definitions := program.definitions.map Definition.erased
  statements := Statement.erasedAll program.statements

end SheetLang
