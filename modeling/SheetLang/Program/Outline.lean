import SheetLang.Outline
import SheetLang.Program
import SheetLang.Binary64.Shortest

/-!
# Outlines of programs

The outline of a program shows every name, text and number in it.  The kind of
a node decides which relations it has, in which order, and which of them lead
to lists.
-/

namespace SheetLang

namespace Outline

/-- A name on its own. -/
def ofName (name : String) : Outline :=
  leaf .ident name

/-- A whole number on its own. -/
def ofInt64 (number : Int64) : Outline :=
  leaf .int (toString number.toInt)

end Outline

def CellRef.outline (cell : CellRef) : Outline :=
  .node .cellRef (some cell.render) <|
    match cell with
    | .inSheet sheet coordinate =>
      [.child "sheet" (.ofName sheet), .child "coordinate" (.ofName coordinate)]
    | .currentIn range => [.child "range" (.ofName range)]
    | .current => []

mutual

def Expr.outline : Expr → Outline
  | .name name => .ofName name
  | .decimal value => .leaf .decimal value.render
  | .call function arguments =>
    .node .functionCall (some function) [.children "arguments" (Argument.outlines arguments)]
  | .cell cell => cell.outline
  | .count range => .node .rangeCount none [.child "range" range.outline]
  | .binary operator left right =>
    .node .binaryOp none
      [.child "operator" (.leaf .operator operator.text), .child "left" left.outline,
        .child "right" right.outline]
  | .negate operand =>
    .node .unaryOp none
      [.child "operator" (.leaf .operator "-"), .child "operand" operand.outline]

def RangeExpr.outline : RangeExpr → Outline
  | .named name => .leaf .rangeExpression name
  | .span first last =>
    .node .rangeExpression none [.child "from" first.outline, .child "to" last.outline]
  | .call function arguments =>
    .node .rangeExpression none
      [.child "call" (.node .functionCall (some function)
        [.children "arguments" (Argument.outlines arguments)])]
  | .part range column row =>
    .node .rangeExpression none
      [.child "range" range.outline, .child "column" (.ofInt64 column),
        .child "row" (.ofInt64 row)]

def Argument.outline : Argument → Outline
  | .scalar value => value.outline
  | .range value => value.outline
  | .sheet name => .ofName name

def Argument.outlines : List Argument → List Outline
  | [] => []
  | argument :: others => argument.outline :: Argument.outlines others

end

theorem Argument.outlines_eq_map (arguments : List Argument) :
    Argument.outlines arguments = arguments.map Argument.outline := by
  induction arguments with
  | nil => rfl
  | cons argument others induction => rw [Argument.outlines, induction, List.map_cons]

/-- The relation to a child that may be absent. -/
def Relation.optional (name : String) (node : Option Outline) : List Relation :=
  (node.map (Relation.child name)).toList

mutual

def Statement.outline : Statement → Outline
  | .print info argument =>
    .node .print (some argument.family.name)
      (Relation.optional "info" (info.map (Outline.leaf .infoString)) ++
        [.child "target" argument.outline])
  | .branch condition positive none =>
    .node .branch none
      [.child "condition" condition.outline,
        .children "then_branch" (Statement.outlines positive)]
  | .branch condition positive (some negative) =>
    .node .branch none
      [.child "condition" condition.outline,
        .children "then_branch" (Statement.outlines positive),
        .children "else_branch" (Statement.outlines negative)]
  | .loop condition body =>
    .node .loop none
      [.child "condition" condition.outline, .children "body" (Statement.outlines body)]
  | .traverse ranges body =>
    .node .traverse none
      [.children "ranges" (ranges.map RangeExpr.outline),
        .children "body" (Statement.outlines body)]
  | .call subroutine arguments =>
    .node .subroutineCall (some subroutine)
      [.children "arguments" (Argument.outlines arguments)]
  | .returnScalar value => .node .returnValue none [.child "value" value.outline]
  | .returnRange value => .node .returnValue none [.child "value" value.outline]
  | .assignScalar target value =>
    .node .assignment none
      [.child "variable" (.ofName target), .child "value" value.outline]
  | .assignCell target value =>
    .node .assignment none [.child "cell" target.outline, .child "value" value.outline]
  | .assignRange target value =>
    .node .assignment none
      [.child "variable" (.ofName target), .child "value" value.outline]
  | .assignSheet target source =>
    .node .assignment none
      [.child "variable" (.ofName target), .child "value" (.ofName source)]

def Statement.outlines : List Statement → List Outline
  | [] => []
  | statement :: others => statement.outline :: Statement.outlines others

end

theorem Statement.outlines_eq_map (statements : List Statement) :
    Statement.outlines statements = statements.map Statement.outline := by
  induction statements with
  | nil => rfl
  | cons statement others induction => rw [Statement.outlines, induction, List.map_cons]

/-- The outline of a row of a sheet. -/
def Outline.ofRow (cells : List Expr) : Outline :=
  .node .sheetRow none [.children "cells" (cells.map Expr.outline)]

/-- The outline of what a sheet starts with. -/
def SheetContents.outline : SheetContents → Outline
  | .rows cells => .node .sheetInit none [.children "rows" (cells.map Outline.ofRow)]
  | .size width height =>
    .node .sheetInit none [.child "width" (.ofInt64 width), .child "height" (.ofInt64 height)]

def Variable.outline : Variable → Outline
  | .scalar name value =>
    .node .scalarDefinition (some name)
      (Relation.optional "value" (value.map Expr.outline))
  | .range name value =>
    .node .rangeDefinition (some name)
      (Relation.optional "value" (value.map RangeExpr.outline))
  | .sheet name contents =>
    .node .sheetDefinition (some name)
      (Relation.optional "init" (contents.map SheetContents.outline))

def Parameter.outline (parameter : Parameter) : Outline :=
  .node .formalArg (some parameter.name)
    [.child "type" (.leaf .typeName parameter.family.name)]

def Function.outline (function : Function) : Outline :=
  .node .functionDefinition (some function.name)
    [.children "formals" (function.parameters.map Parameter.outline),
      .child "return_type" (.leaf .typeName function.returnType.name),
      .children "locals" (function.locals.map Variable.outline),
      .children "body" (Statement.outlines function.body)]

def Subroutine.outline (subroutine : Subroutine) : Outline :=
  .node .subroutineDefinition (some subroutine.name)
    [.children "formals" (subroutine.parameters.map Parameter.outline),
      .children "locals" (subroutine.locals.map Variable.outline),
      .children "body" (Statement.outlines subroutine.body)]

def Definition.outline : Definition → Outline
  | .variable definition => definition.outline
  | .function definition => definition.outline
  | .subroutine definition => definition.outline

def Program.outline (program : Program) : Outline :=
  .node .program none
    [.children "definitions" (program.definitions.map Definition.outline),
      .children "statements" (Statement.outlines program.statements)]

end SheetLang
