import SheetLang.Program.Integers
import SheetLang.Proofs.Outline.Branches

/-!
# Whole numbers in outlines

The outline of a program shows every whole number of the typed tree below the relation with
the name of its field, in the same order.
-/

namespace SheetLang

/-! ## Nodes -/

namespace Outline

/-- The whole numbers that are passed when a node is entered through a relation. -/
def entering (name : String) (outline : Outline) : List (String × String) :=
  outline.integers ++ if outline.kind = .int then [(name, outline.value?.getD "")] else []

end Outline

def Relation.integers (relation : Relation) : List (String × String) :=
  relation.members.flatMap fun (name, below) => below.entering name

@[simp] theorem Relation.integers_child (name : String) (node : Outline) :
    (child name node).integers = node.entering name :=
  List.append_nil _

@[simp] theorem Relation.integers_children (name : String) (nodes : List Outline) :
    (children name nodes).integers = nodes.flatMap (Outline.entering name) :=
  List.flatMap_map ..

@[simp] theorem Relation.flatMap_integers_optional (name : String) (node : Option Outline) :
    (optional name node).flatMap integers = node.toList.flatMap (Outline.entering name) := by
  cases node <;> simp [optional]

namespace Outline

@[simp] theorem integers_node (kind : Kind) (value : Option String) (relations : List Relation) :
    (node kind value relations).integers = relations.flatMap Relation.integers := by
  have one (parent : Outline) (branch : String × Outline) :
      (branch.2.descents ++ [Descent.mk parent branch.1 branch.2]).filterMap Descent.integer? =
        branch.2.entering branch.1 := by
    rw [List.filterMap_append, entering, integers]
    by_cases number : branch.2.kind = .int <;> simp [Descent.integer?, number]
  rw [integers, descents_eq_entered, entered, List.filterMap_flatMap, branches,
    List.flatMap_assoc]
  simp only [one]
  rfl

@[simp] theorem entering_node (name : String) (kind : Kind) (value : Option String)
    (relations : List Relation) :
    (node kind value relations).entering name = relations.flatMap Relation.integers ++
      if kind = .int then [(name, value.getD "")] else [] := by
  rw [entering, integers_node]
  rfl

@[simp] theorem entering_leaf (name : String) (kind : Kind) (value : String) :
    (leaf kind value).entering name = if kind = .int then [(name, value)] else [] :=
  entering_node name kind (some value) []

@[simp] theorem entering_ofName (relation name : String) : (ofName name).entering relation = [] :=
  entering_leaf relation .ident name

@[simp] theorem entering_ofInt64 (relation : String) (number : Int64) :
    (ofInt64 number).entering relation = [(relation, toString number.toInt)] :=
  entering_leaf relation .int _

end Outline

/-! ## Programs -/

@[simp] theorem CellRef.entering_outline (name : String) (cell : CellRef) :
    cell.outline.entering name = [] := by
  cases cell <;> simp [outline]

mutual

@[simp] theorem Expr.entering_outline (name : String) (expression : Expr) :
    expression.outline.entering name = expression.integers.map IntegerField.shown := by
  cases expression with
  | name | decimal | cell => simp [Expr.outline, Expr.integers]
  | call function arguments =>
      simp [Expr.outline, Expr.integers, Argument.entering_outlines _ arguments]
  | count range => simp [Expr.outline, Expr.integers, RangeExpr.entering_outline _ range]
  | binary operator left right =>
      simp [Expr.outline, Expr.integers, Expr.entering_outline _ left,
        Expr.entering_outline _ right]
  | negate operand => simp [Expr.outline, Expr.integers, Expr.entering_outline _ operand]

@[simp] theorem RangeExpr.entering_outline (name : String) (range : RangeExpr) :
    range.outline.entering name = range.integers.map IntegerField.shown := by
  cases range with
  | named | span => simp [RangeExpr.outline, RangeExpr.integers]
  | call function arguments =>
      simp [RangeExpr.outline, RangeExpr.integers, Argument.entering_outlines _ arguments]
  | part range column row =>
      simp [RangeExpr.outline, RangeExpr.integers, RangeExpr.entering_outline _ range,
        IntegerField.shown, IntegerField.name]

@[simp] theorem Argument.entering_outline (name : String) (argument : Argument) :
    argument.outline.entering name = argument.integers.map IntegerField.shown := by
  cases argument with
  | scalar value => simp [Argument.outline, Argument.integers, Expr.entering_outline _ value]
  | range value => simp [Argument.outline, Argument.integers, RangeExpr.entering_outline _ value]
  | sheet name => simp [Argument.outline, Argument.integers]

@[simp] theorem Argument.entering_outlines (name : String) (arguments : List Argument) :
    (Argument.outlines arguments).flatMap (Outline.entering name) =
      (Argument.integersAll arguments).map IntegerField.shown := by
  cases arguments with
  | nil => rfl
  | cons argument others =>
      simp [Argument.outlines, Argument.integersAll, Argument.entering_outline _ argument,
        Argument.entering_outlines _ others]

end

mutual

@[simp] theorem Statement.entering_outline (name : String) (statement : Statement) :
    statement.outline.entering name = statement.integers.map IntegerField.shown := by
  cases statement with
  | print info argument => cases info <;> simp [Statement.outline, Statement.integers]
  | branch condition positive negative =>
      cases negative with
      | none =>
          simp [Statement.outline, Statement.integers, Statement.integersElse,
            Statement.entering_outlines _ positive]
      | some negative =>
          simp [Statement.outline, Statement.integers, Statement.integersElse,
            Statement.entering_outlines _ positive, Statement.entering_outlines _ negative]
  | loop condition body =>
      simp [Statement.outline, Statement.integers, Statement.entering_outlines _ body]
  | traverse ranges body =>
      simp [Statement.outline, Statement.integers, Statement.entering_outlines _ body,
        List.flatMap_map, List.map_flatMap]
  | _ => simp [Statement.outline, Statement.integers]

@[simp] theorem Statement.entering_outlines (name : String) (statements : List Statement) :
    (Statement.outlines statements).flatMap (Outline.entering name) =
      (Statement.integersAll statements).map IntegerField.shown := by
  cases statements with
  | nil => rfl
  | cons statement others =>
      simp [Statement.outlines, Statement.integersAll, Statement.entering_outline _ statement,
        Statement.entering_outlines _ others]

end

@[simp] theorem SheetContents.entering_outline (name : String) (contents : SheetContents) :
    contents.outline.entering name = contents.integers.map IntegerField.shown := by
  cases contents with
  | rows cells =>
      simp [SheetContents.outline, SheetContents.integers, Outline.ofRow, List.flatMap_map,
        List.map_flatMap]
  | size width height =>
      simp [SheetContents.outline, SheetContents.integers, IntegerField.shown, IntegerField.name]

@[simp] theorem Variable.entering_outline (name : String) (definition : Variable) :
    definition.outline.entering name = definition.integers.map IntegerField.shown := by
  cases definition with
  | scalar _ value | range _ value | sheet _ value =>
      cases value <;> simp [Variable.outline, Variable.integers]

@[simp] theorem Parameter.entering_outline (name : String) (parameter : Parameter) :
    parameter.outline.entering name = [] := by
  simp [Parameter.outline]

@[simp] theorem Definition.entering_outline (name : String) (definition : Definition) :
    definition.outline.entering name = definition.integers.map IntegerField.shown := by
  cases definition with
  | «variable» definition => exact definition.entering_outline name
  | function definition =>
      simp [Definition.outline, Function.outline, Definition.integers, List.flatMap_map,
        List.map_flatMap]
  | subroutine definition =>
      simp [Definition.outline, Subroutine.outline, Definition.integers, List.flatMap_map,
        List.map_flatMap]

theorem Program.integers_outline (program : Program) :
    program.outline.integers = program.integers.map IntegerField.shown := by
  simp [Program.outline, Program.integers, List.flatMap_map, List.map_flatMap]

end SheetLang
