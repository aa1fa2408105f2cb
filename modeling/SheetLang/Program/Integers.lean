import SheetLang.Outline.Branches
import SheetLang.Program.Outline
import SheetLang.Token

/-!
# Whole numbers of programs

Whole numbers stand in four places of a program.  Which of them it is shows in the symbol in
front of the literal, in the field of the typed tree, and in the relation of the outline
that leads to the number.
-/

namespace SheetLang

/-- The places of whole numbers. -/
inductive IntegerField where
  | width
  | height
  | column
  | row
  deriving DecidableEq

namespace IntegerField

/-- The relation that leads to the number. -/
def name : IntegerField → String
  | width => "width"
  | height => "height"
  | column => "column"
  | row => "row"

/-- The symbol in front of the literal. -/
def sign : IntegerField → Symbol
  | width => .equal
  | height => .times
  | column => .leftBracket
  | row => .comma

/-- The place of a literal behind a token of a kind. -/
def behind? : Token.Kind → Option IntegerField
  | .symbol .equal => some width
  | .symbol .times => some height
  | .symbol .leftBracket => some column
  | .symbol .comma => some row
  | _ => none

theorem behind?_eq_some_iff {kind : Token.Kind} {field : IntegerField} :
    behind? kind = some field ↔ kind = .symbol field.sign := by
  constructor
  · intro found
    unfold behind? at found
    split at found <;> cases found <;> rfl
  · rintro rfl
    cases field <;> rfl

end IntegerField

/-! ## Typed trees -/

mutual

/-- The whole numbers of a scalar expression, in the order of the source. -/
def Expr.integers : Expr → List (IntegerField × Int64)
  | .name _ | .decimal _ | .cell _ => []
  | .call _ arguments => Argument.integersAll arguments
  | .count range => range.integers
  | .binary _ left right => left.integers ++ right.integers
  | .negate operand => operand.integers

def RangeExpr.integers : RangeExpr → List (IntegerField × Int64)
  | .named _ | .span _ _ => []
  | .call _ arguments => Argument.integersAll arguments
  | .part range column row => range.integers ++ [(.column, column), (.row, row)]

def Argument.integers : Argument → List (IntegerField × Int64)
  | .scalar value => value.integers
  | .range value => value.integers
  | .sheet _ => []

def Argument.integersAll : List Argument → List (IntegerField × Int64)
  | [] => []
  | argument :: others => argument.integers ++ Argument.integersAll others

end

mutual

def Statement.integers : Statement → List (IntegerField × Int64)
  | .print _ argument => argument.integers
  | .branch condition positive negative =>
    condition.integers ++ Statement.integersAll positive ++ Statement.integersElse negative
  | .loop condition body => condition.integers ++ Statement.integersAll body
  | .traverse ranges body => ranges.flatMap RangeExpr.integers ++ Statement.integersAll body
  | .call _ arguments => Argument.integersAll arguments
  | .returnScalar value | .assignScalar _ value | .assignCell _ value => value.integers
  | .returnRange value | .assignRange _ value => value.integers
  | .assignSheet _ _ => []

def Statement.integersAll : List Statement → List (IntegerField × Int64)
  | [] => []
  | statement :: others => statement.integers ++ Statement.integersAll others

/-- The whole numbers of a second branch, in the order of the source. -/
def Statement.integersElse : Option (List Statement) → List (IntegerField × Int64)
  | none => []
  | some body => Statement.integersAll body

end

def SheetContents.integers : SheetContents → List (IntegerField × Int64)
  | .rows cells => cells.flatMap (List.flatMap Expr.integers)
  | .size width height => [(.width, width), (.height, height)]

def Variable.integers : Variable → List (IntegerField × Int64)
  | .scalar _ value => value.toList.flatMap Expr.integers
  | .range _ value => value.toList.flatMap RangeExpr.integers
  | .sheet _ contents => contents.toList.flatMap SheetContents.integers

def Definition.integers : Definition → List (IntegerField × Int64)
  | .variable definition => definition.integers
  | .function definition =>
    definition.locals.flatMap Variable.integers ++ Statement.integersAll definition.body
  | .subroutine definition =>
    definition.locals.flatMap Variable.integers ++ Statement.integersAll definition.body

/-- The whole numbers of a program, in the order of the source. -/
def Program.integers (program : Program) : List (IntegerField × Int64) :=
  program.definitions.flatMap Definition.integers ++ Statement.integersAll program.statements

theorem Argument.integersAll_eq_flatMap (arguments : List Argument) :
    Argument.integersAll arguments = arguments.flatMap Argument.integers := by
  induction arguments with
  | nil => rfl
  | cons argument others induction =>
      rw [Argument.integersAll, induction, List.flatMap_cons]

theorem Statement.integersAll_eq_flatMap (statements : List Statement) :
    Statement.integersAll statements = statements.flatMap Statement.integers := by
  induction statements with
  | nil => rfl
  | cons statement others induction =>
      rw [Statement.integersAll, induction, List.flatMap_cons]

/-! ## Outlines -/

/-- The whole number at the end of a way down, with the relation that leads to it. -/
def Outline.Descent.integer? (descent : Outline.Descent) : Option (String × String) :=
  if descent.child.kind = .int then some (descent.relation, descent.child.value?.getD "")
  else none

/-- The whole numbers of an outline as they are shown, each behind those further left. -/
def Outline.integers (outline : Outline) : List (String × String) :=
  outline.descents.filterMap Outline.Descent.integer?

/-- A field with its number, as an outline shows them. -/
def IntegerField.shown : IntegerField × Int64 → String × String
  | (field, number) => (field.name, toString number.toInt)

end SheetLang
