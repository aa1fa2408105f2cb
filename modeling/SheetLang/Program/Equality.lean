import SheetLang.Program

/-!
# Equality of programs

Two programs are equal when they have the same shape, the same names and texts,
and equal numbers.  Decimals are compared as numbers, so that the two zeros are
equal; all else is compared as it stands.
-/

namespace SheetLang

/-- Whether two optional values are both absent or both present and related. -/
def optionsAgree (related : α → β → Bool) : Option α → Option β → Bool
  | none, none => true
  | some left, some right => related left right
  | _, _ => false

/-- Whether two lists have related members at all places. -/
def listsAgree (related : α → β → Bool) : List α → List β → Bool
  | [], [] => true
  | left :: lefts, right :: rights => related left right && listsAgree related lefts rights
  | _, _ => false

mutual

/-- Equality of scalar expressions. -/
def Expr.equals : Expr → Expr → Bool
  | .name left, .name right => left == right
  | .decimal left, .decimal right => left.numEq right
  | .call left lefts, .call right rights => left == right && Argument.equalsAll lefts rights
  | .cell left, .cell right => left == right
  | .count left, .count right => left.equals right
  | .binary leftOp left₁ left₂, .binary rightOp right₁ right₂ =>
    leftOp == rightOp && left₁.equals right₁ && left₂.equals right₂
  | .negate left, .negate right => left.equals right
  | _, _ => false

def RangeExpr.equals : RangeExpr → RangeExpr → Bool
  | .named left, .named right => left == right
  | .span left₁ left₂, .span right₁ right₂ => left₁ == right₁ && left₂ == right₂
  | .call left lefts, .call right rights => left == right && Argument.equalsAll lefts rights
  | .part left column row, .part right column₂ row₂ =>
    left.equals right && column == column₂ && row == row₂
  | _, _ => false

def Argument.equals : Argument → Argument → Bool
  | .scalar left, .scalar right => left.equals right
  | .range left, .range right => left.equals right
  | .sheet left, .sheet right => left == right
  | _, _ => false

def Argument.equalsAll : List Argument → List Argument → Bool
  | [], [] => true
  | left :: lefts, right :: rights => left.equals right && Argument.equalsAll lefts rights
  | _, _ => false

end

mutual

def Statement.equals : Statement → Statement → Bool
  | .print info left, .print info₂ right => info == info₂ && left.equals right
  | .branch left positive negative, .branch right positive₂ negative₂ =>
    left.equals right && Statement.equalsAll positive positive₂ &&
      Statement.equalsOptional negative negative₂
  | .loop left body, .loop right body₂ => left.equals right && Statement.equalsAll body body₂
  | .traverse left body, .traverse right body₂ =>
    listsAgree RangeExpr.equals left right && Statement.equalsAll body body₂
  | .call left lefts, .call right rights => left == right && Argument.equalsAll lefts rights
  | .returnScalar left, .returnScalar right => left.equals right
  | .returnRange left, .returnRange right => left.equals right
  | .assignScalar target left, .assignScalar target₂ right =>
    target == target₂ && left.equals right
  | .assignCell target left, .assignCell target₂ right => target == target₂ && left.equals right
  | .assignRange target left, .assignRange target₂ right =>
    target == target₂ && left.equals right
  | .assignSheet target left, .assignSheet target₂ right => target == target₂ && left == right
  | _, _ => false

def Statement.equalsAll : List Statement → List Statement → Bool
  | [], [] => true
  | left :: lefts, right :: rights => left.equals right && Statement.equalsAll lefts rights
  | _, _ => false

def Statement.equalsOptional : Option (List Statement) → Option (List Statement) → Bool
  | none, none => true
  | some left, some right => Statement.equalsAll left right
  | _, _ => false

end

def SheetContents.equals : SheetContents → SheetContents → Bool
  | .rows left, .rows right => listsAgree (listsAgree Expr.equals) left right
  | .size width height, .size width₂ height₂ => width == width₂ && height == height₂
  | _, _ => false

def Variable.equals : Variable → Variable → Bool
  | .scalar left value, .scalar right value₂ =>
    left == right && optionsAgree Expr.equals value value₂
  | .range left value, .range right value₂ =>
    left == right && optionsAgree RangeExpr.equals value value₂
  | .sheet left contents, .sheet right contents₂ =>
    left == right && optionsAgree SheetContents.equals contents contents₂
  | _, _ => false

def Function.equals (left right : Function) : Bool :=
  left.name == right.name && left.parameters == right.parameters &&
    left.returnType == right.returnType &&
    listsAgree Variable.equals left.locals right.locals &&
    Statement.equalsAll left.body right.body

def Subroutine.equals (left right : Subroutine) : Bool :=
  left.name == right.name && left.parameters == right.parameters &&
    listsAgree Variable.equals left.locals right.locals &&
    Statement.equalsAll left.body right.body

def Definition.equals : Definition → Definition → Bool
  | .variable left, .variable right => left.equals right
  | .function left, .function right => left.equals right
  | .subroutine left, .subroutine right => left.equals right
  | _, _ => false

def Program.equals (left right : Program) : Bool :=
  listsAgree Definition.equals left.definitions right.definitions &&
    Statement.equalsAll left.statements right.statements

end SheetLang
