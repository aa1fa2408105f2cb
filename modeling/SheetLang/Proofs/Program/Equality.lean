import SheetLang.Program.Equality
import SheetLang.Program.PlainZeros

/-!
# Equality as a normal form

Two programs are equal exactly if they are the same with plain zeros.  So equality of
programs is an equivalence relation.
-/

namespace SheetLang

theorem Binary64.numEq_iff {left right : Binary64} :
    left.numEq right = true ↔ left.plainZero = right.plainZero := by
  obtain ⟨sign, rank, bounded⟩ := left
  obtain ⟨otherSign, otherRank, otherBounded⟩ := right
  by_cases zero : rank = 0 <;> by_cases otherZero : otherRank = 0
  · simp [numEq, plainZero, zero, otherZero]
  · simp [numEq, plainZero, zero, otherZero, Ne.symm otherZero]
  · simp [numEq, plainZero, zero, otherZero]
  · simp [numEq, plainZero, zero, otherZero, and_comm]

theorem optionsAgree_iff {α : Type} {related : α → α → Bool} {plain : α → α}
    {left right : Option α}
    (agree : ∀ first second, related first second = true ↔ plain first = plain second) :
    optionsAgree related left right = true ↔ left.map plain = right.map plain := by
  cases left <;> cases right <;> simp [optionsAgree, agree]

theorem listsAgree_iff {α : Type} {related : α → α → Bool} {plain : α → α} {left right : List α}
    (agree : ∀ first second, related first second = true ↔ plain first = plain second) :
    listsAgree related left right = true ↔ left.map plain = right.map plain := by
  induction left generalizing right with
  | nil => cases right <;> simp [listsAgree]
  | cons first others induction =>
      cases right <;> simp [listsAgree, agree, induction]

/-! ## Expressions -/

mutual

theorem Expr.equals_iff (left right : Expr) :
    left.equals right = true ↔ left.plainZeros = right.plainZeros := by
  cases left with
  | name | cell => cases right <;> simp [Expr.equals, Expr.plainZeros]
  | decimal => cases right <;> simp [Expr.equals, Expr.plainZeros, Binary64.numEq_iff]
  | call _ arguments =>
      have agree := Argument.equalsAll_iff arguments
      cases right <;> simp [Expr.equals, Expr.plainZeros, agree]
  | count range =>
      have agree := range.equals_iff
      cases right <;> simp [Expr.equals, Expr.plainZeros, agree]
  | binary _ first second =>
      have agree := first.equals_iff
      have agreeToo := second.equals_iff
      cases right <;> simp [Expr.equals, Expr.plainZeros, agree, agreeToo, and_assoc]
  | negate operand =>
      have agree := operand.equals_iff
      cases right <;> simp [Expr.equals, Expr.plainZeros, agree]
termination_by structural left

theorem RangeExpr.equals_iff (left right : RangeExpr) :
    left.equals right = true ↔ left.plainZeros = right.plainZeros := by
  cases left with
  | named | span => cases right <;> simp [RangeExpr.equals, RangeExpr.plainZeros]
  | call _ arguments =>
      have agree := Argument.equalsAll_iff arguments
      cases right <;> simp [RangeExpr.equals, RangeExpr.plainZeros, agree]
  | part range =>
      have agree := range.equals_iff
      cases right <;> simp [RangeExpr.equals, RangeExpr.plainZeros, agree, and_assoc]
termination_by structural left

theorem Argument.equals_iff (left right : Argument) :
    left.equals right = true ↔ left.plainZeros = right.plainZeros := by
  cases left with
  | scalar value | range value =>
      have agree := value.equals_iff
      cases right <;> simp [Argument.equals, Argument.plainZeros, agree]
  | sheet => cases right <;> simp [Argument.equals, Argument.plainZeros]
termination_by structural left

theorem Argument.equalsAll_iff (left right : List Argument) :
    Argument.equalsAll left right = true ↔
      Argument.plainZerosAll left = Argument.plainZerosAll right := by
  cases left with
  | nil => cases right <;> simp [Argument.equalsAll, Argument.plainZerosAll]
  | cons first others =>
      have agree := first.equals_iff
      have agreeToo := Argument.equalsAll_iff others
      cases right <;> simp [Argument.equalsAll, Argument.plainZerosAll, agree, agreeToo]
termination_by structural left

end

/-! ## Statements -/

mutual

theorem Statement.equals_iff (left right : Statement) :
    left.equals right = true ↔ left.plainZeros = right.plainZeros := by
  cases left with
  | print _ argument =>
      cases right <;> simp [Statement.equals, Statement.plainZeros, argument.equals_iff]
  | branch condition positive negative =>
      have agree := Statement.equalsAll_iff positive
      have agreeToo := Statement.equalsOptional_iff negative
      cases right <;>
        simp [Statement.equals, Statement.plainZeros, condition.equals_iff, agree, agreeToo,
          and_assoc]
  | loop condition body =>
      have agree := Statement.equalsAll_iff body
      cases right <;> simp [Statement.equals, Statement.plainZeros, condition.equals_iff, agree]
  | traverse ranges body =>
      have agree := Statement.equalsAll_iff body
      cases right <;>
        simp [Statement.equals, Statement.plainZeros, listsAgree_iff RangeExpr.equals_iff, agree]
  | call _ arguments =>
      cases right <;>
        simp [Statement.equals, Statement.plainZeros, Argument.equalsAll_iff arguments]
  | returnScalar value | returnRange value | assignScalar _ value | assignCell _ value
    | assignRange _ value =>
      cases right <;> simp [Statement.equals, Statement.plainZeros, value.equals_iff]
  | assignSheet => cases right <;> simp [Statement.equals, Statement.plainZeros]
termination_by structural left

theorem Statement.equalsAll_iff (left right : List Statement) :
    Statement.equalsAll left right = true ↔
      Statement.plainZerosAll left = Statement.plainZerosAll right := by
  cases left with
  | nil => cases right <;> simp [Statement.equalsAll, Statement.plainZerosAll]
  | cons first others =>
      have agree := first.equals_iff
      have agreeToo := Statement.equalsAll_iff others
      cases right <;> simp [Statement.equalsAll, Statement.plainZerosAll, agree, agreeToo]
termination_by structural left

theorem Statement.equalsOptional_iff (left right : Option (List Statement)) :
    Statement.equalsOptional left right = true ↔
      Statement.plainZerosElse left = Statement.plainZerosElse right := by
  cases left with
  | none => cases right <;> simp [Statement.equalsOptional, Statement.plainZerosElse]
  | some body =>
      have agree := Statement.equalsAll_iff body
      cases right <;> simp [Statement.equalsOptional, Statement.plainZerosElse, agree]
termination_by structural left

end

/-! ## Definitions -/

theorem SheetContents.equals_iff (left right : SheetContents) :
    left.equals right = true ↔ left.plainZeros = right.plainZeros := by
  have rows (first second : List Expr) : listsAgree Expr.equals first second = true ↔
      first.map Expr.plainZeros = second.map Expr.plainZeros := listsAgree_iff Expr.equals_iff
  cases left <;> cases right <;>
    simp [SheetContents.equals, SheetContents.plainZeros, listsAgree_iff rows]

theorem Variable.equals_iff (left right : Variable) :
    left.equals right = true ↔ left.plainZeros = right.plainZeros := by
  cases left <;> cases right <;>
    simp [Variable.equals, Variable.plainZeros, optionsAgree_iff Expr.equals_iff,
      optionsAgree_iff RangeExpr.equals_iff, optionsAgree_iff SheetContents.equals_iff]

theorem Function.equals_iff (left right : Function) :
    left.equals right = true ↔ left.plainZeros = right.plainZeros := by
  cases left
  cases right
  simp [Function.equals, Function.plainZeros, listsAgree_iff Variable.equals_iff,
    Statement.equalsAll_iff, and_assoc]

theorem Subroutine.equals_iff (left right : Subroutine) :
    left.equals right = true ↔ left.plainZeros = right.plainZeros := by
  cases left
  cases right
  simp [Subroutine.equals, Subroutine.plainZeros, listsAgree_iff Variable.equals_iff,
    Statement.equalsAll_iff, and_assoc]

theorem Definition.equals_iff (left right : Definition) :
    left.equals right = true ↔ left.plainZeros = right.plainZeros := by
  cases left <;> cases right <;>
    simp [Definition.equals, Definition.plainZeros, Variable.equals_iff, Function.equals_iff,
      Subroutine.equals_iff]

theorem Program.equals_iff (left right : Program) :
    left.equals right = true ↔ left.plainZeros = right.plainZeros := by
  simp [Program.equals, Program.plainZeros, listsAgree_iff Definition.equals_iff,
    Statement.equalsAll_iff]

theorem Program.equals_equivalence :
    Equivalence fun left right : Program => left.equals right = true where
  refl _ := (Program.equals_iff _ _).mpr rfl
  symm same := (Program.equals_iff _ _).mpr ((Program.equals_iff _ _).mp same).symm
  trans same more := (Program.equals_iff _ _).mpr
    (((Program.equals_iff _ _).mp same).trans ((Program.equals_iff _ _).mp more))

end SheetLang
