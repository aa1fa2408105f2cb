import SheetLang.Program.Outline
import SheetLang.Proofs.Program.Equality
import SheetLang.Proofs.Program.Image
import SheetLang.Proofs.Program.PlainZeros

/-!
# Programs told by their outlines

No two well-formed programs have the same outline.  The name of a scalar and that of a
sheet show as the same node in an argument and in an assignment, so there it is the
spelling of the name that tells which of them it is.
-/

namespace SheetLang

theorem not_isSheetName_of_isScalarName {name : String} (scalar : IsScalarName name) :
    ¬IsSheetName name := by
  obtain ⟨shape, -⟩ := scalar
  intro sheet
  obtain ⟨capital, rest, whole, upper⟩ := Shape.head_of_oneOrMore sheet
  rw [whole, Shape.ident, Bool.and_eq_true] at shape
  have low := isLower_iff.mp shape.1
  have high := isUpper_iff.mp upper
  omega

/-! ## Leaves -/

@[simp] theorem Outline.leaf_inj {kind : Outline.Kind} {first second : String} :
    Outline.leaf kind first = .leaf kind second ↔ first = second := by
  simp [Outline.leaf]

@[simp] theorem Outline.ofName_inj {first second : String} :
    Outline.ofName first = .ofName second ↔ first = second :=
  Outline.leaf_inj

theorem Outline.ofInt64_injective : Function.Injective Outline.ofInt64 := by
  intro left right same
  exact Int64.toInt_inj.mp (Int.repr_injective (leaf_inj.mp same))

theorem BinaryOperator.text_injective : Function.Injective BinaryOperator.text := by
  intro left right same
  cases left <;> cases right <;> first | rfl | exact absurd same (by decide)

theorem Family.name_injective : Function.Injective Family.name := by
  intro left right same
  cases left <;> cases right <;> first | rfl | exact absurd same (by decide)

theorem ReturnType.name_injective : Function.Injective ReturnType.name := by
  intro left right same
  cases left <;> cases right <;> first | rfl | exact absurd same (by decide)

theorem CellRef.outline_injective : Function.Injective CellRef.outline := by
  intro left right same
  cases left <;> cases right <;> simp_all [CellRef.outline, Outline.ofName, Outline.leaf]

/-! ## Expressions -/

theorem RangeExpr.kind_outline (range : RangeExpr) : range.outline.kind = .rangeExpression := by
  cases range <;> simp [RangeExpr.outline, Outline.kind, Outline.leaf]

theorem Expr.kind_outline_ne (expression : Expr) :
    expression.outline.kind ≠ .rangeExpression := by
  cases expression <;>
    simp [Expr.outline, CellRef.outline, Outline.kind, Outline.leaf, Outline.ofName]

theorem Expr.outline_ne_range (expression : Expr) (range : RangeExpr) :
    expression.outline ≠ range.outline := by
  intro same
  apply expression.kind_outline_ne
  rw [same, range.kind_outline]

theorem RangeExpr.outline_ne_ofName (range : RangeExpr) (name : String) :
    range.outline ≠ .ofName name := by
  intro same
  have kind := range.kind_outline
  rw [same] at kind
  cases kind

theorem Expr.eq_name_of_outline {expression : Expr} {name : String}
    (same : expression.outline = .ofName name) : expression = .name name := by
  cases expression <;>
    simp_all [Expr.outline, CellRef.outline, Outline.leaf, Outline.ofName]

theorem Expr.outline_ne_sheet {expression : Expr} {name : String}
    (wellFormed : expression.WellFormed) (sheet : IsSheetName name) :
    expression.outline ≠ .ofName name := by
  intro same
  rw [Expr.eq_name_of_outline same] at wellFormed
  exact not_isSheetName_of_isScalarName wellFormed sheet

mutual

theorem Expr.outline_inj {left right : Expr} (same : left.outline = right.outline)
    (wellFormed : left.WellFormed) (otherWellFormed : right.WellFormed) : left = right := by
  cases left with
  | name name =>
      rw [Expr.eq_name_of_outline same.symm]
  | decimal value =>
      cases right with
      | decimal =>
          simp only [Expr.outline, Outline.leaf, Outline.node.injEq, Option.some.injEq, and_true,
            true_and] at same
          rw [Binary64.render_injective same]
      | _ => cases same
  | call function arguments =>
      cases right with
      | call =>
          simp only [Expr.outline, Outline.node.injEq, Option.some.injEq, List.cons.injEq,
            Relation.children.injEq, and_true, true_and] at same
          obtain ⟨rfl, outlines⟩ := same
          rw [Argument.outlines_inj outlines wellFormed.2 otherWellFormed.2]
      | _ => cases same
  | cell cell =>
      cases right with
      | cell => rw [CellRef.outline_injective same]
      | _ => cases same
  | count range =>
      cases right with
      | count =>
          simp only [Expr.outline, Outline.node.injEq, List.cons.injEq, Relation.child.injEq,
            and_true, true_and] at same
          rw [RangeExpr.outline_inj same wellFormed otherWellFormed]
      | _ => cases same
  | binary operator first second =>
      cases right with
      | binary =>
          simp only [Expr.outline, Outline.leaf, Outline.node.injEq, List.cons.injEq,
            Relation.child.injEq, Option.some.injEq, and_true, true_and] at same
          obtain ⟨operators, firsts, seconds⟩ := same
          rw [BinaryOperator.text_injective operators,
            Expr.outline_inj firsts wellFormed.1 otherWellFormed.1,
            Expr.outline_inj seconds wellFormed.2 otherWellFormed.2]
      | _ => cases same
  | negate operand =>
      cases right with
      | negate =>
          simp only [Expr.outline, Outline.node.injEq, List.cons.injEq, Relation.child.injEq,
            and_true, true_and] at same
          rw [Expr.outline_inj same wellFormed otherWellFormed]
      | _ => cases same
termination_by structural left

theorem RangeExpr.outline_inj {left right : RangeExpr} (same : left.outline = right.outline)
    (wellFormed : left.WellFormed) (otherWellFormed : right.WellFormed) : left = right := by
  cases left with
  | named | span =>
      cases right <;>
        simp_all [RangeExpr.outline, Outline.leaf, CellRef.outline_injective.eq_iff]
  | call function arguments =>
      cases right with
      | call =>
          simp only [RangeExpr.outline, Outline.node.injEq, Option.some.injEq, List.cons.injEq,
            Relation.child.injEq, Relation.children.injEq, and_true, true_and] at same
          obtain ⟨rfl, outlines⟩ := same
          rw [Argument.outlines_inj outlines wellFormed.2 otherWellFormed.2]
      | _ => simp [RangeExpr.outline, Outline.leaf] at same
  | part range column row =>
      cases right with
      | part =>
          simp only [RangeExpr.outline, Outline.node.injEq, List.cons.injEq, Relation.child.injEq,
            Outline.ofInt64_injective.eq_iff, and_true, true_and] at same
          obtain ⟨ranges, rfl, rfl⟩ := same
          rw [RangeExpr.outline_inj ranges wellFormed otherWellFormed]
      | _ => simp [RangeExpr.outline, Outline.leaf] at same
termination_by structural left

theorem Argument.outline_inj {left right : Argument} (same : left.outline = right.outline)
    (wellFormed : left.WellFormed) (otherWellFormed : right.WellFormed) : left = right := by
  cases left with
  | scalar value =>
      cases right with
      | scalar => rw [Expr.outline_inj same wellFormed otherWellFormed]
      | range other => exact absurd same (value.outline_ne_range other)
      | sheet => exact absurd same (Expr.outline_ne_sheet wellFormed otherWellFormed)
  | range value =>
      cases right with
      | scalar other => exact absurd same.symm (other.outline_ne_range value)
      | range => rw [RangeExpr.outline_inj same wellFormed otherWellFormed]
      | sheet name => exact absurd same (value.outline_ne_ofName name)
  | sheet name =>
      cases right with
      | scalar => exact absurd same.symm (Expr.outline_ne_sheet otherWellFormed wellFormed)
      | range other => exact absurd same.symm (other.outline_ne_ofName name)
      | sheet =>
          simp only [Argument.outline, Outline.ofName, Outline.leaf, Outline.node.injEq,
            Option.some.injEq, and_true, true_and] at same
          rw [same]
termination_by structural left

theorem Argument.outlines_inj {left right : List Argument}
    (same : Argument.outlines left = Argument.outlines right)
    (wellFormed : Argument.AllWellFormed left) (otherWellFormed : Argument.AllWellFormed right) :
    left = right := by
  cases left with
  | nil => cases right <;> simp_all [Argument.outlines]
  | cons first others =>
      cases right with
      | nil => cases same
      | cons =>
          simp only [Argument.outlines, List.cons.injEq] at same
          rw [Argument.outline_inj same.1 wellFormed.1 otherWellFormed.1,
            Argument.outlines_inj same.2 wellFormed.2 otherWellFormed.2]
termination_by structural left

end

/-! ## Statements -/

section

variable {Item : Type} {outline : Item → Outline} {WellFormed : Item → Prop}
  (inj : ∀ {first second}, outline first = outline second → WellFormed first →
    WellFormed second → first = second)

include inj

theorem eq_of_map_outline_eq {left right : List Item}
    (same : left.map outline = right.map outline) (wellFormed : ∀ item ∈ left, WellFormed item)
    (otherWellFormed : ∀ item ∈ right, WellFormed item) : left = right := by
  induction left generalizing right with
  | nil => exact (List.map_eq_nil_iff.mp same.symm).symm
  | cons first others induction =>
      cases right with
      | nil => cases same
      | cons =>
          obtain ⟨firstWellFormed, behind⟩ := List.forall_mem_cons.mp wellFormed
          obtain ⟨secondWellFormed, otherBehind⟩ := List.forall_mem_cons.mp otherWellFormed
          obtain ⟨firsts, later⟩ := List.cons.inj same
          rw [inj firsts firstWellFormed secondWellFormed, induction later behind otherBehind]

theorem eq_of_optional_eq {name : String} {left right : Option Item}
    (same : Relation.optional name (left.map outline) = Relation.optional name (right.map outline))
    (wellFormed : ∀ item ∈ left, WellFormed item)
    (otherWellFormed : ∀ item ∈ right, WellFormed item) : left = right := by
  cases left with
  | none => cases right <;> simp [Relation.optional] at same ⊢
  | some item =>
      cases right with
      | none => cases same
      | some other =>
          have nodes : outline item = outline other := by simpa [Relation.optional] using same
          rw [inj nodes (wellFormed _ rfl) (otherWellFormed _ rfl)]

end

/-- The kind of node that a statement shows as. -/
def Statement.kind : Statement → Outline.Kind
  | .print _ _ => .print
  | .branch _ _ _ => .branch
  | .loop _ _ => .loop
  | .traverse _ _ => .traverse
  | .call _ _ => .subroutineCall
  | .returnScalar _ | .returnRange _ => .returnValue
  | .assignScalar _ _ | .assignCell _ _ | .assignRange _ _ | .assignSheet _ _ => .assignment

theorem Statement.kind_outline (statement : Statement) :
    statement.outline.kind = statement.kind := by
  cases statement with
  | branch _ _ negative => cases negative <;> rfl
  | _ => rfl

theorem Statement.kind_eq_of_outline_eq {left right : Statement}
    (same : left.outline = right.outline) : left.kind = right.kind := by
  rw [← left.kind_outline, same, right.kind_outline]

theorem Statement.outline_branch (condition : Expr) (positive : List Statement)
    (negative : Option (List Statement)) :
    (Statement.branch condition positive negative).outline =
      .node .branch none
        (.child "condition" condition.outline ::
          .children "then_branch" (Statement.outlines positive) ::
            (negative.map fun body =>
              .children "else_branch" (Statement.outlines body)).toList) := by
  cases negative <;> simp [Statement.outline]

mutual

theorem Statement.outline_inj {left right : Statement} (same : left.outline = right.outline)
    (wellFormed : left.WellFormed) (otherWellFormed : right.WellFormed) : left = right := by
  cases left with
  | print info argument =>
      cases right with
      | print =>
          simp only [Statement.outline, Outline.node.injEq, true_and] at same
          obtain ⟨infos, targets⟩ := List.append_inj' same.2 rfl
          have leaves (first second : String)
              (leaf : Outline.leaf .infoString first = .leaf .infoString second)
              (_ : IsInfo first) (_ : IsInfo second) : first = second := Outline.leaf_inj.mp leaf
          simp only [List.cons.injEq, Relation.child.injEq, true_and, and_true] at targets
          rw [eq_of_optional_eq (leaves _ _) infos wellFormed.1 otherWellFormed.1,
            Argument.outline_inj targets wellFormed.2 otherWellFormed.2]
      | _ => cases Statement.kind_eq_of_outline_eq same
  | branch condition positive negative =>
      cases right with
      | branch =>
          simp only [Statement.outline_branch, Outline.node.injEq, List.cons.injEq,
            Relation.child.injEq, Relation.children.injEq, true_and] at same
          obtain ⟨conditions, positives, negatives⟩ := same
          obtain ⟨test, -, first, second⟩ := wellFormed
          obtain ⟨otherTest, -, otherFirst, otherSecond⟩ := otherWellFormed
          rw [Expr.outline_inj conditions test otherTest,
            Statement.outlines_inj positives first otherFirst,
            Statement.else_outlines_inj negatives second otherSecond]
      | _ => cases Statement.kind_eq_of_outline_eq same
  | loop condition body =>
      cases right with
      | loop =>
          simp only [Statement.outline, Outline.node.injEq, List.cons.injEq, Relation.child.injEq,
            Relation.children.injEq, and_true, true_and] at same
          rw [Expr.outline_inj same.1 wellFormed.1 otherWellFormed.1,
            Statement.outlines_inj same.2 wellFormed.2.2 otherWellFormed.2.2]
      | _ => cases Statement.kind_eq_of_outline_eq same
  | traverse ranges body =>
      cases right with
      | traverse =>
          simp only [Statement.outline, Outline.node.injEq, List.cons.injEq,
            Relation.children.injEq, and_true, true_and] at same
          obtain ⟨-, listed, -, repeated⟩ := wellFormed
          obtain ⟨-, otherListed, -, otherRepeated⟩ := otherWellFormed
          rw [eq_of_map_outline_eq RangeExpr.outline_inj same.1 listed otherListed,
            Statement.outlines_inj same.2 repeated otherRepeated]
      | _ => cases Statement.kind_eq_of_outline_eq same
  | call subroutine arguments =>
      cases right with
      | call =>
          simp only [Statement.outline, Outline.node.injEq, Option.some.injEq, List.cons.injEq,
            Relation.children.injEq, and_true, true_and] at same
          rw [same.1, Argument.outlines_inj same.2 wellFormed.2 otherWellFormed.2]
      | _ => cases Statement.kind_eq_of_outline_eq same
  | returnScalar value =>
      cases right with
      | returnScalar =>
          simp only [Statement.outline, Outline.node.injEq, List.cons.injEq, Relation.child.injEq,
            and_true, true_and] at same
          rw [Expr.outline_inj same wellFormed otherWellFormed]
      | returnRange other => simp [Statement.outline, value.outline_ne_range other] at same
      | _ => cases Statement.kind_eq_of_outline_eq same
  | returnRange value =>
      cases right with
      | returnRange =>
          simp only [Statement.outline, Outline.node.injEq, List.cons.injEq, Relation.child.injEq,
            and_true, true_and] at same
          rw [RangeExpr.outline_inj same wellFormed otherWellFormed]
      | returnScalar other =>
          simp [Statement.outline, (other.outline_ne_range value).symm] at same
      | _ => cases Statement.kind_eq_of_outline_eq same
  | assignScalar target value =>
      cases right with
      | assignScalar =>
          simp only [Statement.outline, Outline.node.injEq, List.cons.injEq, Relation.child.injEq,
            Outline.ofName_inj, and_true, true_and] at same
          rw [same.1, Expr.outline_inj same.2 wellFormed.2 otherWellFormed.2]
      | assignRange _ other => simp [Statement.outline, value.outline_ne_range other] at same
      | assignSheet =>
          -- The targets show as the same node, but are names of two families.
          simp only [Statement.outline, Outline.node.injEq, List.cons.injEq, Relation.child.injEq,
            Outline.ofName_inj, and_true, true_and] at same
          rw [same.1] at wellFormed
          exact absurd otherWellFormed.1 (not_isSheetName_of_isScalarName wellFormed.1)
      | assignCell => simp [Statement.outline] at same
      | _ => cases Statement.kind_eq_of_outline_eq same
  | assignCell target value =>
      cases right with
      | assignCell =>
          simp only [Statement.outline, Outline.node.injEq, List.cons.injEq, Relation.child.injEq,
            and_true, true_and] at same
          rw [CellRef.outline_injective same.1,
            Expr.outline_inj same.2 wellFormed.2 otherWellFormed.2]
      | assignScalar | assignRange | assignSheet => simp [Statement.outline] at same
      | _ => cases Statement.kind_eq_of_outline_eq same
  | assignRange target value =>
      cases right with
      | assignRange =>
          simp only [Statement.outline, Outline.node.injEq, List.cons.injEq, Relation.child.injEq,
            Outline.ofName_inj, and_true, true_and] at same
          rw [same.1, RangeExpr.outline_inj same.2 wellFormed.2 otherWellFormed.2]
      | assignScalar _ other =>
          simp [Statement.outline, (other.outline_ne_range value).symm] at same
      | assignSheet => simp [Statement.outline, value.outline_ne_ofName] at same
      | assignCell => simp [Statement.outline] at same
      | _ => cases Statement.kind_eq_of_outline_eq same
  | assignSheet target source =>
      cases right with
      | assignSheet =>
          simp only [Statement.outline, Outline.node.injEq, List.cons.injEq, Relation.child.injEq,
            Outline.ofName_inj, and_true, true_and] at same
          rw [same.1, same.2]
      | assignScalar =>
          simp only [Statement.outline, Outline.node.injEq, List.cons.injEq, Relation.child.injEq,
            Outline.ofName_inj, and_true, true_and] at same
          rw [← same.1] at otherWellFormed
          exact absurd wellFormed.1 (not_isSheetName_of_isScalarName otherWellFormed.1)
      | assignRange _ other =>
          simp [Statement.outline, (other.outline_ne_ofName _).symm] at same
      | assignCell => simp [Statement.outline] at same
      | _ => cases Statement.kind_eq_of_outline_eq same
termination_by structural left

theorem Statement.outlines_inj {left right : List Statement}
    (same : Statement.outlines left = Statement.outlines right)
    (wellFormed : Statement.AllWellFormed left) (otherWellFormed : Statement.AllWellFormed right) :
    left = right := by
  cases left with
  | nil => cases right <;> simp_all [Statement.outlines]
  | cons first others =>
      cases right with
      | nil => cases same
      | cons =>
          simp only [Statement.outlines, List.cons.injEq] at same
          rw [Statement.outline_inj same.1 wellFormed.1 otherWellFormed.1,
            Statement.outlines_inj same.2 wellFormed.2 otherWellFormed.2]
termination_by structural left

theorem Statement.else_outlines_inj {name : String} {left right : Option (List Statement)}
    (same : (left.map fun body => Relation.children name (Statement.outlines body)).toList =
      (right.map fun body => Relation.children name (Statement.outlines body)).toList)
    (wellFormed : Statement.ElseWellFormed left)
    (otherWellFormed : Statement.ElseWellFormed right) : left = right := by
  cases left with
  | none => cases right <;> simp_all
  | some body =>
      cases right with
      | none => cases same
      | some other =>
          have inside : Statement.outlines body = Statement.outlines other := by
            simpa using same
          rw [Statement.outlines_inj inside wellFormed.2 otherWellFormed.2]
termination_by structural left

end

/-! ## Definitions -/

theorem Outline.ofRow_inj {left right : List Expr}
    (same : Outline.ofRow left = Outline.ofRow right)
    (wellFormed : left ≠ [] ∧ ∀ cell ∈ left, Expr.WellFormed cell)
    (otherWellFormed : right ≠ [] ∧ ∀ cell ∈ right, Expr.WellFormed cell) : left = right := by
  simp only [Outline.ofRow, Outline.node.injEq, List.cons.injEq, Relation.children.injEq,
    and_true, true_and] at same
  exact eq_of_map_outline_eq Expr.outline_inj same wellFormed.2 otherWellFormed.2

theorem SheetContents.outline_inj {left right : SheetContents}
    (same : left.outline = right.outline) (wellFormed : left.WellFormed)
    (otherWellFormed : right.WellFormed) : left = right := by
  cases left with
  | rows =>
      cases right with
      | rows =>
          simp only [SheetContents.outline, Outline.node.injEq, List.cons.injEq,
            Relation.children.injEq, and_true, true_and] at same
          rw [eq_of_map_outline_eq Outline.ofRow_inj same wellFormed.2 otherWellFormed.2]
      | size => simp [SheetContents.outline] at same
  | size =>
      cases right with
      | rows => simp [SheetContents.outline] at same
      | size =>
          simp only [SheetContents.outline, Outline.node.injEq, List.cons.injEq,
            Relation.child.injEq, Outline.ofInt64_injective.eq_iff, and_true, true_and] at same
          rw [same.1, same.2]

theorem Variable.outline_inj {left right : Variable} (same : left.outline = right.outline)
    (wellFormed : left.WellFormed) (otherWellFormed : right.WellFormed) : left = right := by
  cases left with
  | scalar =>
      cases right with
      | scalar =>
          simp only [Variable.outline, Outline.node.injEq, Option.some.injEq, true_and] at same
          rw [same.1, eq_of_optional_eq Expr.outline_inj same.2 wellFormed.2 otherWellFormed.2]
      | _ => cases same
  | range =>
      cases right with
      | range =>
          simp only [Variable.outline, Outline.node.injEq, Option.some.injEq, true_and] at same
          rw [same.1,
            eq_of_optional_eq RangeExpr.outline_inj same.2 wellFormed.2 otherWellFormed.2]
      | _ => cases same
  | sheet =>
      cases right with
      | sheet =>
          simp only [Variable.outline, Outline.node.injEq, Option.some.injEq, true_and] at same
          rw [same.1,
            eq_of_optional_eq SheetContents.outline_inj same.2 wellFormed.2 otherWellFormed.2]
      | _ => cases same

theorem Parameter.outline_injective : Function.Injective Parameter.outline := by
  rintro ⟨name, family⟩ ⟨otherName, otherFamily⟩ same
  simp only [Parameter.outline, Outline.node.injEq, Option.some.injEq, List.cons.injEq,
    Relation.child.injEq, Outline.leaf_inj, Family.name_injective.eq_iff, and_true,
    true_and] at same
  rw [same.1, same.2]

theorem Function.outline_inj {left right : Function} (same : left.outline = right.outline)
    (wellFormed : left.WellFormed) (otherWellFormed : right.WellFormed) : left = right := by
  cases left
  cases right
  simp only [Function.outline, Outline.node.injEq, Option.some.injEq, List.cons.injEq,
    Relation.child.injEq, Relation.children.injEq, Outline.leaf_inj,
    ReturnType.name_injective.eq_iff, Parameter.outline_injective.list_map.eq_iff, and_true,
    true_and] at same
  obtain ⟨rfl, rfl, rfl, locals, bodies⟩ := same
  rw [eq_of_map_outline_eq Variable.outline_inj locals wellFormed.locals otherWellFormed.locals,
    Statement.outlines_inj bodies wellFormed.body otherWellFormed.body]

theorem Subroutine.outline_inj {left right : Subroutine} (same : left.outline = right.outline)
    (wellFormed : left.WellFormed) (otherWellFormed : right.WellFormed) : left = right := by
  cases left
  cases right
  simp only [Subroutine.outline, Outline.node.injEq, Option.some.injEq, List.cons.injEq,
    Relation.children.injEq, Parameter.outline_injective.list_map.eq_iff, and_true,
    true_and] at same
  obtain ⟨rfl, rfl, locals, bodies⟩ := same
  rw [eq_of_map_outline_eq Variable.outline_inj locals wellFormed.locals otherWellFormed.locals,
    Statement.outlines_inj bodies wellFormed.body otherWellFormed.body]

theorem Definition.outline_inj {left right : Definition} (same : left.outline = right.outline)
    (wellFormed : left.WellFormed) (otherWellFormed : right.WellFormed) : left = right := by
  cases left with
  | «variable» definition =>
      cases right with
      | «variable» => rw [Variable.outline_inj same wellFormed otherWellFormed]
      | _ => cases definition <;> cases same
  | function =>
      cases right with
      | function => rw [Function.outline_inj same wellFormed otherWellFormed]
      | «variable» definition => cases definition <;> cases same
      | subroutine => cases same
  | subroutine =>
      cases right with
      | subroutine => rw [Subroutine.outline_inj same wellFormed otherWellFormed]
      | «variable» definition => cases definition <;> cases same
      | function => cases same

theorem Program.outline_inj {left right : Program} (same : left.outline = right.outline)
    (wellFormed : left.WellFormed) (otherWellFormed : right.WellFormed) : left = right := by
  cases left
  cases right
  simp only [Program.outline, Outline.node.injEq, List.cons.injEq, Relation.children.injEq,
    and_true, true_and] at same
  rw [eq_of_map_outline_eq Definition.outline_inj same.1 wellFormed.definitions
      otherWellFormed.definitions,
    Statement.outlines_inj same.2 wellFormed.statements otherWellFormed.statements]

/-! ## Programs of sources -/

/-- Two programs of sources are equal exactly if their outlines with plain zeros are the
same, and they are one program exactly if their outlines are the same.  Equality is an
equivalence relation on them.  Of other trees this is not so: the arguments and the
assignments of scalar and of sheet names have the same outlines. -/
theorem Program.outline_faithful :
    (∀ source other left right, Program.ofSource source = .ok left →
      Program.ofSource other = .ok right →
        (left.equals right = true ↔ left.outline.plainZeros = right.outline.plainZeros) ∧
        (left.outline = right.outline ↔ left = right)) ∧
    (Equivalence fun left right : { program // ∃ source, Program.ofSource source = .ok program } =>
      left.1.equals right.1 = true) ∧
    (∀ name, (Argument.scalar (.name name)).outline = (Argument.sheet name).outline) ∧
    ∀ target name, (Statement.assignScalar target (.name name)).outline =
      (Statement.assignSheet target name).outline := by
  refine ⟨?_, ?_, ?_, ?_⟩
  · intro source other left right parsed otherParsed
    have wellFormed := Program.wellFormed_of_ofSource parsed
    have otherWellFormed := Program.wellFormed_of_ofSource otherParsed
    constructor
    · rw [Program.equals_iff, ← left.outline_plainZeros, ← right.outline_plainZeros]
      constructor
      · exact congrArg Program.outline
      · intro same
        exact Program.outline_inj same (left.wellFormed_plainZeros wellFormed)
          (right.wellFormed_plainZeros otherWellFormed)
    · constructor
      · intro same
        exact Program.outline_inj same wellFormed otherWellFormed
      · exact congrArg Program.outline
  · exact Program.equals_equivalence.comap Subtype.val
  · intro name
    simp [Argument.outline, Expr.outline]
  · intro target name
    simp [Statement.outline, Expr.outline]

/-- The two zeros are equal and have different outlines. -/
theorem Program.outline_faithful_zeros :
    Program.ofSource "return 0.0" =
      .ok ⟨[], [.returnScalar (.decimal ⟨false, 0, Nat.zero_le _⟩)]⟩ ∧
    Program.ofSource "return -0.0" =
      .ok ⟨[], [.returnScalar (.decimal ⟨true, 0, Nat.zero_le _⟩)]⟩ ∧
    (Program.outline ⟨[], [.returnScalar (.decimal ⟨false, 0, Nat.zero_le _⟩)]⟩).plainZeros =
      (Program.outline ⟨[], [.returnScalar (.decimal ⟨true, 0, Nat.zero_le _⟩)]⟩).plainZeros ∧
    Program.outline ⟨[], [.returnScalar (.decimal ⟨false, 0, Nat.zero_le _⟩)]⟩ ≠
      Program.outline ⟨[], [.returnScalar (.decimal ⟨true, 0, Nat.zero_le _⟩)]⟩ := by
  have tokens : TokenStream.ofSource "return 0.0" =
      ⟨[⟨.keyword .return, "return", 1⟩, ⟨.decimal, "0.0", 1⟩], none⟩ := by decide
  have signedTokens : TokenStream.ofSource "return -0.0" =
      ⟨[⟨.keyword .return, "return", 1⟩, ⟨.decimal, "-0.0", 1⟩], none⟩ := by decide
  have zero : Binary64.ofLiteral "0.0" = ⟨false, 0, Nat.zero_le _⟩ := by decide +kernel
  have negativeZero : Binary64.ofLiteral "-0.0" = ⟨true, 0, Nat.zero_le _⟩ := by decide +kernel
  have plain : Program.ofSource "return 0.0" =
      .ok ⟨[], [.returnScalar (.decimal ⟨false, 0, Nat.zero_le _⟩)]⟩ := by
    rw [Program.ofSource, tokens, ← zero]
    rfl
  have signed : Program.ofSource "return -0.0" =
      .ok ⟨[], [.returnScalar (.decimal ⟨true, 0, Nat.zero_le _⟩)]⟩ := by
    rw [Program.ofSource, signedTokens, ← negativeZero]
    rfl
  obtain ⟨equal, same⟩ := Program.outline_faithful.1 _ _ _ _ plain signed
  refine ⟨plain, signed, equal.mp ?_, ?_⟩
  · simp [Program.equals, Statement.equalsAll, Statement.equals, Expr.equals, listsAgree,
      Binary64.numEq]
  · intro outlines
    cases same.mp outlines

end SheetLang
