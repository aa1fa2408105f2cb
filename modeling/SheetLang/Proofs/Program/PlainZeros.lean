import SheetLang.Outline.PlainZeros
import SheetLang.Program.Outline
import SheetLang.Program.PlainZeros
import SheetLang.Program.WellFormed
import SheetLang.Proofs.Binary64.Text

/-!
# Programs with plain zeros

The positive zero has a literal, so a well-formed program is well-formed with plain zeros
too.  Its outline is then that of the program with plain zeros, as no other number has the
text of the negative zero.
-/

namespace SheetLang

/-! ## Well-formed trees -/

theorem isDecimal_plainZero {value : Binary64} (decimal : IsDecimal value) :
    IsDecimal value.plainZero := by
  unfold Binary64.plainZero
  split
  · exact ⟨"0.0", by decide, by decide +kernel⟩
  · exact decimal

mutual

theorem Expr.wellFormed_plainZeros (expression : Expr) (wellFormed : expression.WellFormed) :
    expression.plainZeros.WellFormed := by
  cases expression with
  | name | cell => exact wellFormed
  | decimal => exact isDecimal_plainZero wellFormed
  | call _ arguments =>
      exact ⟨wellFormed.1, Argument.allWellFormed_plainZeros arguments wellFormed.2⟩
  | count range => exact range.wellFormed_plainZeros wellFormed
  | binary _ left right =>
      exact ⟨left.wellFormed_plainZeros wellFormed.1, right.wellFormed_plainZeros wellFormed.2⟩
  | negate operand => exact operand.wellFormed_plainZeros wellFormed

theorem RangeExpr.wellFormed_plainZeros (range : RangeExpr) (wellFormed : range.WellFormed) :
    range.plainZeros.WellFormed := by
  cases range with
  | named | span => exact wellFormed
  | call _ arguments =>
      exact ⟨wellFormed.1, Argument.allWellFormed_plainZeros arguments wellFormed.2⟩
  | part range => exact range.wellFormed_plainZeros wellFormed

theorem Argument.wellFormed_plainZeros (argument : Argument) (wellFormed : argument.WellFormed) :
    argument.plainZeros.WellFormed := by
  cases argument with
  | scalar value | range value => exact value.wellFormed_plainZeros wellFormed
  | sheet => exact wellFormed

theorem Argument.allWellFormed_plainZeros (arguments : List Argument)
    (wellFormed : Argument.AllWellFormed arguments) :
    Argument.AllWellFormed (Argument.plainZerosAll arguments) := by
  cases arguments with
  | nil => exact wellFormed
  | cons first others =>
      exact ⟨first.wellFormed_plainZeros wellFormed.1,
        Argument.allWellFormed_plainZeros others wellFormed.2⟩

end

theorem Statement.plainZerosAll_ne_nil {statements : List Statement} (nonempty : statements ≠ []) :
    Statement.plainZerosAll statements ≠ [] := by
  cases statements with
  | nil => exact nonempty
  | cons => exact List.cons_ne_nil _ _

mutual

theorem Statement.wellFormed_plainZeros (statement : Statement)
    (wellFormed : statement.WellFormed) : statement.plainZeros.WellFormed := by
  cases statement with
  | print _ argument => exact ⟨wellFormed.1, argument.wellFormed_plainZeros wellFormed.2⟩
  | branch condition positive negative =>
      obtain ⟨test, nonempty, first, second⟩ := wellFormed
      exact ⟨condition.wellFormed_plainZeros test, Statement.plainZerosAll_ne_nil nonempty,
        Statement.allWellFormed_plainZeros positive first,
        Statement.elseWellFormed_plainZeros negative second⟩
  | loop condition body =>
      obtain ⟨test, nonempty, repeated⟩ := wellFormed
      exact ⟨condition.wellFormed_plainZeros test, Statement.plainZerosAll_ne_nil nonempty,
        Statement.allWellFormed_plainZeros body repeated⟩
  | traverse ranges body =>
      obtain ⟨some, listed, nonempty, repeated⟩ := wellFormed
      have plain : ∀ range ∈ ranges.map RangeExpr.plainZeros, range.WellFormed := by
        refine List.forall_mem_map.mpr ?_
        intro range member
        exact range.wellFormed_plainZeros (listed range member)
      exact ⟨mt List.map_eq_nil_iff.mp some, plain, Statement.plainZerosAll_ne_nil nonempty,
        Statement.allWellFormed_plainZeros body repeated⟩
  | call _ arguments =>
      exact ⟨wellFormed.1, Argument.allWellFormed_plainZeros arguments wellFormed.2⟩
  | returnScalar value | returnRange value => exact value.wellFormed_plainZeros wellFormed
  | assignScalar _ value | assignCell _ value | assignRange _ value =>
      exact ⟨wellFormed.1, value.wellFormed_plainZeros wellFormed.2⟩
  | assignSheet => exact wellFormed

theorem Statement.allWellFormed_plainZeros (statements : List Statement)
    (wellFormed : Statement.AllWellFormed statements) :
    Statement.AllWellFormed (Statement.plainZerosAll statements) := by
  cases statements with
  | nil => exact wellFormed
  | cons first others =>
      exact ⟨first.wellFormed_plainZeros wellFormed.1,
        Statement.allWellFormed_plainZeros others wellFormed.2⟩

theorem Statement.elseWellFormed_plainZeros (negative : Option (List Statement))
    (wellFormed : Statement.ElseWellFormed negative) :
    Statement.ElseWellFormed (Statement.plainZerosElse negative) := by
  cases negative with
  | none => exact wellFormed
  | some body =>
      exact ⟨Statement.plainZerosAll_ne_nil wellFormed.1,
        Statement.allWellFormed_plainZeros body wellFormed.2⟩

end

theorem SheetContents.wellFormed_plainZeros (contents : SheetContents)
    (wellFormed : contents.WellFormed) : contents.plainZeros.WellFormed := by
  cases contents with
  | rows cells =>
      refine ⟨mt List.map_eq_nil_iff.mp wellFormed.1, List.forall_mem_map.mpr ?_⟩
      intro row listed
      obtain ⟨nonempty, inside⟩ := wellFormed.2 row listed
      refine ⟨mt List.map_eq_nil_iff.mp nonempty, List.forall_mem_map.mpr ?_⟩
      intro cell member
      exact cell.wellFormed_plainZeros (inside cell member)
  | size => exact wellFormed

theorem Variable.wellFormed_plainZeros (definition : Variable)
    (wellFormed : definition.WellFormed) : definition.plainZeros.WellFormed := by
  cases definition with
  | scalar | range | sheet =>
      refine ⟨wellFormed.1, ?_⟩
      intro plain member
      obtain ⟨value, given, rfl⟩ := Option.map_eq_some_iff.mp member
      exact value.wellFormed_plainZeros (wellFormed.2 value given)

theorem Definition.wellFormed_plainZeros (definition : Definition)
    (wellFormed : definition.WellFormed) : definition.plainZeros.WellFormed := by
  cases definition with
  | «variable» definition => exact definition.wellFormed_plainZeros wellFormed
  | function =>
      obtain ⟨name, parameters, locals, nonempty, body⟩ := wellFormed
      refine ⟨name, parameters, List.forall_mem_map.mpr ?_,
        Statement.plainZerosAll_ne_nil nonempty, Statement.allWellFormed_plainZeros _ body⟩
      intro definition member
      exact definition.wellFormed_plainZeros (locals definition member)
  | subroutine =>
      obtain ⟨name, parameters, locals, nonempty, body⟩ := wellFormed
      refine ⟨name, parameters, List.forall_mem_map.mpr ?_,
        Statement.plainZerosAll_ne_nil nonempty, Statement.allWellFormed_plainZeros _ body⟩
      intro definition member
      exact definition.wellFormed_plainZeros (locals definition member)

theorem Program.wellFormed_plainZeros (program : Program) (wellFormed : program.WellFormed) :
    program.plainZeros.WellFormed := by
  refine ⟨List.forall_mem_map.mpr ?_, Statement.plainZerosAll_ne_nil wellFormed.nonempty,
    Statement.allWellFormed_plainZeros _ wellFormed.statements⟩
  intro definition member
  exact definition.wellFormed_plainZeros (wellFormed.definitions definition member)

/-! ## Outlines -/

theorem Binary64.plainValue_render (number : Binary64) :
    Outline.plainValue .decimal (some number.render) = some number.plainZero.render := by
  have negativeZero : render ⟨true, 0, Nat.zero_le _⟩ = "-0.0" := by decide
  have zero : render ⟨false, 0, Nat.zero_le _⟩ = "0.0" := by decide
  obtain ⟨sign, rank, bounded⟩ := number
  by_cases nothing : rank = 0
  · subst nothing
    cases sign <;> simp [Outline.plainValue, plainZero, negativeZero, zero]
  · have other : render ⟨sign, rank, bounded⟩ ≠ "-0.0" := by
      intro same
      apply nothing
      exact congrArg Binary64.rank (render_injective (same.trans negativeZero.symm))
    simp [Outline.plainValue, plainZero, nothing, other]

@[simp] theorem Outline.plainZeros_ofName (name : String) :
    (Outline.ofName name).plainZeros = .ofName name :=
  Outline.plainZeros_leaf (by simp) name

@[simp] theorem Outline.plainZeros_ofInt64 (number : Int64) :
    (Outline.ofInt64 number).plainZeros = .ofInt64 number :=
  Outline.plainZeros_leaf (by simp) _

@[simp] theorem CellRef.plainZeros_outline (cell : CellRef) :
    cell.outline.plainZeros = cell.outline := by
  cases cell <;> simp [CellRef.outline]

mutual

theorem Expr.outline_plainZeros (expression : Expr) :
    expression.plainZeros.outline = expression.outline.plainZeros := by
  cases expression with
  | name => simp [Expr.plainZeros, Expr.outline]
  | decimal value =>
      simp [Expr.plainZeros, Expr.outline, Outline.leaf, Outline.plainZeros,
        value.plainValue_render]
  | call _ arguments =>
      simp [Expr.plainZeros, Expr.outline, Argument.outlines_plainZeros arguments]
  | cell => simp [Expr.plainZeros, Expr.outline]
  | count range => simp [Expr.plainZeros, Expr.outline, range.outline_plainZeros]
  | binary _ left right =>
      simp [Expr.plainZeros, Expr.outline, left.outline_plainZeros, right.outline_plainZeros]
  | negate operand => simp [Expr.plainZeros, Expr.outline, operand.outline_plainZeros]

theorem RangeExpr.outline_plainZeros (range : RangeExpr) :
    range.plainZeros.outline = range.outline.plainZeros := by
  cases range with
  | named | span => simp [RangeExpr.plainZeros, RangeExpr.outline]
  | call _ arguments =>
      simp [RangeExpr.plainZeros, RangeExpr.outline, Argument.outlines_plainZeros arguments]
  | part range => simp [RangeExpr.plainZeros, RangeExpr.outline, range.outline_plainZeros]

theorem Argument.outline_plainZeros (argument : Argument) :
    argument.plainZeros.outline = argument.outline.plainZeros := by
  cases argument with
  | scalar value | range value =>
      simp [Argument.plainZeros, Argument.outline, value.outline_plainZeros]
  | sheet => simp [Argument.plainZeros, Argument.outline]

theorem Argument.outlines_plainZeros (arguments : List Argument) :
    Argument.outlines (Argument.plainZerosAll arguments) =
      Outline.plainZerosAll (Argument.outlines arguments) := by
  cases arguments with
  | nil => simp [Argument.plainZerosAll, Argument.outlines]
  | cons first others =>
      simp [Argument.plainZerosAll, Argument.outlines, first.outline_plainZeros,
        Argument.outlines_plainZeros others]

end

theorem outlines_map_plainZeros {Item : Type} {outline : Item → Outline} {plain : Item → Item}
    (outlined : ∀ item, outline (plain item) = (outline item).plainZeros) (items : List Item) :
    (items.map plain).map outline = Outline.plainZerosAll (items.map outline) := by
  simp [Outline.plainZerosAll_eq_map, outlined]

theorem optional_plainZeros {Item : Type} {outline : Item → Outline} {plain : Item → Item}
    (outlined : ∀ item, outline (plain item) = (outline item).plainZeros) (name : String)
    (item : Option Item) :
    Relation.optional name ((item.map plain).map outline) =
      Relation.plainZerosAll (Relation.optional name (item.map outline)) := by
  cases item <;> simp [Relation.optional, outlined]

theorem Relation.plainZerosAll_append (front back : List Relation) :
    Relation.plainZerosAll (front ++ back) =
      Relation.plainZerosAll front ++ Relation.plainZerosAll back := by
  induction front with
  | nil => rfl
  | cons relation front induction => simp [induction]

@[simp] theorem Argument.family_plainZeros (argument : Argument) :
    argument.plainZeros.family = argument.family := by
  cases argument <;> simp [Argument.plainZeros, Argument.family]

mutual

theorem Statement.outline_plainZeros (statement : Statement) :
    statement.plainZeros.outline = statement.outline.plainZeros := by
  cases statement with
  | print info argument =>
      have infos : Relation.plainZerosAll
          (Relation.optional "info" (info.map (Outline.leaf .infoString))) =
            Relation.optional "info" (info.map (Outline.leaf .infoString)) := by
        cases info <;> simp [Relation.optional]
      simp [Statement.plainZeros, Statement.outline, argument.outline_plainZeros, infos,
        Relation.plainZerosAll_append]
  | branch condition positive negative =>
      cases negative with
      | none =>
          simp [Statement.plainZeros, Statement.plainZerosElse, Statement.outline,
            condition.outline_plainZeros, Statement.outlines_plainZeros positive]
      | some negative =>
          simp [Statement.plainZeros, Statement.plainZerosElse, Statement.outline,
            condition.outline_plainZeros, Statement.outlines_plainZeros positive,
            Statement.outlines_plainZeros negative]
  | loop condition body =>
      simp [Statement.plainZeros, Statement.outline, condition.outline_plainZeros,
        Statement.outlines_plainZeros body]
  | traverse ranges body =>
      have listed := outlines_map_plainZeros RangeExpr.outline_plainZeros ranges
      simp only [Statement.plainZeros, Statement.outline, listed,
        Statement.outlines_plainZeros body]
      simp
  | call _ arguments =>
      simp [Statement.plainZeros, Statement.outline, Argument.outlines_plainZeros]
  | returnScalar value | returnRange value | assignScalar _ value | assignCell _ value
    | assignRange _ value =>
      simp [Statement.plainZeros, Statement.outline, value.outline_plainZeros]
  | assignSheet => simp [Statement.plainZeros, Statement.outline]

theorem Statement.outlines_plainZeros (statements : List Statement) :
    Statement.outlines (Statement.plainZerosAll statements) =
      Outline.plainZerosAll (Statement.outlines statements) := by
  cases statements with
  | nil => simp [Statement.plainZerosAll, Statement.outlines]
  | cons first others =>
      simp [Statement.plainZerosAll, Statement.outlines, first.outline_plainZeros,
        Statement.outlines_plainZeros others]

end

theorem Outline.ofRow_plainZeros (cells : List Expr) :
    Outline.ofRow (cells.map Expr.plainZeros) = (Outline.ofRow cells).plainZeros := by
  rw [Outline.ofRow, outlines_map_plainZeros Expr.outline_plainZeros]
  simp [Outline.ofRow]

theorem SheetContents.outline_plainZeros (contents : SheetContents) :
    contents.plainZeros.outline = contents.outline.plainZeros := by
  cases contents with
  | rows cells =>
      have listed := outlines_map_plainZeros Outline.ofRow_plainZeros cells
      simp only [SheetContents.plainZeros, SheetContents.outline, listed]
      simp
  | size => simp [SheetContents.plainZeros, SheetContents.outline]

theorem Variable.outline_plainZeros (definition : Variable) :
    definition.plainZeros.outline = definition.outline.plainZeros := by
  cases definition with
  | scalar _ value =>
      have values := optional_plainZeros Expr.outline_plainZeros "value" value
      simp only [Variable.plainZeros, Variable.outline, values]
      simp
  | range _ value =>
      have values := optional_plainZeros RangeExpr.outline_plainZeros "value" value
      simp only [Variable.plainZeros, Variable.outline, values]
      simp
  | sheet _ contents =>
      have starts := optional_plainZeros SheetContents.outline_plainZeros "init" contents
      simp only [Variable.plainZeros, Variable.outline, starts]
      simp

@[simp] theorem Parameter.plainZerosAll_outlines (parameters : List Parameter) :
    Outline.plainZerosAll (parameters.map Parameter.outline) =
      parameters.map Parameter.outline := by
  simp [Outline.plainZerosAll_eq_map, Parameter.outline]

theorem Definition.outline_plainZeros (definition : Definition) :
    definition.plainZeros.outline = definition.outline.plainZeros := by
  cases definition with
  | «variable» definition => exact definition.outline_plainZeros
  | function function =>
      have locals := outlines_map_plainZeros Variable.outline_plainZeros function.locals
      simp only [Definition.plainZeros, Definition.outline, Function.plainZeros, Function.outline,
        locals, Statement.outlines_plainZeros]
      simp
  | subroutine subroutine =>
      have locals := outlines_map_plainZeros Variable.outline_plainZeros subroutine.locals
      simp only [Definition.plainZeros, Definition.outline, Subroutine.plainZeros,
        Subroutine.outline, locals, Statement.outlines_plainZeros]
      simp

theorem Program.outline_plainZeros (program : Program) :
    program.plainZeros.outline = program.outline.plainZeros := by
  have definitions := outlines_map_plainZeros Definition.outline_plainZeros program.definitions
  simp only [Program.plainZeros, Program.outline, definitions, Statement.outlines_plainZeros]
  simp

end SheetLang
