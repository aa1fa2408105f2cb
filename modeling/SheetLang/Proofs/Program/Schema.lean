import SheetLang.Outline.Schema
import SheetLang.Proofs.Outline.Paths
import SheetLang.Proofs.Program.Faithfulness
import SheetLang.Proofs.Program.Image

/-!
# Outlines of programs obey the schema

Which relations a node has, and to what, is seen from the tree alone.  That lists of
statements, rows, cells and ranges are not empty comes from the grammar, by way of
well-formed programs.
-/

namespace SheetLang

open Outline

/-! ## Kinds -/

theorem Expr.kind_outline_mem (expression : Expr) :
    expression.outline.kind ∈ Outline.Kind.expressions := by
  cases expression <;>
    simp [Expr.outline, CellRef.outline, Outline.kind, Outline.leaf, Outline.ofName,
      Outline.Kind.expressions]

theorem RangeExpr.kind_outline_mem_singleton (range : RangeExpr) :
    range.outline.kind ∈ [Outline.Kind.rangeExpression] :=
  List.mem_singleton.mpr range.kind_outline

theorem Argument.kind_outline_mem (argument : Argument) :
    argument.outline.kind ∈ Outline.Kind.values := by
  cases argument with
  | scalar value => exact List.mem_cons_of_mem _ value.kind_outline_mem
  | range value => exact List.mem_cons.mpr (.inl value.kind_outline)
  | sheet name => exact List.mem_cons_of_mem _ List.mem_cons_self

theorem Statement.kind_outline_mem (statement : Statement) :
    statement.outline.kind ∈ Outline.Kind.statements := by
  rw [statement.kind_outline]
  cases statement <;> simp [Statement.kind, Outline.Kind.statements]

theorem Variable.kind_outline_mem (definition : Variable) :
    definition.outline.kind ∈ Outline.Kind.variableDefinitions := by
  cases definition <;>
    simp [Variable.outline, Outline.kind, Outline.Kind.variableDefinitions]

theorem Definition.kind_outline_mem (definition : Definition) :
    definition.outline.kind ∈ Outline.Kind.definitions := by
  cases definition with
  | «variable» definition =>
      exact List.mem_cons_of_mem _ (List.mem_cons_of_mem _ definition.kind_outline_mem)
  | function => exact List.mem_cons_self
  | subroutine => exact List.mem_cons_of_mem _ List.mem_cons_self

theorem forall_mem_map_kind {Item : Type} {view : Item → Outline} {kinds : List Outline.Kind}
    (shown : ∀ item, (view item).kind ∈ kinds) (items : List Item) :
    ∀ node ∈ items.map view, node.kind ∈ kinds := by
  intro node member
  obtain ⟨item, -, rfl⟩ := List.mem_map.mp member
  exact shown item

/-! ## Expressions -/

@[simp] theorem Relation.optional_none (name : String) : Relation.optional name none = [] := rfl

@[simp] theorem Relation.optional_some (name : String) (node : Outline) :
    Relation.optional name (some node) = [.child name node] := rfl

theorem Outline.obeys_leaf {kind : Outline.Kind} (value : String)
    (plain : kind.forms = [⟨true, []⟩]) : (Outline.leaf kind value).Obeys := by
  refine obeys_node.mpr ⟨⟨⟨true, []⟩, ?_, rfl, .nil⟩, by simp⟩
  rw [Outline.kind, plain]
  exact List.mem_cons_self

@[simp] theorem Outline.obeys_ofName (name : String) : (Outline.ofName name).Obeys :=
  obeys_leaf name rfl

@[simp] theorem Outline.obeys_ofInt64 (number : Int64) : (Outline.ofInt64 number).Obeys :=
  obeys_leaf _ rfl

@[simp] theorem CellRef.obeys_outline (cell : CellRef) : cell.outline.Obeys := by
  refine obeys_node.mpr ?_
  cases cell with
  | inSheet => exact ⟨⟨_, .head _, rfl, .cons ⟨rfl, .head _⟩ (.cons ⟨rfl, .head _⟩ .nil)⟩, by simp⟩
  | currentIn => exact ⟨⟨_, .tail _ (.head _), rfl, .cons ⟨rfl, .head _⟩ .nil⟩, by simp⟩
  | current => exact ⟨⟨_, .tail _ (.tail _ (.head _)), rfl, .nil⟩, by simp⟩

mutual

-- In each case the form comes first, by its place among the forms of the kind, and then
-- what is known of its relations, in order.
theorem Expr.obeys_outline (expression : Expr) : expression.outline.Obeys := by
  cases expression with
  | name name => exact obeys_ofName name
  | decimal value => exact obeys_leaf _ rfl
  | call function arguments =>
      refine obeys_node.mpr ⟨⟨_, .head _, rfl, .cons ⟨rfl, ?_⟩ .nil⟩, ?_⟩
      · rw [Argument.outlines_eq_map]
        exact forall_mem_map_kind Argument.kind_outline_mem arguments
      · simpa using Argument.obeys_outlines arguments
  | cell cell => exact cell.obeys_outline
  | count range =>
      have below := range.obeys_outline
      refine obeys_node.mpr ⟨⟨_, .head _, rfl, ?_⟩, by simpa using below⟩
      exact .cons ⟨rfl, range.kind_outline_mem_singleton⟩ .nil
  | binary operator left right =>
      have sign : (Outline.leaf .operator operator.text).Obeys := obeys_leaf _ rfl
      have first := left.obeys_outline
      have second := right.obeys_outline
      refine obeys_node.mpr ⟨⟨_, .head _, rfl, ?_⟩, by simp [sign, first, second]⟩
      exact .cons ⟨rfl, .head _⟩ (.cons ⟨rfl, left.kind_outline_mem⟩
        (.cons ⟨rfl, right.kind_outline_mem⟩ .nil))
  | negate operand =>
      have sign : (Outline.leaf .operator "-").Obeys := obeys_leaf _ rfl
      have below := operand.obeys_outline
      refine obeys_node.mpr ⟨⟨_, .head _, rfl, ?_⟩, by simp [sign, below]⟩
      exact .cons ⟨rfl, .head _⟩ (.cons ⟨rfl, operand.kind_outline_mem⟩ .nil)

theorem RangeExpr.obeys_outline (range : RangeExpr) : range.outline.Obeys := by
  cases range with
  | named name => exact obeys_node.mpr ⟨⟨_, .head _, rfl, .nil⟩, by simp⟩
  | span first last =>
      refine obeys_node.mpr ⟨⟨_, .tail _ (.head _), rfl, ?_⟩, by simp⟩
      exact .cons ⟨rfl, .head _⟩ (.cons ⟨rfl, .head _⟩ .nil)
  | call function arguments =>
      have call := (Expr.call function arguments).obeys_outline
      refine obeys_node.mpr ⟨⟨_, .tail _ (.tail _ (.head _)), rfl, ?_⟩, ?_⟩
      · exact .cons ⟨rfl, .head _⟩ .nil
      · exact List.forall_mem_singleton.mpr call
  | part range column row =>
      have below := range.obeys_outline
      refine obeys_node.mpr
        ⟨⟨_, .tail _ (.tail _ (.tail _ (.head _))), rfl, ?_⟩, by simpa using below⟩
      exact .cons ⟨rfl, range.kind_outline_mem_singleton⟩
        (.cons ⟨rfl, .head _⟩ (.cons ⟨rfl, .head _⟩ .nil))

theorem Argument.obeys_outline (argument : Argument) : argument.outline.Obeys := by
  cases argument with
  | scalar value => exact value.obeys_outline
  | range value => exact value.obeys_outline
  | sheet name => exact obeys_ofName name

theorem Argument.obeys_outlines (arguments : List Argument) :
    ∀ node ∈ Argument.outlines arguments, node.Obeys := by
  cases arguments with
  | nil => simp [Argument.outlines]
  | cons argument others =>
      exact List.forall_mem_cons.mpr ⟨argument.obeys_outline, Argument.obeys_outlines others⟩

end

/-! ## Statements -/

theorem Statement.outlines_ne_nil {statements : List Statement} (nonempty : statements ≠ []) :
    Statement.outlines statements ≠ [] := by
  simpa [Statement.outlines_eq_map] using nonempty

theorem Statement.forall_mem_outlines_kind (statements : List Statement) :
    ∀ node ∈ Statement.outlines statements, node.kind ∈ Outline.Kind.statements := by
  rw [Statement.outlines_eq_map]
  exact forall_mem_map_kind Statement.kind_outline_mem statements

/-- Statements that are listed are of fitting kinds, and there are some. -/
theorem Statement.fits_outlines (name : String) {statements : List Statement}
    (nonempty : statements ≠ []) :
    (Slot.atLeastOne name Outline.Kind.statements).Fits
      (.children name (Statement.outlines statements)) :=
  ⟨rfl, Statement.outlines_ne_nil nonempty, Statement.forall_mem_outlines_kind statements⟩

theorem Argument.fits_outlines (name : String) (arguments : List Argument) :
    (Slot.any name Outline.Kind.values).Fits (.children name (Argument.outlines arguments)) := by
  refine ⟨rfl, ?_⟩
  rw [Argument.outlines_eq_map]
  exact forall_mem_map_kind Argument.kind_outline_mem arguments

mutual

theorem Statement.obeys_outline (statement : Statement) (wellFormed : statement.WellFormed) :
    statement.outline.Obeys := by
  cases statement with
  | print info argument =>
      have shown := argument.obeys_outline
      have kind := argument.kind_outline_mem
      cases info with
      | none =>
          refine obeys_node.mpr ⟨⟨_, .head _, rfl, ?_⟩, List.forall_mem_singleton.mpr shown⟩
          exact .cons ⟨rfl, kind⟩ .nil
      | some text =>
          have leaf : (Outline.leaf .infoString text).Obeys := obeys_leaf text rfl
          refine obeys_node.mpr ⟨⟨_, .tail _ (.head _), rfl, ?_⟩,
            by simpa using ⟨leaf, shown⟩⟩
          exact .cons ⟨rfl, .head _⟩ (.cons ⟨rfl, kind⟩ .nil)
  | branch condition positive negative =>
      obtain ⟨-, nonempty, first, second⟩ := wellFormed
      have test := condition.obeys_outline
      have kind := condition.kind_outline_mem
      have then_branch := Statement.obeys_outlines positive first
      cases negative with
      | none =>
          refine obeys_node.mpr ⟨⟨_, .head _, rfl, ?_⟩, by simpa [test] using then_branch⟩
          exact .cons ⟨rfl, kind⟩ (.cons (Statement.fits_outlines _ nonempty) .nil)
      | some negative =>
          have else_branch := Statement.obeys_outlines negative second.2
          refine obeys_node.mpr ⟨⟨_, .tail _ (.head _), rfl, ?_⟩,
            by simpa [test] using ⟨then_branch, else_branch⟩⟩
          exact .cons ⟨rfl, kind⟩ (.cons (Statement.fits_outlines _ nonempty)
            (.cons (Statement.fits_outlines _ second.1) .nil))
  | loop condition body =>
      obtain ⟨-, nonempty, repeated⟩ := wellFormed
      have test := condition.obeys_outline
      have below := Statement.obeys_outlines body repeated
      refine obeys_node.mpr ⟨⟨_, .head _, rfl, ?_⟩, by simpa [test] using below⟩
      exact .cons ⟨rfl, condition.kind_outline_mem⟩
        (.cons (Statement.fits_outlines _ nonempty) .nil)
  | traverse ranges body =>
      obtain ⟨listed, -, nonempty, repeated⟩ := wellFormed
      have each := RangeExpr.obeys_outline
      have below := Statement.obeys_outlines body repeated
      refine obeys_node.mpr ⟨⟨_, .head _, rfl, ?_⟩, by simpa [each] using below⟩
      refine .cons ⟨rfl, by simpa using listed, ?_⟩
        (.cons (Statement.fits_outlines _ nonempty) .nil)
      exact forall_mem_map_kind RangeExpr.kind_outline_mem_singleton ranges
  | call subroutine arguments =>
      have below := Argument.obeys_outlines arguments
      refine obeys_node.mpr ⟨⟨_, .head _, rfl, ?_⟩, by simpa using below⟩
      exact .cons (Argument.fits_outlines _ arguments) .nil
  | returnScalar value =>
      have kind := (Argument.scalar value).kind_outline_mem
      have below := value.obeys_outline
      exact obeys_node.mpr ⟨⟨_, .head _, rfl, .cons ⟨rfl, kind⟩ .nil⟩, by simpa using below⟩
  | returnRange value =>
      have kind := (Argument.range value).kind_outline_mem
      have below := value.obeys_outline
      exact obeys_node.mpr ⟨⟨_, .head _, rfl, .cons ⟨rfl, kind⟩ .nil⟩, by simpa using below⟩
  | assignScalar target value =>
      have kind := (Argument.scalar value).kind_outline_mem
      have below := value.obeys_outline
      refine obeys_node.mpr ⟨⟨_, .head _, rfl, ?_⟩, by simp [below]⟩
      exact .cons ⟨rfl, .head _⟩ (.cons ⟨rfl, kind⟩ .nil)
  | assignCell target value =>
      have below := value.obeys_outline
      refine obeys_node.mpr ⟨⟨_, .tail _ (.head _), rfl, ?_⟩, by simp [below]⟩
      exact .cons ⟨rfl, .head _⟩ (.cons ⟨rfl, value.kind_outline_mem⟩ .nil)
  | assignRange target value =>
      have kind := (Argument.range value).kind_outline_mem
      have below := value.obeys_outline
      refine obeys_node.mpr ⟨⟨_, .head _, rfl, ?_⟩, by simp [below]⟩
      exact .cons ⟨rfl, .head _⟩ (.cons ⟨rfl, kind⟩ .nil)
  | assignSheet target source =>
      have kind := (Argument.sheet source).kind_outline_mem
      refine obeys_node.mpr ⟨⟨_, .head _, rfl, ?_⟩, by simp⟩
      exact .cons ⟨rfl, .head _⟩ (.cons ⟨rfl, kind⟩ .nil)

theorem Statement.obeys_outlines (statements : List Statement)
    (wellFormed : Statement.AllWellFormed statements) :
    ∀ node ∈ Statement.outlines statements, node.Obeys := by
  cases statements with
  | nil => simp [Statement.outlines]
  | cons statement others =>
      have first := statement.obeys_outline wellFormed.1
      exact List.forall_mem_cons.mpr ⟨first, Statement.obeys_outlines others wellFormed.2⟩

end

/-! ## Definitions -/

theorem Outline.obeys_ofRow {cells : List Expr} (nonempty : cells ≠ []) :
    (Outline.ofRow cells).Obeys := by
  refine obeys_node.mpr ⟨⟨_, .head _, rfl, .cons ⟨rfl, ?_, ?_⟩ .nil⟩, ?_⟩
  · simpa using nonempty
  · exact forall_mem_map_kind Expr.kind_outline_mem cells
  · simp [Expr.obeys_outline]

theorem SheetContents.obeys_outline {contents : SheetContents}
    (wellFormed : contents.WellFormed) : contents.outline.Obeys := by
  cases contents with
  | rows table =>
      obtain ⟨nonempty, rows⟩ := wellFormed
      refine obeys_node.mpr ⟨⟨_, .head _, rfl, .cons ⟨rfl, ?_, ?_⟩ .nil⟩, ?_⟩
      · simpa using nonempty
      · exact @forall_mem_map_kind _ Outline.ofRow _ (fun _ => .head _) table
      · simpa using fun row member => obeys_ofRow (rows row member).1
  | size width height =>
      refine obeys_node.mpr ⟨⟨_, .tail _ (.head _), rfl, ?_⟩, by simp⟩
      exact .cons ⟨rfl, .head _⟩ (.cons ⟨rfl, .head _⟩ .nil)

/-- A node with a relation that may be absent. -/
theorem Outline.obeys_optional {kind : Outline.Kind} {name : String} {kinds : List Outline.Kind}
    (label : String) (value : Option Outline)
    (forms : kind.forms = [⟨true, []⟩, ⟨true, [.one name kinds]⟩])
    (fits : ∀ node ∈ value, node.kind ∈ kinds ∧ node.Obeys) :
    (Outline.node kind (some label) (Relation.optional name value)).Obeys := by
  refine obeys_node.mpr ?_
  rw [Outline.Conforms, Outline.kind, forms]
  cases value with
  | none => exact ⟨⟨_, .head _, rfl, .nil⟩, by simp⟩
  | some node =>
      obtain ⟨fitting, below⟩ := fits node rfl
      exact ⟨⟨_, .tail _ (.head _), rfl, .cons ⟨rfl, fitting⟩ .nil⟩, by simpa using below⟩

theorem Variable.obeys_outline {definition : Variable} (wellFormed : definition.WellFormed) :
    definition.outline.Obeys := by
  cases definition with
  | scalar name value =>
      refine obeys_optional name _ rfl ?_
      simpa using fun expression _ => ⟨expression.kind_outline_mem, expression.obeys_outline⟩
  | range name value =>
      refine obeys_optional name _ rfl ?_
      simpa using fun range _ => ⟨range.kind_outline, range.obeys_outline⟩
  | sheet name contents =>
      refine obeys_optional name _ rfl ?_
      intro node shown
      obtain ⟨start, given, rfl⟩ := Option.map_eq_some_iff.mp shown
      refine ⟨?_, SheetContents.obeys_outline (wellFormed.2 start given)⟩
      cases start <;> exact .head _

theorem Parameter.obeys_outline (parameter : Parameter) : parameter.outline.Obeys := by
  have family : (Outline.leaf .typeName parameter.family.name).Obeys := obeys_leaf _ rfl
  refine obeys_node.mpr ⟨⟨_, .head _, rfl, ?_⟩, by simpa using family⟩
  exact .cons ⟨rfl, .head _⟩ .nil

theorem Parameter.fits_outlines (name : String) (parameters : List Parameter) :
    (Slot.any name [.formalArg]).Fits (.children name (parameters.map Parameter.outline)) :=
  ⟨rfl, @forall_mem_map_kind _ Parameter.outline _ (fun _ => .head _) parameters⟩

theorem Variable.fits_outlines (name : String) (definitions : List Variable) :
    (Slot.any name Outline.Kind.variableDefinitions).Fits
      (.children name (definitions.map Variable.outline)) :=
  ⟨rfl, forall_mem_map_kind Variable.kind_outline_mem definitions⟩

theorem Function.obeys_outline {function : Function} (wellFormed : function.WellFormed) :
    function.outline.Obeys := by
  have family : (Outline.leaf .typeName function.returnType.name).Obeys := obeys_leaf _ rfl
  have statements := Statement.obeys_outlines function.body wellFormed.body
  refine obeys_node.mpr ⟨⟨_, .head _, rfl, ?_⟩, ?_⟩
  · exact .cons (Parameter.fits_outlines _ _) (.cons ⟨rfl, .head _⟩
      (.cons (Variable.fits_outlines _ _)
        (.cons (Statement.fits_outlines _ wellFormed.nonempty) .nil)))
  · simp only [List.forall_mem_cons, Relation.obeys_children, Relation.obeys_child,
      List.forall_mem_map]
    refine ⟨fun parameter _ => parameter.obeys_outline, family, ?_, statements, by simp⟩
    exact fun definition member => Variable.obeys_outline (wellFormed.locals definition member)

theorem Subroutine.obeys_outline {subroutine : Subroutine}
    (wellFormed : subroutine.WellFormed) : subroutine.outline.Obeys := by
  have statements := Statement.obeys_outlines subroutine.body wellFormed.body
  refine obeys_node.mpr ⟨⟨_, .head _, rfl, ?_⟩, ?_⟩
  · exact .cons (Parameter.fits_outlines _ _) (.cons (Variable.fits_outlines _ _)
      (.cons (Statement.fits_outlines _ wellFormed.nonempty) .nil))
  · simp only [List.forall_mem_cons, Relation.obeys_children, List.forall_mem_map]
    refine ⟨fun parameter _ => parameter.obeys_outline, ?_, statements, by simp⟩
    exact fun definition member => Variable.obeys_outline (wellFormed.locals definition member)

theorem Definition.obeys_outline {definition : Definition}
    (wellFormed : definition.WellFormed) : definition.outline.Obeys := by
  cases definition with
  | «variable» definition => exact Variable.obeys_outline wellFormed
  | function definition => exact Function.obeys_outline wellFormed
  | subroutine definition => exact Subroutine.obeys_outline wellFormed

theorem Program.obeys_outline {program : Program} (wellFormed : program.WellFormed) :
    program.outline.Obeys := by
  have statements := Statement.obeys_outlines program.statements wellFormed.statements
  refine obeys_node.mpr ⟨⟨_, .head _, rfl, ?_⟩, ?_⟩
  · refine .cons ⟨rfl, ?_⟩ (.cons (Statement.fits_outlines _ wellFormed.nonempty) .nil)
    exact forall_mem_map_kind Definition.kind_outline_mem program.definitions
  · simp only [List.forall_mem_cons, Relation.obeys_children, List.forall_mem_map]
    refine ⟨?_, statements, by simp⟩
    exact fun definition member =>
      Definition.obeys_outline (wellFormed.definitions definition member)

/-- Every node of the outline of a program has one of the forms of its kind, its relations
are found by their names, and there is one path to it. -/
theorem Program.outline_conforms {source : String} {program : Program}
    (parsed : Program.ofSource source = .ok program) :
    (∀ node ∈ program.outline.preorder,
      node.Conforms ∧ (node.relations.map Relation.name).Nodup ∧
        ∀ relation ∈ node.relations, node.Finds relation) ∧
      program.outline.paths.Nodup ∧
      program.outline.paths.map program.outline.follow? =
        program.outline.preorder.map some ∧
      ∀ path node, program.outline.follow? path = some node →
        path ∈ program.outline.paths := by
  have obeys := Program.obeys_outline (Program.wellFormed_of_ofSource parsed)
  have distinct : program.outline.Distinct := fun node member => (obeys node member).nodup
  refine ⟨?_, Outline.nodup_paths _ distinct, Outline.follow?_paths _ distinct, ?_⟩
  · intro node member
    have own := distinct node member
    exact ⟨obeys node member, own, fun relation listed => finds_of_mem own listed⟩
  · intro path node found
    exact Outline.mem_paths_of_follow? found

/-- The second argument of a call is found below the first statement of a branch. -/
theorem Program.outline_conforms_second_argument :
    ∃ program,
      Program.ofSource "if at < A'B12 then Fn[_r, xs] else $ := at endif" = .ok program ∧
      program.outline.follow?
        [.member "statements" 0, .member "then_branch" 0, .member "arguments" 1] =
          some (.ofName "xs") ∧
      [.member "statements" 0, .member "then_branch" 0, .member "arguments" 1] ∈
        program.outline.paths := by
  have stream : TokenStream.ofSource "if at < A'B12 then Fn[_r, xs] else $ := at endif" =
      ⟨[⟨.keyword .if, "if", 1⟩, ⟨.ident, "at", 1⟩, ⟨.symbol .less, "<", 1⟩,
        ⟨.sheetName, "A", 1⟩, ⟨.symbol .quote, "'", 1⟩, ⟨.coordinate, "B12", 1⟩,
        ⟨.keyword .then, "then", 1⟩, ⟨.funcName, "Fn", 1⟩, ⟨.symbol .leftBracket, "[", 1⟩,
        ⟨.rangeName, "_r", 1⟩, ⟨.symbol .comma, ",", 1⟩, ⟨.ident, "xs", 1⟩,
        ⟨.symbol .rightBracket, "]", 1⟩, ⟨.keyword .else, "else", 1⟩,
        ⟨.symbol .dollar, "$", 1⟩, ⟨.symbol .assign, ":=", 1⟩, ⟨.ident, "at", 1⟩,
        ⟨.keyword .endif, "endif", 1⟩], none⟩ := by decide
  have parsed : Program.ofSource "if at < A'B12 then Fn[_r, xs] else $ := at endif" =
      .ok ⟨[], [.branch (.binary .less (.name "at") (.cell (.inSheet "A" "B12")))
        [.call "Fn" [.range (.named "_r"), .scalar (.name "xs")]]
        (some [.assignCell .current (.name "at")])]⟩ := by
    rw [Program.ofSource, stream]
    rfl
  obtain ⟨-, -, -, complete⟩ := Program.outline_conforms parsed
  exact ⟨_, parsed, rfl, complete _ _ rfl⟩

end SheetLang
