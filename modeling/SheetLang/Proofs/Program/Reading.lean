import SheetLang.Proofs.Binary64.Text
import SheetLang.Proofs.Outline.Reading
import SheetLang.Proofs.Program.Content
import SheetLang.Proofs.Program.Schema

/-!
# Programs told by the texts of their outlines

Names, numbers and operators hold no delimiter, so the outline of a program can be read back
from its text where no info string looks like its own end.
-/

namespace SheetLang

open Outline Shape

/-! ## Quiet texts -/

/-- No character of the text delimits a node. -/
def IsQuiet (text : String) : Prop :=
  ∀ character ∈ text.toList, isDelimiter character = false

theorem isQuiet_of_all {text : String}
    (quiet : text.toList.all (fun character => !isDelimiter character) = true) :
    IsQuiet text := by
  intro character member
  simpa using List.all_eq_true.mp quiet character member

theorem isDelimiter_of_isWordChar {character : Char}
    (letter : isWordChar character = true) : isDelimiter character = false := by
  have delimiters : ['(', ')', '[', ']', ','].all (fun mark => !isWordChar mark) = true := by
    decide
  cases other : isDelimiter character with
  | false => rfl
  | true =>
      have member := List.all_eq_true.mp delimiters character (List.contains_iff_mem.mp other)
      rw [letter] at member
      cases member

theorem isQuiet_of_isScalarName {name : String} (named : IsScalarName name) : IsQuiet name :=
  fun _ member => isDelimiter_of_isWordChar (isWordChar_of_ident named.1 member)

theorem isQuiet_of_isRangeName {name : String} (named : IsRangeName name) : IsQuiet name :=
  fun _ member => isDelimiter_of_isWordChar (isWordChar_of_rangeName named member)

theorem isQuiet_of_isSheetName {name : String} (named : IsSheetName name) : IsQuiet name :=
  fun _ member => isDelimiter_of_isWordChar (isWordChar_of_sheetName named member)

theorem isQuiet_of_isCoordinate {name : String} (named : IsCoordinate name) : IsQuiet name :=
  fun _ member => isDelimiter_of_isWordChar (isWordChar_of_coordinate named member)

theorem isQuiet_of_isFunctionName {name : String} (named : IsFunctionName name) :
    IsQuiet name := by
  obtain ⟨capital, rest, whole, upper, more, -⟩ := named
  have shape : Shape.funcName name.toList = true := by
    rw [whole, Shape.funcName, upper, (Bool.and_eq_true_iff.mp more).2]
    rfl
  exact fun _ member => isDelimiter_of_isWordChar (isWordChar_of_funcName shape member)

theorem isQuiet_toString (number : Int) : IsQuiet (toString number) := by
  intro character member
  rcases Literal.isDigit_or_minus_of_mem_toString member with digit | rfl
  · exact isDelimiter_of_isWordChar (isWordChar_of_isDigit digit)
  · rfl

theorem isQuiet_render (number : Binary64) : IsQuiet number.render := by
  intro character member
  rcases Binary64.isDigit_or_mark_of_mem_render member with digit | mark
  · exact isDelimiter_of_isWordChar (isWordChar_of_isDigit digit)
  · have quiet : IsQuiet ".e-inf" := isQuiet_of_all rfl
    exact quiet character mark

theorem isQuiet_append {front back : String} (first : IsQuiet front) (second : IsQuiet back) :
    IsQuiet (front ++ back) := by
  intro character member
  rw [String.toList_append] at member
  rcases List.mem_append.mp member with before | behind
  · exact first character before
  · exact second character behind

theorem CellRef.isQuiet_render {cell : CellRef} (wellFormed : cell.WellFormed) :
    IsQuiet cell.render := by
  cases cell with
  | inSheet sheet coordinate =>
      have quote : IsQuiet "'" := isQuiet_of_all rfl
      exact isQuiet_append (isQuiet_append (isQuiet_of_isSheetName wellFormed.1) quote)
        (isQuiet_of_isCoordinate wellFormed.2)
  | currentIn range =>
      have front : IsQuiet "$:" := isQuiet_of_all rfl
      exact isQuiet_append front (isQuiet_of_isRangeName wellFormed)
  | current => exact isQuiet_of_all rfl

theorem BinaryOperator.isQuiet_text (operator : BinaryOperator) : IsQuiet operator.text := by
  apply isQuiet_of_all
  cases operator <;> rfl

theorem Family.isQuiet_name (family : Family) : IsQuiet family.name := by
  apply isQuiet_of_all
  cases family <;> rfl

theorem ReturnType.isQuiet_name (type : ReturnType) : IsQuiet type.name := by
  apply isQuiet_of_all
  cases type <;> rfl

/-! ## Quiet outlines -/

/-- No value but that of an info string has a delimiter. -/
def Outline.Quiet (outline : Outline) : Prop :=
  ∀ node ∈ outline.preorder, node.kind ≠ .infoString → ∀ value ∈ node.value?, IsQuiet value

def Relation.Quiet (relation : Relation) : Prop :=
  ∀ node ∈ relation.preorder, node.kind ≠ .infoString → ∀ value ∈ node.value?, IsQuiet value

@[simp] theorem Relation.quiet_child {name : String} {node : Outline} :
    (child name node).Quiet ↔ node.Quiet :=
  Iff.rfl

@[simp] theorem Relation.quiet_children {name : String} {nodes : List Outline} :
    (children name nodes).Quiet ↔ ∀ node ∈ nodes, node.Quiet :=
  Relation.forall_mem_preorder_children

theorem Outline.quiet_node {kind : Outline.Kind} {value : Option String}
    {relations : List Relation} :
    (node kind value relations).Quiet ↔
      (kind ≠ .infoString → ∀ text ∈ value, IsQuiet text) ∧
        ∀ relation ∈ relations, relation.Quiet :=
  Outline.forall_mem_preorder_node

theorem Outline.quiet_leaf {kind : Outline.Kind} {value : String} (quiet : IsQuiet value) :
    (leaf kind value).Quiet := by
  refine quiet_node.mpr ⟨fun _ text same => ?_, by simp⟩
  cases same
  exact quiet

theorem Outline.quiet_info (text : String) : (leaf .infoString text).Quiet :=
  quiet_node.mpr ⟨fun other => absurd rfl other, by simp⟩

theorem Outline.quiet_ofInt64 (number : Int64) : (ofInt64 number).Quiet :=
  quiet_leaf (isQuiet_toString _)

theorem CellRef.quiet_outline {cell : CellRef} (wellFormed : cell.WellFormed) :
    cell.outline.Quiet := by
  refine quiet_node.mpr ⟨fun _ text same => ?_, ?_⟩
  · cases same
    exact CellRef.isQuiet_render wellFormed
  · cases cell with
    | inSheet sheet coordinate =>
        have first : (ofName sheet).Quiet := quiet_leaf (isQuiet_of_isSheetName wellFormed.1)
        have second : (ofName coordinate).Quiet :=
          quiet_leaf (isQuiet_of_isCoordinate wellFormed.2)
        simpa using ⟨first, second⟩
    | currentIn range =>
        have named : (ofName range).Quiet := quiet_leaf (isQuiet_of_isRangeName wellFormed)
        simpa using named
    | current => simp

mutual

theorem Expr.quiet_outline (expression : Expr) (wellFormed : expression.WellFormed) :
    expression.outline.Quiet := by
  cases expression with
  | name name => exact quiet_leaf (isQuiet_of_isScalarName wellFormed)
  | decimal value => exact quiet_leaf (isQuiet_render value)
  | call function arguments =>
      refine quiet_node.mpr ⟨?_, ?_⟩
      · simpa using isQuiet_of_isFunctionName wellFormed.1
      · simpa using Argument.quiet_outlines arguments wellFormed.2
  | cell cell => exact CellRef.quiet_outline wellFormed
  | count range =>
      have below := range.quiet_outline wellFormed
      exact quiet_node.mpr ⟨by simp, by simpa using below⟩
  | binary operator left right =>
      have sign : (leaf .operator operator.text).Quiet := quiet_leaf operator.isQuiet_text
      have first := left.quiet_outline wellFormed.1
      have second := right.quiet_outline wellFormed.2
      exact quiet_node.mpr ⟨by simp, by simp [sign, first, second]⟩
  | negate operand =>
      have sign : (leaf .operator "-").Quiet := quiet_leaf BinaryOperator.minus.isQuiet_text
      have below := operand.quiet_outline wellFormed
      exact quiet_node.mpr ⟨by simp, by simp [sign, below]⟩

theorem RangeExpr.quiet_outline (range : RangeExpr) (wellFormed : range.WellFormed) :
    range.outline.Quiet := by
  cases range with
  | named name => exact quiet_leaf (isQuiet_of_isRangeName wellFormed)
  | span first last =>
      have front := CellRef.quiet_outline wellFormed.1
      have back := CellRef.quiet_outline wellFormed.2
      exact quiet_node.mpr ⟨by simp, by simp [front, back]⟩
  | call function arguments =>
      have call : (Expr.call function arguments).outline.Quiet := by
        refine quiet_node.mpr ⟨?_, ?_⟩
        · simpa using isQuiet_of_isFunctionName wellFormed.1
        · simpa using Argument.quiet_outlines arguments wellFormed.2
      exact quiet_node.mpr ⟨by simp, List.forall_mem_singleton.mpr call⟩
  | part range column row =>
      have below := range.quiet_outline wellFormed
      exact quiet_node.mpr ⟨by simp, by simp [below, quiet_ofInt64]⟩

theorem Argument.quiet_outline (argument : Argument) (wellFormed : argument.WellFormed) :
    argument.outline.Quiet := by
  cases argument with
  | scalar value => exact value.quiet_outline wellFormed
  | range value => exact value.quiet_outline wellFormed
  | sheet name => exact quiet_leaf (isQuiet_of_isSheetName wellFormed)

theorem Argument.quiet_outlines (arguments : List Argument)
    (wellFormed : Argument.AllWellFormed arguments) :
    ∀ node ∈ Argument.outlines arguments, node.Quiet := by
  cases arguments with
  | nil => simp [Argument.outlines]
  | cons argument others =>
      exact List.forall_mem_cons.mpr
        ⟨argument.quiet_outline wellFormed.1, Argument.quiet_outlines others wellFormed.2⟩

end

mutual

theorem Statement.quiet_outline (statement : Statement) (wellFormed : statement.WellFormed) :
    statement.outline.Quiet := by
  cases statement with
  | print info argument =>
      have shown := argument.quiet_outline wellFormed.2
      refine quiet_node.mpr ⟨by simpa using argument.family.isQuiet_name, ?_⟩
      cases info with
      | none => simpa using shown
      | some text => simpa using ⟨quiet_info text, shown⟩
  | branch condition positive negative =>
      obtain ⟨test, -, first, second⟩ := wellFormed
      have shown := condition.quiet_outline test
      have then_branch := Statement.quiet_outlines positive first
      cases negative with
      | none => exact quiet_node.mpr ⟨by simp, by simpa [shown] using then_branch⟩
      | some negative =>
          have else_branch := Statement.quiet_outlines negative second.2
          exact quiet_node.mpr ⟨by simp, by simpa [shown] using ⟨then_branch, else_branch⟩⟩
  | loop condition body =>
      have test := condition.quiet_outline wellFormed.1
      have below := Statement.quiet_outlines body wellFormed.2.2
      exact quiet_node.mpr ⟨by simp, by simpa [test] using below⟩
  | traverse ranges body =>
      have each (range : RangeExpr) (member : range ∈ ranges) : range.outline.Quiet :=
        range.quiet_outline (wellFormed.2.1 range member)
      have below := Statement.quiet_outlines body wellFormed.2.2.2
      exact quiet_node.mpr ⟨by simp, by simpa using ⟨each, below⟩⟩
  | call subroutine arguments =>
      have below := Argument.quiet_outlines arguments wellFormed.2
      refine quiet_node.mpr ⟨?_, by simpa using below⟩
      simpa using isQuiet_of_isFunctionName wellFormed.1
  | returnScalar value =>
      have below := value.quiet_outline wellFormed
      exact quiet_node.mpr ⟨by simp, by simpa using below⟩
  | returnRange value =>
      have below := value.quiet_outline wellFormed
      exact quiet_node.mpr ⟨by simp, by simpa using below⟩
  | assignScalar target value =>
      have named : (ofName target).Quiet := quiet_leaf (isQuiet_of_isScalarName wellFormed.1)
      have below := value.quiet_outline wellFormed.2
      exact quiet_node.mpr ⟨by simp, by simp [named, below]⟩
  | assignCell target value =>
      have cell := CellRef.quiet_outline wellFormed.1
      have below := value.quiet_outline wellFormed.2
      exact quiet_node.mpr ⟨by simp, by simp [cell, below]⟩
  | assignRange target value =>
      have named : (ofName target).Quiet := quiet_leaf (isQuiet_of_isRangeName wellFormed.1)
      have below := value.quiet_outline wellFormed.2
      exact quiet_node.mpr ⟨by simp, by simp [named, below]⟩
  | assignSheet target source =>
      have named : (ofName target).Quiet := quiet_leaf (isQuiet_of_isSheetName wellFormed.1)
      have below : (ofName source).Quiet := quiet_leaf (isQuiet_of_isSheetName wellFormed.2)
      exact quiet_node.mpr ⟨by simp, by simp [named, below]⟩

theorem Statement.quiet_outlines (statements : List Statement)
    (wellFormed : Statement.AllWellFormed statements) :
    ∀ node ∈ Statement.outlines statements, node.Quiet := by
  cases statements with
  | nil => simp [Statement.outlines]
  | cons statement others =>
      exact List.forall_mem_cons.mpr
        ⟨statement.quiet_outline wellFormed.1, Statement.quiet_outlines others wellFormed.2⟩

end

theorem SheetContents.quiet_outline {contents : SheetContents}
    (wellFormed : contents.WellFormed) : contents.outline.Quiet := by
  cases contents with
  | rows table =>
      have row (cells : List Expr) (member : cells ∈ table) : (Outline.ofRow cells).Quiet := by
        refine quiet_node.mpr ⟨by simp, ?_⟩
        simpa using fun cell inside =>
          cell.quiet_outline ((wellFormed.2 cells member).2 cell inside)
      exact quiet_node.mpr ⟨by simp, by simpa using row⟩
  | size width height => exact quiet_node.mpr ⟨by simp, by simp [quiet_ofInt64]⟩

/-- A node with a relation that may be absent. -/
theorem Outline.quiet_optional {kind : Outline.Kind} {label name : String} {value : Option Outline}
    (quiet : IsQuiet label) (below : ∀ outline ∈ value, outline.Quiet) :
    (node kind (some label) (Relation.optional name value)).Quiet := by
  refine quiet_node.mpr ⟨by simpa using fun _ => quiet, ?_⟩
  cases value with
  | none => simp
  | some outline => simpa using below outline rfl

theorem Variable.quiet_outline {definition : Variable} (wellFormed : definition.WellFormed) :
    definition.outline.Quiet := by
  cases definition with
  | scalar name value =>
      refine quiet_optional (isQuiet_of_isScalarName wellFormed.1) ?_
      simpa using fun expression given => expression.quiet_outline (wellFormed.2 expression given)
  | range name value =>
      refine quiet_optional (isQuiet_of_isRangeName wellFormed.1) ?_
      simpa using fun range given => range.quiet_outline (wellFormed.2 range given)
  | sheet name contents =>
      refine quiet_optional (isQuiet_of_isSheetName wellFormed.1) ?_
      simpa using fun start given => SheetContents.quiet_outline (wellFormed.2 start given)

theorem Parameter.isQuiet_name {parameter : Parameter} (wellFormed : parameter.WellFormed) :
    IsQuiet parameter.name := by
  obtain ⟨name, family⟩ := parameter
  cases family with
  | scalar => exact isQuiet_of_isScalarName wellFormed
  | range => exact isQuiet_of_isRangeName wellFormed
  | sheet => exact isQuiet_of_isSheetName wellFormed

theorem Parameter.quiet_outline {parameter : Parameter} (wellFormed : parameter.WellFormed) :
    parameter.outline.Quiet := by
  have family : (leaf .typeName parameter.family.name).Quiet :=
    quiet_leaf parameter.family.isQuiet_name
  refine quiet_node.mpr ⟨?_, by simpa using family⟩
  simpa using Parameter.isQuiet_name wellFormed

theorem Function.quiet_outline {function : Function} (wellFormed : function.WellFormed) :
    function.outline.Quiet := by
  have type : (leaf .typeName function.returnType.name).Quiet :=
    quiet_leaf function.returnType.isQuiet_name
  have body := Statement.quiet_outlines function.body wellFormed.body
  have formals (parameter : Parameter) (member : parameter ∈ function.parameters) :=
    Parameter.quiet_outline (wellFormed.parameters parameter member)
  have locals (definition : Variable) (member : definition ∈ function.locals) :=
    Variable.quiet_outline (wellFormed.locals definition member)
  refine quiet_node.mpr ⟨by simpa using isQuiet_of_isFunctionName wellFormed.name, ?_⟩
  simpa using ⟨formals, type, locals, body⟩

theorem Subroutine.quiet_outline {subroutine : Subroutine}
    (wellFormed : subroutine.WellFormed) : subroutine.outline.Quiet := by
  have body := Statement.quiet_outlines subroutine.body wellFormed.body
  have formals (parameter : Parameter) (member : parameter ∈ subroutine.parameters) :=
    Parameter.quiet_outline (wellFormed.parameters parameter member)
  have locals (definition : Variable) (member : definition ∈ subroutine.locals) :=
    Variable.quiet_outline (wellFormed.locals definition member)
  refine quiet_node.mpr ⟨by simpa using isQuiet_of_isFunctionName wellFormed.name, ?_⟩
  simpa using ⟨formals, locals, body⟩

theorem Definition.quiet_outline {definition : Definition}
    (wellFormed : definition.WellFormed) : definition.outline.Quiet := by
  cases definition with
  | «variable» definition => exact Variable.quiet_outline wellFormed
  | function definition => exact Function.quiet_outline wellFormed
  | subroutine definition => exact Subroutine.quiet_outline wellFormed

theorem Program.quiet_outline {program : Program} (wellFormed : program.WellFormed) :
    program.outline.Quiet := by
  have statements := Statement.quiet_outlines program.statements wellFormed.statements
  have definitions (definition : Definition) (member : definition ∈ program.definitions) :=
    Definition.quiet_outline (wellFormed.definitions definition member)
  exact quiet_node.mpr ⟨by simp, by simpa using ⟨definitions, statements⟩⟩

/-! ## Info strings -/

/-- What a token other than an info string shows as has no delimiter. -/
theorem Token.isQuiet_content {token : Token} {shown : String}
    (legible : token.kind.Legible token.text.toList) (other : token.kind ≠ .info)
    (content : token.content? = some shown) : IsQuiet shown := by
  obtain ⟨kind, text, line⟩ := token
  have admits := legible.1
  cases kind with
  | keyword | symbol => cases content
  | ident =>
      cases content
      exact fun _ member => isDelimiter_of_isWordChar (isWordChar_of_ident admits member)
  | coordinate =>
      cases content
      exact fun _ member => isDelimiter_of_isWordChar (isWordChar_of_coordinate admits member)
  | rangeName =>
      cases content
      exact fun _ member => isDelimiter_of_isWordChar (isWordChar_of_rangeName admits member)
  | sheetName =>
      cases content
      exact fun _ member => isDelimiter_of_isWordChar (isWordChar_of_sheetName admits member)
  | funcName =>
      cases content
      exact fun _ member => isDelimiter_of_isWordChar (isWordChar_of_funcName admits member)
  | integer =>
      cases content
      exact isQuiet_toString _
  | decimal =>
      cases content
      exact isQuiet_render _
  | info => exact absurd rfl other

/-- The mark is shown nowhere if it is in no info string. -/
theorem Token.not_marked_content {token : Token} {shown : String}
    (legible : token.kind.Legible token.text.toList)
    (unmarked : token.kind = .info → ¬targetMark <:+: token.text.toList)
    (content : token.content? = some shown) : ¬targetMark <:+: shown.toList := by
  by_cases info : token.kind = .info
  · obtain ⟨kind, text, line⟩ := token
    obtain rfl : kind = .info := info
    cases content
    rw [String.toList_ofList, filter_mark_of_legible legible]
    intro marked
    refine unmarked rfl (marked.trans ?_)
    exact (List.dropLast_prefix _).isInfix.trans (List.drop_suffix _ _).isInfix
  · intro marked
    have comma : ',' ∈ shown.toList := marked.subset (by decide)
    cases Token.isQuiet_content legible info content ',' comma

/-- The outline of a program can be read back if no info string has the mark of its end. -/
theorem Program.readable_outline {program : Program} {tokens : List Token}
    (derivation : Derives .program tokens program) (legible : Legible tokens)
    (unmarked : ∀ token ∈ tokens, token.kind = .info → ¬targetMark <:+: token.text.toList) :
    program.outline.Readable := by
  have wellFormed : program.WellFormed := derivation.wellFormed legible
  have shown : program.outline.content = Token.content tokens := derivation.content legible
  intro node member
  refine ⟨Program.obeys_outline wellFormed node member, fun value present => ⟨?_, ?_⟩⟩
  · intro info
    have content : node.content? = some value := by
      rw [Outline.content?, info]
      exact present
    have listed : value ∈ program.outline.content := List.mem_filterMap.mpr ⟨node, member, content⟩
    rw [shown] at listed
    obtain ⟨token, found, same⟩ := List.mem_filterMap.mp listed
    exact Token.not_marked_content (legible token found) (unmarked token found) same
  · exact fun other => Program.quiet_outline wellFormed node member other value present

/-! ## Programs of sources -/

/-- The text of an info string is shown as it is, behind a space here that keeps it from being
taken for an inequality. -/
theorem Program.exists_render_info {text : String} (unmarked : '!' ∉ text.toList)
    (oneLine : '\n' ∉ text.toList) :
    ∃ source program, Program.ofSource source = .ok program ∧
      program.outline.render =
        "Program(definitions=[], statements=[Print:scalar(info=InfoString: " ++ text ++
          ", target=Ident:xs)])" := by
  have info : IsInfo (" " ++ text) := by
    refine ⟨?_, ?_, ?_⟩
    · simpa [String.toList_append] using unmarked
    · simpa [String.toList_append] using oneLine
    · simp [String.toList_append]
  have wellFormed : Program.WellFormed
      ⟨[], [.print (some (" " ++ text)) (.scalar (.name "xs"))]⟩ := by
    refine ⟨by simp, by simp, ⟨by simpa using info, ?_⟩, trivial⟩
    exact ⟨rfl, fun word => by cases word <;> decide⟩
  obtain ⟨source, parsed⟩ := Program.exists_source_of_wellFormed wellFormed
  refine ⟨source, _, parsed, ?_⟩
  apply String.toList_injective
  simp [Program.outline, Statement.outlines, Statement.outline, Argument.outline, Expr.outline,
    Outline.ofName, Outline.leaf, Relation.optional, Argument.family, Family.name,
    Outline.render, Relation.render, Relation.renderRest, Outline.renderRest, Outline.label,
    Outline.Kind.name, String.toList_append]

/-- The text of its outline tells the outline of a program, and the program, if no info string
holds the text that stands behind info strings.  Other than that, an info string may hold
anything that fits between its marks, and is shown as it is. -/
theorem Program.render_outline_inj :
    (∀ first second program another,
      Program.ofSource first = .ok program → Program.ofSource second = .ok another →
      (∀ token ∈ (TokenStream.ofSource first).tokens, token.kind = .info →
        ¬", target=".toList <:+: token.text.toList) →
      (∀ token ∈ (TokenStream.ofSource second).tokens, token.kind = .info →
        ¬", target=".toList <:+: token.text.toList) →
      program.outline.render = another.outline.render →
      program.outline = another.outline ∧ program = another) ∧
    ∀ text : String, '!' ∉ text.toList → '\n' ∉ text.toList →
      ∃ source program, Program.ofSource source = .ok program ∧
        program.outline.render =
          "Program(definitions=[], statements=[Print:scalar(info=InfoString: " ++ text ++
            ", target=Ident:xs)])" := by
  constructor
  · intro first second program another parsed otherParsed unmarked otherUnmarked same
    have readable := Program.readable_outline (TokenStream.parse_eq_ok_iff.mp parsed).1
      (fun _ => TokenStream.legible_of_mem) unmarked
    have otherReadable := Program.readable_outline (TokenStream.parse_eq_ok_iff.mp otherParsed).1
      (fun _ => TokenStream.legible_of_mem) otherUnmarked
    have ends (whole : Program) : whole.outline.StandsBefore [] := by
      constructor
      · intro info
        cases info
      · intro _ character first
        cases first
    have texts : program.outline.render.toList ++ [] = another.outline.render.toList ++ [] := by
      rw [same]
    have outlines := (Outline.render_append_inj texts readable otherReadable (ends program)
      (ends another)).1
    exact ⟨outlines, Program.outline_inj outlines (Program.wellFormed_of_ofSource parsed)
      (Program.wellFormed_of_ofSource otherParsed)⟩
  · intro text unmarked oneLine
    exact Program.exists_render_info unmarked oneLine

/-- An info string that looks like the end of a statement, in two layouts. -/
theorem Program.render_outline_inj_brackets :
    ∃ program another,
      Program.ofSource "print_scalar !)], info=[! xs" = .ok program ∧
      Program.ofSource "print_scalar\n!)], info=[! ... xs ...\nxs" = .ok another ∧
      program.outline.render = another.outline.render ∧ program.outline = another.outline ∧
      ∃ source marked, Program.ofSource source = .ok marked ∧
        marked.outline.render =
          "Program(definitions=[], statements=[Print:scalar(info=InfoString: " ++ ", target=" ++
            ", target=Ident:xs)])" := by
  have stream : TokenStream.ofSource "print_scalar !)], info=[! xs" =
      ⟨[⟨.keyword .printScalar, "print_scalar", 1⟩, ⟨.info, "!)], info=[!", 1⟩,
        ⟨.ident, "xs", 1⟩], none⟩ := by
    decide
  have other : TokenStream.ofSource "print_scalar\n!)], info=[! ... xs ...\nxs" =
      ⟨[⟨.keyword .printScalar, "print_scalar", 1⟩, ⟨.info, "!)], info=[!", 2⟩,
        ⟨.ident, "xs", 3⟩], none⟩ := by
    decide
  have parsed : Program.ofSource "print_scalar !)], info=[! xs" =
      .ok ⟨[], [.print (some ")], info=[") (.scalar (.name "xs"))]⟩ := by
    rw [Program.ofSource, stream]
    rfl
  have otherParsed : Program.ofSource "print_scalar\n!)], info=[! ... xs ...\nxs" =
      .ok ⟨[], [.print (some ")], info=[") (.scalar (.name "xs"))]⟩ := by
    rw [Program.ofSource, other]
    rfl
  have absent : ¬", target=".toList <:+: "!)], info=[!".toList := by decide
  have outlines := (Program.render_outline_inj.1 _ _ _ _ parsed otherParsed
    (by simpa [stream] using absent) (by simpa [other] using absent) rfl).1
  exact ⟨_, _, parsed, otherParsed, rfl, outlines,
    Program.render_outline_inj.2 ", target=" (by decide) (by decide)⟩

/-- With the mark in an info string, one statement shows as two. -/
example :
    (Program.outline ⟨[], [.print (some "a") (.scalar (.name "xs")),
        .print (some "b") (.scalar (.name "xs"))]⟩).render =
      (Program.outline ⟨[], [.print (some "a, target=Ident:xs), Print:scalar(info=InfoString:b")
        (.scalar (.name "xs"))]⟩).render := by
  decide

end SheetLang
