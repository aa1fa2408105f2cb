import Mathlib.Data.List.Forall2
import SheetLang.Outline

/-!
# Schema of outlines

What the kind of a node says about the node: whether it has a value, and which relations
it has, in which order, to what.  Some kinds of node come in several forms.
-/

namespace SheetLang

/-- What a relation has to be: its name, whether it leads to one node or to a list, and
the kinds of the nodes it leads to. -/
inductive Slot where
  | one (name : String) (kinds : List Outline.Kind)
  | any (name : String) (kinds : List Outline.Kind)
  | atLeastOne (name : String) (kinds : List Outline.Kind)
  deriving DecidableEq

namespace Slot

def name : Slot → String
  | one name _ | any name _ | atLeastOne name _ => name

/-- The relation is as it has to be. -/
def Fits : Slot → Relation → Prop
  | one name kinds, .child label node => label = name ∧ node.kind ∈ kinds
  | any name kinds, .children label nodes => label = name ∧ ∀ node ∈ nodes, node.kind ∈ kinds
  | atLeastOne name kinds, .children label nodes =>
    label = name ∧ nodes ≠ [] ∧ ∀ node ∈ nodes, node.kind ∈ kinds
  | _, _ => False

end Slot

/-- A form that a node may have. -/
structure Form where
  valued : Bool
  slots : List Slot
  deriving DecidableEq

/-- The node has the form: all the relations of the form and no others, in order. -/
structure Form.Fits (form : Form) (node : Outline) : Prop where
  value : node.value?.isSome = form.valued
  relations : List.Forall₂ Slot.Fits form.slots node.relations

namespace Outline.Kind

/-- The kinds of node that scalar expressions show as. -/
def expressions : List Outline.Kind :=
  [ident, decimal, functionCall, cellRef, rangeCount, binaryOp, unaryOp]

/-- The kinds of node that values of any family show as. -/
def values : List Outline.Kind :=
  rangeExpression :: expressions

def statements : List Outline.Kind :=
  [print, branch, loop, traverse, subroutineCall, returnValue, assignment]

def variableDefinitions : List Outline.Kind :=
  [scalarDefinition, rangeDefinition, sheetDefinition]

def definitions : List Outline.Kind :=
  functionDefinition :: subroutineDefinition :: variableDefinitions

/-- The forms that a node of a kind may have. -/
def forms : Outline.Kind → List Form
  | program => [⟨false, [.any "definitions" definitions, .atLeastOne "statements" statements]⟩]
  | scalarDefinition => [⟨true, []⟩, ⟨true, [.one "value" expressions]⟩]
  | rangeDefinition => [⟨true, []⟩, ⟨true, [.one "value" [rangeExpression]]⟩]
  | sheetDefinition => [⟨true, []⟩, ⟨true, [.one "init" [sheetInit]]⟩]
  | sheetInit =>
    [⟨false, [.atLeastOne "rows" [sheetRow]]⟩,
      ⟨false, [.one "width" [int], .one "height" [int]]⟩]
  | sheetRow => [⟨false, [.atLeastOne "cells" expressions]⟩]
  | functionDefinition =>
    [⟨true, [.any "formals" [formalArg], .one "return_type" [typeName],
      .any "locals" variableDefinitions, .atLeastOne "body" statements]⟩]
  | subroutineDefinition =>
    [⟨true, [.any "formals" [formalArg], .any "locals" variableDefinitions,
      .atLeastOne "body" statements]⟩]
  | formalArg => [⟨true, [.one "type" [typeName]]⟩]
  | assignment =>
    [⟨false, [.one "variable" [ident], .one "value" values]⟩,
      ⟨false, [.one "cell" [cellRef], .one "value" expressions]⟩]
  | branch =>
    [⟨false, [.one "condition" expressions, .atLeastOne "then_branch" statements]⟩,
      ⟨false, [.one "condition" expressions, .atLeastOne "then_branch" statements,
        .atLeastOne "else_branch" statements]⟩]
  | loop => [⟨false, [.one "condition" expressions, .atLeastOne "body" statements]⟩]
  | traverse =>
    [⟨false, [.atLeastOne "ranges" [rangeExpression], .atLeastOne "body" statements]⟩]
  | returnValue => [⟨false, [.one "value" values]⟩]
  | print =>
    [⟨true, [.one "target" values]⟩,
      ⟨true, [.one "info" [infoString], .one "target" values]⟩]
  | subroutineCall | functionCall => [⟨true, [.any "arguments" values]⟩]
  | cellRef =>
    [⟨true, [.one "sheet" [ident], .one "coordinate" [ident]]⟩, ⟨true, [.one "range" [ident]]⟩,
      ⟨true, []⟩]
  | rangeExpression =>
    [⟨true, []⟩, ⟨false, [.one "from" [cellRef], .one "to" [cellRef]]⟩,
      ⟨false, [.one "call" [functionCall]]⟩,
      ⟨false, [.one "range" [rangeExpression], .one "column" [int], .one "row" [int]]⟩]
  | binaryOp =>
    [⟨false, [.one "operator" [operator], .one "left" expressions, .one "right" expressions]⟩]
  | unaryOp => [⟨false, [.one "operator" [operator], .one "operand" expressions]⟩]
  | rangeCount => [⟨false, [.one "range" [rangeExpression]]⟩]
  | operator | typeName | ident | decimal | int | infoString => [⟨true, []⟩]

/-- No form has two relations of one name. -/
theorem nodup_of_mem_forms {kind : Outline.Kind} {form : Form} (member : form ∈ kind.forms) :
    (form.slots.map Slot.name).Nodup := by
  revert form
  cases kind <;> decide

end Outline.Kind

/-- The node has one of the forms of its kind. -/
def Outline.Conforms (node : Outline) : Prop :=
  ∃ form ∈ node.kind.forms, form.Fits node

/-- Every node has one of the forms of its kind. -/
def Outline.Obeys (outline : Outline) : Prop :=
  ∀ node ∈ outline.preorder, node.Conforms

/-- Every node that a relation leads to obeys the schema. -/
def Relation.Obeys (relation : Relation) : Prop :=
  ∀ node ∈ relation.preorder, node.Conforms

@[simp] theorem Relation.obeys_child {name : String} {node : Outline} :
    (child name node).Obeys ↔ node.Obeys :=
  Iff.rfl

@[simp] theorem Relation.obeys_children {name : String} {nodes : List Outline} :
    (children name nodes).Obeys ↔ ∀ node ∈ nodes, node.Obeys :=
  Relation.forall_mem_preorder_children

theorem Outline.obeys_node {kind : Outline.Kind} {value : Option String}
    {relations : List Relation} :
    (node kind value relations).Obeys ↔
      (node kind value relations).Conforms ∧ ∀ relation ∈ relations, relation.Obeys :=
  Outline.forall_mem_preorder_node

/-! ## Names of relations -/

theorem Slot.Fits.name_eq {slot : Slot} {relation : Relation} (fits : slot.Fits relation) :
    relation.name = slot.name := by
  cases slot <;> cases relation <;> first | exact fits.1 | exact fits.elim

theorem Form.Fits.names {form : Form} {node : Outline} (fits : form.Fits node) :
    node.relations.map Relation.name = form.slots.map Slot.name := by
  have relations := fits.relations
  generalize node.relations = found, form.slots = slots at relations ⊢
  induction relations with
  | nil => rfl
  | cons first _ induction => rw [List.map_cons, List.map_cons, first.name_eq, induction]

/-- No two relations of a node have the same name. -/
theorem Outline.Conforms.nodup {node : Outline} (conforms : node.Conforms) :
    (node.relations.map Relation.name).Nodup := by
  obtain ⟨form, member, fits⟩ := conforms
  rw [fits.names]
  exact Outline.Kind.nodup_of_mem_forms member

end SheetLang
