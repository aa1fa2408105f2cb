/-!
# Outlines

A uniform view of a tree: every node has a kind, perhaps a value, and named
relations to the nodes below it.  A relation leads to one child or to a list of
children, and both the relations of a node and the children of a list have an
order.
-/

namespace SheetLang

/-- The kinds of node. -/
inductive Outline.Kind where
  | program
  | scalarDefinition
  | rangeDefinition
  | sheetDefinition
  | sheetInit
  | sheetRow
  | functionDefinition
  | subroutineDefinition
  | formalArg
  | typeName
  | assignment
  | branch
  | loop
  | traverse
  | returnValue
  | print
  | subroutineCall
  | functionCall
  | cellRef
  | rangeExpression
  | binaryOp
  | unaryOp
  | rangeCount
  | operator
  | ident
  | decimal
  | int
  | infoString
  deriving DecidableEq

namespace Outline.Kind

def all : List Outline.Kind :=
  [program, scalarDefinition, rangeDefinition, sheetDefinition, sheetInit, sheetRow,
    functionDefinition, subroutineDefinition, formalArg, typeName, assignment, branch, loop,
    traverse, returnValue, print, subroutineCall, functionCall, cellRef, rangeExpression,
    binaryOp, unaryOp, rangeCount, operator, ident, decimal, int, infoString]

def name : Outline.Kind → String
  | program => "Program"
  | scalarDefinition => "ScalarDefinition"
  | rangeDefinition => "RangeDefinition"
  | sheetDefinition => "SheetDefinition"
  | sheetInit => "SheetInit"
  | sheetRow => "SheetRow"
  | functionDefinition => "FunctionDefinition"
  | subroutineDefinition => "SubroutineDefinition"
  | formalArg => "FormalArg"
  | typeName => "TypeName"
  | assignment => "Assignment"
  | branch => "If"
  | loop => "While"
  | traverse => "For"
  | returnValue => "Return"
  | print => "Print"
  | subroutineCall => "SubroutineCall"
  | functionCall => "FunctionCall"
  | cellRef => "CellRef"
  | rangeExpression => "RangeExpression"
  | binaryOp => "BinaryOp"
  | unaryOp => "UnaryOp"
  | rangeCount => "RangeCount"
  | operator => "Operator"
  | ident => "Ident"
  | decimal => "Decimal"
  | int => "Int"
  | infoString => "InfoString"

/-- The kind with exactly this name. -/
def ofName? (name : String) : Option Outline.Kind :=
  all.find? fun kind => kind.name == name

theorem ofName?_name (kind : Outline.Kind) : ofName? kind.name = some kind := by
  cases kind <;> decide

/-- No two kinds have the same name. -/
theorem ofName?_eq_some_iff {name : String} {kind : Outline.Kind} :
    ofName? name = some kind ↔ kind.name = name := by
  constructor
  · intro found
    simpa using List.find?_some found
  · rintro rfl
    exact ofName?_name kind

end Outline.Kind

mutual

/-- A node and everything below it. -/
inductive Outline where
  | node (kind : Outline.Kind) (value : Option String) (relations : List Relation)

/-- A named relation from a node to one node or to a list of nodes below it. -/
inductive Relation where
  | child (name : String) (node : Outline)
  | children (name : String) (nodes : List Outline)

end

def Relation.name : Relation → String
  | child name _ => name
  | children name _ => name

namespace Outline

def kind : Outline → Outline.Kind
  | node kind _ _ => kind

def value? : Outline → Option String
  | node _ value _ => value

def relations : Outline → List Relation
  | node _ _ relations => relations

/-- A node with a value and nothing below it. -/
def leaf (kind : Outline.Kind) (value : String) : Outline :=
  node kind (some value) []

/-- The first relation of a name. -/
def relation? (outline : Outline) (name : String) : Option Relation :=
  outline.relations.find? fun relation => relation.name == name

/-- The node that the first relation of a name leads to, if it leads to one
node. -/
def child? (outline : Outline) (name : String) : Option Outline :=
  match outline.relation? name with
  | some (.child _ below) => some below
  | _ => none

/-- The nodes that the first relation of a name leads to, if it leads to a
list. -/
def children? (outline : Outline) (name : String) : Option (List Outline) :=
  match outline.relation? name with
  | some (.children _ below) => some below
  | _ => none

/-- The kind of the topmost node and, behind a colon, its value. -/
def label : Outline → String
  | node kind none _ => kind.name
  | node kind (some value) _ => kind.name ++ ":" ++ value

end Outline

mutual

/-- The nodes of an outline, each before the nodes below it. -/
def Outline.preorder : Outline → List Outline
  | .node kind value relations =>
    .node kind value relations :: Relation.preorderAll relations

def Relation.preorder : Relation → List Outline
  | .child _ node => node.preorder
  | .children _ nodes => Outline.preorderAll nodes

def Relation.preorderAll : List Relation → List Outline
  | [] => []
  | relation :: others => relation.preorder ++ Relation.preorderAll others

def Outline.preorderAll : List Outline → List Outline
  | [] => []
  | node :: others => node.preorder ++ Outline.preorderAll others

end

section

variable {good : Outline → Prop}

/-- What is true of all nodes below a list is true of all nodes below its members. -/
theorem Relation.forall_mem_preorder_children {name : String} {nodes : List Outline} :
    (∀ node ∈ (children name nodes).preorder, good node) ↔
      ∀ outline ∈ nodes, ∀ node ∈ outline.preorder, good node := by
  induction nodes with
  | nil => simp [Relation.preorder, Outline.preorderAll]
  | cons node others induction =>
      rw [List.forall_mem_cons, ← induction]
      exact List.forall_mem_append

/-- What is true of all nodes is true of the topmost one and of all nodes below it. -/
theorem Outline.forall_mem_preorder_node {kind : Outline.Kind} {value : Option String}
    {relations : List Relation} :
    (∀ below ∈ (node kind value relations).preorder, good below) ↔
      good (node kind value relations) ∧
        ∀ relation ∈ relations, ∀ below ∈ relation.preorder, good below := by
  have below : (∀ node ∈ Relation.preorderAll relations, good node) ↔
      ∀ relation ∈ relations, ∀ node ∈ relation.preorder, good node := by
    induction relations with
    | nil => simp [Relation.preorderAll]
    | cons relation others induction =>
        rw [List.forall_mem_cons, ← induction]
        exact List.forall_mem_append
  rw [← below]
  exact List.forall_mem_cons

end

mutual

/-- The nodes of an outline, each after the nodes below it. -/
def Outline.postorder : Outline → List Outline
  | .node kind value relations =>
    Relation.postorderAll relations ++ [.node kind value relations]

def Relation.postorder : Relation → List Outline
  | .child _ node => node.postorder
  | .children _ nodes => Outline.postorderAll nodes

def Relation.postorderAll : List Relation → List Outline
  | [] => []
  | relation :: others => relation.postorder ++ Relation.postorderAll others

def Outline.postorderAll : List Outline → List Outline
  | [] => []
  | node :: others => node.postorder ++ Outline.postorderAll others

end

mutual

/-- The text of an outline: its label, and its relations in parentheses if there
are any. -/
def Outline.render : Outline → String
  | .node kind value [] => (Outline.node kind value []).label
  | .node kind value (relation :: others) =>
    (Outline.node kind value []).label ++ "(" ++ relation.render ++
      Relation.renderRest others ++ ")"

/-- The text of a relation: a list of children stands in brackets. -/
def Relation.render : Relation → String
  | .child name node => name ++ "=" ++ node.render
  | .children name [] => name ++ "=[]"
  | .children name (node :: others) =>
    name ++ "=[" ++ node.render ++ Outline.renderRest others ++ "]"

/-- The text of the relations after the first. -/
def Relation.renderRest : List Relation → String
  | [] => ""
  | relation :: others => ", " ++ relation.render ++ Relation.renderRest others

/-- The text of the children after the first. -/
def Outline.renderRest : List Outline → String
  | [] => ""
  | node :: others => ", " ++ node.render ++ Outline.renderRest others

end

end SheetLang
