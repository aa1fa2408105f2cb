import SheetLang.Outline

/-!
# Branches of outlines

The nodes right below a node, each with the name of the relation that leads to it, whether
that relation leads to one node or to a list.  Every node but the topmost one is entered by
one descent: from the node right above it, through a relation.
-/

namespace SheetLang

/-- The nodes that a relation leads to, each with the name of the relation. -/
def Relation.members : Relation → List (String × Outline)
  | .child name node => [(name, node)]
  | .children name nodes => nodes.map fun node => (name, node)

namespace Outline

/-- The nodes right below the topmost one, each with the name of its relation. -/
def branches (outline : Outline) : List (String × Outline) :=
  outline.relations.flatMap Relation.members

def size (outline : Outline) : Nat :=
  outline.preorder.length

/-- The number of nodes of several outlines. -/
def total : List Outline → Nat
  | [] => 0
  | outline :: others => outline.size + total others

/-- The way from a node to one right below it. -/
structure Descent where
  parent : Outline
  relation : String
  child : Outline

/-- The ways from the topmost node to those right below it. -/
def steps (outline : Outline) : List Descent :=
  outline.branches.map fun (name, child) => ⟨outline, name, child⟩

end Outline

mutual

/-- The descents within an outline, each behind those below it. -/
def Outline.descents : Outline → List Outline.Descent
  | .node kind value relations =>
    Relation.descentsAll (.node kind value relations) relations

/-- The descents from a node through a relation, and those below. -/
def Relation.descents (parent : Outline) : Relation → List Outline.Descent
  | .child name node => node.descents ++ [⟨parent, name, node⟩]
  | .children name nodes => Outline.descentsAll parent name nodes

/-- The descents from a node through relations, and those below. -/
def Relation.descentsAll (parent : Outline) : List Relation → List Outline.Descent
  | [] => []
  | relation :: others => relation.descents parent ++ Relation.descentsAll parent others

/-- The descents from a node to the members of a list, and those below. -/
def Outline.descentsAll (parent : Outline) (name : String) :
    List Outline → List Outline.Descent
  | [] => []
  | node :: others =>
    node.descents ++ ⟨parent, name, node⟩ :: Outline.descentsAll parent name others

end

mutual

/-- The same nodes, each reached by a relation of its own. -/
def Outline.flattened : Outline → Outline
  | .node kind value relations => .node kind value (Relation.flattenedAll relations)

/-- A relation for every node that a relation leads to. -/
def Relation.flattened : Relation → List Relation
  | .child name node => [.child name node.flattened]
  | .children name nodes => Outline.flattenedAll name nodes

def Relation.flattenedAll : List Relation → List Relation
  | [] => []
  | relation :: others => relation.flattened ++ Relation.flattenedAll others

def Outline.flattenedAll (name : String) : List Outline → List Relation
  | [] => []
  | node :: others => .child name node.flattened :: Outline.flattenedAll name others

end

end SheetLang
