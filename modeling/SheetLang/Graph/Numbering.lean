import SheetLang.Graph.Drawing
import SheetLang.Outline.Branches

/-!
# Numbered outlines

In a numbered outline every node has the name of a vertex for its value: names are given in
the order in which the nodes come before what is below them.  So the places of nodes in
drawings can be told, even of nodes that look alike.
-/

namespace SheetLang

open Graph

mutual

/-- The outline with names for values, when so many nodes have got theirs. -/
def Outline.numbered (before : Nat) : Outline → Outline
  | .node kind _ relations =>
    .node kind (some (vertexName (before + 1))) (Relation.numberedAll (before + 1) relations)

def Relation.numbered (before : Nat) : Relation → Relation
  | .child name node => .child name (node.numbered before)
  | .children name nodes => .children name (Outline.numberedAll before nodes)

def Relation.numberedAll (before : Nat) : List Relation → List Relation
  | [] => []
  | relation :: others =>
    relation.numbered before ::
      Relation.numberedAll (before + relation.preorder.length) others

def Outline.numberedAll (before : Nat) : List Outline → List Outline
  | [] => []
  | node :: others =>
    node.numbered before :: Outline.numberedAll (before + node.size) others

end

mutual

/-- The outline without values. -/
def Outline.blank : Outline → Outline
  | .node kind _ relations => .node kind none (Relation.blankAll relations)

def Relation.blank : Relation → Relation
  | .child name node => .child name node.blank
  | .children name nodes => .children name (Outline.blankAll nodes)

def Relation.blankAll : List Relation → List Relation
  | [] => []
  | relation :: others => relation.blank :: Relation.blankAll others

def Outline.blankAll : List Outline → List Outline
  | [] => []
  | node :: others => node.blank :: Outline.blankAll others

end

namespace Outline

/-- The name that the topmost node of a numbered outline has got. -/
def vertex (outline : Outline) : String :=
  outline.value?.getD ""

/-- The names that the nodes of a numbered outline have got. -/
def vertices (outline : Outline) : List String :=
  outline.preorder.map vertex

/-- The edge for a descent within a numbered outline. -/
def Descent.edge (directed : Bool) (descent : Descent) : Edge :=
  ⟨descent.parent.vertex, descent.child.vertex, some descent.relation, directed⟩

/-- The graph of one outline. -/
def drawn (name : String) (directed : Bool) (outline : Outline) : Graph :=
  (outline.draw (empty name directed)).2

/-- Draws outlines one after the other.  Gives for each of them the name of its topmost
vertex and the number of vertices drawn so far. -/
def drawEach : List Outline → Graph → List (String × Nat) × Graph
  | [], graph => ([], graph)
  | outline :: others, graph =>
    let (name, graph) := outline.draw graph
    let (calls, last) := drawEach others graph
    ((name, graph.vertices.size) :: calls, last)

end Outline

/-- A graph shows outlines, one after the other: it has a vertex for every node and an edge
for every descent, and nothing else. -/
structure Graph.Shows (graph : Graph) (outlines : List Outline) : Prop where
  /-- The vertices have the names from the first on. -/
  names : graph.vertices.toList.map Vertex.name =
    (List.range' 1 (Outline.total outlines)).map vertexName
  /-- No name is used twice. -/
  distinct : (graph.vertices.toList.map Vertex.name).Nodup
  /-- The nodes of the numbered outlines have these names, in the same order. -/
  numbering : (Outline.numberedAll 0 outlines).flatMap Outline.vertices =
    graph.vertices.toList.map Vertex.name
  /-- The vertices carry the labels of the nodes, each node before those below it. -/
  labels : graph.vertices.toList.map Vertex.label =
    (outlines.flatMap Outline.preorder).map fun node => some node.label
  /-- There is one edge for every node that is not topmost. -/
  count : graph.edges.size + outlines.length = Outline.total outlines
  /-- The edges lead from every node to those right below it, with the names of the
  relations. -/
  edges : graph.edges.toList.Perm
    ((((Outline.numberedAll 0 outlines).flatMap Outline.preorder).flatMap Outline.steps).map
      (Outline.Descent.edge graph.directed))
  /-- They are in the order in which the nodes come behind what is below them. -/
  targets : graph.edges.toList.map Edge.target =
    (Outline.numberedAll 0 outlines).flatMap fun outline =>
      outline.postorder.dropLast.map Outline.vertex
  /-- No edge leads from one outline to another. -/
  apart : ∀ edge ∈ graph.edges, ∀ outline ∈ Outline.numberedAll 0 outlines,
    edge.source ∈ outline.vertices ↔ edge.target ∈ outline.vertices
  /-- The edges are directed if the graph is. -/
  arrows : ∀ edge ∈ graph.edges, edge.directed = graph.directed

end SheetLang
