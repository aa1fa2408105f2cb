import SheetLang.Graph
import SheetLang.Outline

/-!
# Drawings of outlines

A drawing has one vertex for every node of an outline, numbered in the order in
which the nodes come before what is below them, and one edge from every node to
each of the nodes right below it, labelled with the name of the relation.  The
edge to a node is added after everything below that node.  Several outlines may
be drawn into one graph; the numbers run on.
-/

namespace SheetLang

namespace Graph

/-- The name of the vertex with a number, counting from 1. -/
def vertexName (number : Nat) : String :=
  "node" ++ toString number

/-- Adds a vertex with the next number and gives its name. -/
def addNode (graph : Graph) (label : String) : String × Graph :=
  let name := vertexName (graph.vertices.size + 1)
  (name, graph.addVertex ⟨name, some label⟩)

/-- Adds an edge in the direction of the graph. -/
def connect (graph : Graph) (source target label : String) : Graph :=
  graph.addEdge ⟨source, target, some label, graph.directed⟩

end Graph

mutual

/-- Draws an outline into a graph and gives the name of its topmost vertex. -/
def Outline.draw : Outline → Graph → String × Graph
  | .node kind value relations, graph =>
    let (name, graph) := graph.addNode (Outline.node kind value []).label
    (name, Relation.drawAll name relations graph)

/-- Draws what a relation leads to, below the vertex of this name. -/
def Relation.draw (parent : String) : Relation → Graph → Graph
  | .child label node, graph =>
    let (name, graph) := node.draw graph
    graph.connect parent name label
  | .children label nodes, graph => Outline.drawAll parent label nodes graph

/-- Draws what relations lead to, below the vertex of this name. -/
def Relation.drawAll (parent : String) : List Relation → Graph → Graph
  | [], graph => graph
  | relation :: others, graph =>
    Relation.drawAll parent others (Relation.draw parent relation graph)

/-- Draws the members of a relation, below the vertex of this name. -/
def Outline.drawAll (parent label : String) : List Outline → Graph → Graph
  | [], graph => graph
  | node :: others, graph =>
    let (name, graph) := node.draw graph
    Outline.drawAll parent label others (graph.connect parent name label)

end

end SheetLang
