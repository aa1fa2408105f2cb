import SheetLang.Graph.Drawing

/-!
# Visualizers

A visualizer draws outlines into its graph and numbers the vertices with a counter of 32 bits.
The counter is moved on before a vertex is added.  What becomes of it behind its last number
is up to the way the program is built.
-/

namespace SheetLang

open Graph

/-- What moving a counter of 32 bits on from its last number comes to. -/
inductive Overflow where
  /-- It begins again at zero. -/
  | wraps
  /-- The program stops with this report. -/
  | stops (report : String)

/-- Moves a counter on by one. -/
def Overflow.next (overflow : Overflow) (counter : UInt32) : Except String UInt32 :=
  match overflow with
  | .wraps => .ok (counter + 1)
  | .stops report =>
    if counter.toNat + 1 < UInt32.size then .ok (counter + 1) else .error report

/-- A graph, and the number of the vertex that is added to it next. -/
structure Visualizer where
  counter : UInt32
  graph : Graph

namespace Visualizer

def new (name : String) (directed : Bool) : Visualizer :=
  ⟨1, Graph.empty name directed⟩

/-- Adds a vertex with a label and gives its name. -/
def addVertex (overflow : Overflow) (label : String) (visualizer : Visualizer) :
    Except String (String × Visualizer) := do
  let name := vertexName visualizer.counter.toNat
  let counter ← overflow.next visualizer.counter
  return (name, ⟨counter, visualizer.graph.addVertex ⟨name, some label⟩⟩)

/-- Adds an edge in the direction of the graph. -/
def addEdge (source target label : String) (visualizer : Visualizer) : Visualizer :=
  { visualizer with graph := visualizer.graph.connect source target label }

end Visualizer

mutual

/-- Draws an outline and gives the name of its topmost vertex. -/
def Outline.visualize (overflow : Overflow) :
    Outline → Visualizer → Except String (String × Visualizer)
  | .node kind value relations, visualizer => do
    let (name, visualizer) ← visualizer.addVertex overflow (Outline.node kind value []).label
    let visualizer ← Relation.visualizeAll overflow name relations visualizer
    return (name, visualizer)

/-- Draws what a relation leads to, below the vertex of this name. -/
def Relation.visualize (overflow : Overflow) (parent : String) :
    Relation → Visualizer → Except String Visualizer
  | .child label node, visualizer => do
    let (name, visualizer) ← node.visualize overflow visualizer
    return visualizer.addEdge parent name label
  | .children label nodes, visualizer =>
    Outline.visualizeAll overflow parent label nodes visualizer

/-- Draws what relations lead to, below the vertex of this name. -/
def Relation.visualizeAll (overflow : Overflow) (parent : String) :
    List Relation → Visualizer → Except String Visualizer
  | [], visualizer => return visualizer
  | relation :: others, visualizer => do
    let visualizer ← Relation.visualize overflow parent relation visualizer
    Relation.visualizeAll overflow parent others visualizer

/-- Draws the members of a relation, below the vertex of this name. -/
def Outline.visualizeAll (overflow : Overflow) (parent label : String) :
    List Outline → Visualizer → Except String Visualizer
  | [], visualizer => return visualizer
  | node :: others, visualizer => do
    let (name, visualizer) ← node.visualize overflow visualizer
    Outline.visualizeAll overflow parent label others (visualizer.addEdge parent name label)

end

namespace Visualizer

/-- Draws outlines one after the other.  Gives for each of them the name of its topmost
vertex and the number of vertices drawn so far. -/
def visualizeEach (overflow : Overflow) :
    List Outline → Visualizer → Except String (List (String × Nat) × Visualizer)
  | [], visualizer => return ([], visualizer)
  | outline :: others, visualizer => do
    let (name, visualizer) ← outline.visualize overflow visualizer
    let (calls, last) ← visualizeEach overflow others visualizer
    return ((name, visualizer.graph.vertices.size) :: calls, last)

end Visualizer

end SheetLang
