/-!
# Graphs

Graphs with labels, and their text in the DOT language: one line for every
vertex, then one for every edge, in the order in which they were added.  Names
appear as they are; labels stand in quotes and are escaped.
-/

namespace SheetLang

namespace Graph

/-- A vertex with a name and perhaps a label. -/
structure Vertex where
  name : String
  label : Option String
  deriving DecidableEq

structure Edge where
  source : String
  target : String
  label : Option String
  directed : Bool
  deriving DecidableEq

/-- How a character is written within quotes. -/
def escapeChar : Char → List Char
  | '"' => ['\\', '"']
  | '\\' => ['\\', '\\']
  | '\n' => ['\\', 'n']
  | character => [character]

/-- A label as it is written within quotes. -/
def escape (label : String) : String :=
  String.ofList (label.toList.flatMap escapeChar)

/-- The end of a line, with the label if there is one. -/
def renderLabel : Option String → String
  | some label => " [ label=\"" ++ escape label ++ "\" ];"
  | none => ";"

def Vertex.render (vertex : Vertex) : String :=
  vertex.name ++ renderLabel vertex.label

def Edge.render (edge : Edge) : String :=
  edge.source ++ (if edge.directed then " -> " else " -- ") ++ edge.target ++
    renderLabel edge.label

end Graph

structure Graph where
  name : String
  directed : Bool
  vertices : Array Graph.Vertex
  edges : Array Graph.Edge
  deriving DecidableEq

namespace Graph

/-- A graph without vertices and edges. -/
def empty (name : String) (directed : Bool) : Graph :=
  ⟨name, directed, #[], #[]⟩

def addVertex (graph : Graph) (vertex : Vertex) : Graph :=
  { graph with vertices := graph.vertices.push vertex }

def addEdge (graph : Graph) (edge : Edge) : Graph :=
  { graph with edges := graph.edges.push edge }

/-- A line within the braces of a graph. -/
def renderLine (text : String) : String :=
  "\t" ++ text ++ "\n"

def render (graph : Graph) : String :=
  (if graph.directed then "digraph " else "graph ") ++ graph.name ++ " \x7b\n" ++
    String.join (graph.vertices.toList.map fun vertex => renderLine vertex.render) ++
    String.join (graph.edges.toList.map fun edge => renderLine edge.render) ++ "\x7d"

end Graph

end SheetLang
