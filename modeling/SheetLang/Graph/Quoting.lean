import SheetLang.Graph

/-!
# Reading labels in quotes

Behind its heading, the text of a graph has a line for every vertex and every edge.  Within
quotes a backslash takes away the meaning of the character behind it, so a label ends at the
first quote that stands behind no such backslash.
-/

namespace SheetLang.Graph

/-- The beginning of the text of a graph. -/
def heading (graph : Graph) : String :=
  (if graph.directed then "digraph " else "graph ") ++ graph.name ++ " \x7b"

/-- The lines of the vertices and the edges. -/
def lines (graph : Graph) : List String :=
  (graph.vertices.toList.map fun vertex => "\t" ++ vertex.render) ++
    graph.edges.toList.map fun edge => "\t" ++ edge.render

/-- What stands before the first quote that is not escaped, and what stands behind it. -/
def closing? : List Char → Option (List Char × List Char)
  | [] => none
  | '"' :: rest => some ([], rest)
  | '\\' :: escaped :: rest =>
    (closing? rest).map fun (inside, behind) => ('\\' :: escaped :: inside, behind)
  | character :: rest =>
    (closing? rest).map fun (inside, behind) => (character :: inside, behind)

/-- The characters that are meant within quotes. -/
def unescape : List Char → List Char
  | '\\' :: 'n' :: rest => '\n' :: unescape rest
  | '\\' :: escaped :: rest => escaped :: unescape rest
  | character :: rest => character :: unescape rest
  | [] => []

/-- What stands behind the first quote of a line, up to the quote that closes it. -/
def quoted? (line : String) : Option (List Char × List Char) :=
  closing? ((line.toList.dropWhile fun character => character != '"').drop 1)

/-- The label in a line. -/
def readLabel? (line : String) : Option String :=
  (quoted? line).map fun (inside, _) => String.ofList (unescape inside)

/-- A line has this label: it is one line, the first quote behind the opening one that is not
escaped closes the label, and undoing the escapes gives it back. -/
structure Quotes (line label : String) : Prop where
  single : '\n' ∉ line.toList
  closed : quoted? line = some ((escape label).toList, " ];".toList)
  read : readLabel? line = some label

end SheetLang.Graph
