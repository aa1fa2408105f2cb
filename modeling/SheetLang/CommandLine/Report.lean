import SheetLang.CommandLine.Run
import SheetLang.Graph.Numbering

/-!
# Reports

What the reports of a run are measured by: the source and the program that it reads, the
lexical fault that stands behind a token at which the parser gives up, and the lines of what
is printed and drawn.
-/

namespace SheetLang

/-- The words that the name of a kind is put together from, in lower case. -/
def Outline.Kind.words : Outline.Kind → List String
  | program => ["program"]
  | scalarDefinition => ["scalar", "definition"]
  | rangeDefinition => ["range", "definition"]
  | sheetDefinition => ["sheet", "definition"]
  | sheetInit => ["sheet", "init"]
  | sheetRow => ["sheet", "row"]
  | functionDefinition => ["function", "definition"]
  | subroutineDefinition => ["subroutine", "definition"]
  | formalArg => ["formal", "arg"]
  | typeName => ["type", "name"]
  | assignment => ["assignment"]
  | branch => ["if"]
  | loop => ["while"]
  | traverse => ["for"]
  | returnValue => ["return"]
  | print => ["print"]
  | subroutineCall => ["subroutine", "call"]
  | functionCall => ["function", "call"]
  | cellRef => ["cell", "ref"]
  | rangeExpression => ["range", "expression"]
  | binaryOp => ["binary", "op"]
  | unaryOp => ["unary", "op"]
  | rangeCount => ["range", "count"]
  | operator => ["operator"]
  | ident => ["ident"]
  | decimal => ["decimal"]
  | int => ["int"]
  | infoString => ["info", "string"]

namespace CommandLine

/-- The text of a file, if it can be read and is a text. -/
def Surroundings.source? (surroundings : Surroundings) (file : String) : Option String :=
  match surroundings.read file with
  | .ok bytes => String.fromUTF8? bytes
  | .error _ => none

/-- The program in a file, if there is one. -/
def Surroundings.program? (surroundings : Surroundings) (file : String) : Option Program :=
  (surroundings.source? file).bind fun source => (Program.ofSource source).toOption

/-- The run of a request with these switches that takes so long. -/
def runWith (overflow : Overflow) (surroundings : Surroundings) (request : Request)
    (verbose trace : Bool) (elapsed : String) : Outcome :=
  runRequest overflow { surroundings with elapsed := elapsed }
    { request with verbose := verbose, trace := trace }

/-- The fault that is reported of a source that the parser refuses for a fault. -/
def reported (verbose : Bool) (source : String) (fault : Fault) : Fault :=
  if verbose then (TokenStream.ofSource source).fault.getD fault else fault

/-- What is printed of a source that the parser refuses. -/
def listing (verbose : Bool) (source : String) : String :=
  if verbose && (TokenStream.ofSource source).fault.isNone then
    tokensText (TokenStream.ofSource source).tokens
  else
    ""

/-- The parser gives up at a token of the source, and behind the tokens there is this fault. -/
def FaultBehind (source : String) (fault : Fault) : Prop :=
  (TokenStream.ofSource source).fault = some fault ∧
    ∃ token ∈ (TokenStream.ofSource source).tokens,
      Program.ofSource source = .error (.syntactic token.text token.line)

def linesOf (text : String) : List String :=
  (text.toList.splitOn '\n').map String.ofList

/-- The line for a node with a number. -/
def vertexLine (node : Outline) (number : Nat) : String :=
  "\tnode" ++ toString number ++ " [ label=\"" ++ Graph.escape node.label ++ "\" ];"

/-- The line for the way between two nodes that have got names. -/
def edgeLine (descent : Outline.Descent) : String :=
  "\t" ++ descent.parent.vertex ++ " -> " ++ descent.child.vertex ++ " [ label=\"" ++
    Graph.escape descent.relation ++ "\" ];"

/-- The lines of a drawing: a heading, a line for every node, with numbers in the order in
which each node comes before those below it, a line for every node below another, in the order
in which each comes behind those below it, and a brace. -/
def drawingLines (outline : Outline) : List String :=
  "digraph ast \x7b" ::
    ((outline.preorder.zipIdx 1).map (fun (node, number) => vertexLine node number) ++
      (outline.numbered 0).descents.map edgeLine ++ ["\x7d"])

end CommandLine

end SheetLang
