import SheetLang.CommandLine
import SheetLang.Graph.Visualizer
import SheetLang.Parser.Program
import SheetLang.Program.Outline

/-!
# Runs of the program

A run reads a source file and reports its first fault.  On request it lists the
tokens and the outline, lists the nodes, and draws the outline: as a file in the
DOT language and, with the help of a drawing tool, as a picture.

A run is a function of what the surroundings answer: the content of the file,
where files can be created, what the drawing tool does, and how long it took.
-/

namespace SheetLang.CommandLine

namespace Tool

/-- How a process ends. -/
inductive Status where
  | exited (code : Nat)
  /-- It is ended by this signal. -/
  | ended (signal : String)

/-- Only an exit code of zero is a success. -/
def Status.success : Status → Bool
  | exited code => code == 0
  | ended _ => false

def Status.text : Status → String
  | exited code => "exit status: " ++ toString code
  | ended signal => "signal: " ++ signal

/-- A drawing tool that has been started, by what it does with the text of a graph. -/
structure Process where
  /-- Why the text cannot be written to it, if so. -/
  refusal : (text : String) → Option String
  /-- How it ends after that, or why this cannot be waited for. -/
  ending : (text : String) → Except String Status
  /-- What it leaves in the file for the picture, if anything. -/
  picture : (text : String) → Option String

/-- Writes a text to a drawing tool and waits for its end.  Fails with the reason. -/
def Process.feed (process : Process) (text : String) : Except String Unit :=
  match process.refusal text with
  | some reason => .error reason
  | none =>
    match process.ending text with
    | .error reason => .error reason
    | .ok status => if status.success then .ok () else .error ("dot exited with " ++ status.text)

end Tool

/-- The drawing tool: it is started for the file of this name, or cannot be for some reason. -/
structure Tool where
  start : (name : String) → Except String Tool.Process

namespace Tool

/-- There is none, and starting it fails for this reason. -/
def absent (reason : String) : Tool :=
  ⟨fun _ => .error reason⟩

/-- It ends with this exit status and draws nothing. -/
def failing (status : Nat) : Tool :=
  ⟨fun _ => .ok ⟨fun _ => none, fun _ => .ok (.exited status), fun _ => none⟩⟩

/-- It makes a picture of every graph. -/
def drawing (picture : String → String) : Tool :=
  ⟨fun _ => .ok ⟨fun _ => none, fun _ => .ok (.exited 0), fun text => some (picture text)⟩⟩

/-- Lets the tool make a picture of the text of a graph.  Gives the picture, if there is one,
and the reason of a failure. -/
def run (tool : Tool) (name text : String) : Option String × Except String Unit :=
  match tool.start name with
  | .error reason => (none, .error reason)
  | .ok process => (process.picture text, process.feed text)

end Tool

/-- What a run depends on. -/
structure Surroundings where
  /-- The content of a file, or why it cannot be read. -/
  read : String → Except String ByteArray
  /-- Why a file cannot be created, if so. -/
  creationFault : String → Option String
  tool : Tool
  /-- The time a run takes. -/
  elapsed : String

/-- What a run leaves behind, apart from what the drawing tool has to say itself. -/
structure Outcome where
  code : Nat
  stdout : String
  stderr : String
  /-- The files that are written, with their contents. -/
  files : List (String × String)
  deriving DecidableEq

def line (text : String) : String :=
  text ++ "\n"

/-- A run that ends with a fault before anything is done. -/
def Outcome.fault (message : String) : Outcome :=
  ⟨1, "", line message, []⟩

/-- A capitalised name in lower case, with underscores between its words. -/
def snakeCase (name : String) : String :=
  let lowered := name.toList.flatMap fun character =>
    if character.isUpper then ['_', character.toLower] else [character]
  String.ofList <|
    match name.toList, lowered with
    | first :: _, _ :: others => if first.isUpper then others else lowered
    | _, _ => lowered

/-- The line for a node in the list of nodes. -/
def traceLine (node : Outline) : String :=
  line (snakeCase node.kind.name ++ "( " ++ node.value?.getD "" ++ " )")

/-- The list of nodes, each after those below it. -/
def traceText (outline : Outline) : String :=
  String.join (outline.postorder.map traceLine)

def tokensText (tokens : List Token) : String :=
  line "Tokens:" ++ String.join (tokens.map fun token => line ("\t" ++ token.render))

/-- The outline and the time it took. -/
def outlineText (outline : Outline) (elapsed : String) : String :=
  line "AST:" ++ line ("\t" ++ outline.render) ++
    line ("\ntook \x1b[32;40m" ++ elapsed ++ "\x1b[0m")

/-- The drawing of an outline in the DOT language, unless the counter of its vertices stops. -/
def dotText (overflow : Overflow) (outline : Outline) : Except String String := do
  let (_, visualizer) ← outline.visualize overflow (.new "ast" true)
  return visualizer.graph.render

/-- Writes a drawing into the files that belong to a path.  Gives the files that are written,
and the reason if not all of this succeeds. -/
def writeDrawing (surroundings : Surroundings) (path text : String) :
    List (String × String) × Except String Unit :=
  let drawing := path ++ ".dot"
  match surroundings.creationFault drawing with
  | some reason => ([], .error reason)
  | none =>
    let name := path ++ ".pdf"
    let (picture, result) := surroundings.tool.run name text
    ((drawing, text) :: (picture.map (name, ·)).toList, result)

/-- The part of a run that draws the outline if this is asked for. -/
def draw (overflow : Overflow) (surroundings : Surroundings) (request : Request)
    (outline : Outline) : Outcome :=
  match request.visualize with
  | none => ⟨0, "", "", []⟩
  | some path =>
    match dotText overflow outline with
    | .error report => ⟨101, "", line report, []⟩
    | .ok text =>
      match writeDrawing surroundings path text with
      | (files, .ok ()) => ⟨0, "", "", files⟩
      | (files, .error reason) => ⟨1, "", line reason, files⟩

/-- The run on a source.  A list of all tokens is made before the source is
parsed, so that a lexical fault anywhere comes first then. -/
def runSource (overflow : Overflow) (surroundings : Surroundings) (request : Request)
    (source : String) : Outcome :=
  let stream := TokenStream.ofSource source
  match (if request.verbose then stream.fault else none) with
  | some fault => .fault fault.message
  | none =>
    let listing := if request.verbose then tokensText stream.tokens else ""
    match stream.parse with
    | .error fault => ⟨1, listing, line fault.message, []⟩
    | .ok program =>
      let outline := program.outline
      let stdout :=
        if request.verbose then listing ++ outlineText outline surroundings.elapsed else listing
      let nodes := if request.trace then traceText outline else ""
      let drawn := draw overflow surroundings request outline
      { drawn with stdout := stdout, stderr := nodes ++ drawn.stderr }

/-- The run that a request asks for. -/
def runRequest (overflow : Overflow) (surroundings : Surroundings) (request : Request) :
    Outcome :=
  match surroundings.read request.file with
  | .error reason => .fault (reason ++ ": " ++ request.file)
  | .ok bytes =>
    match String.fromUTF8? bytes with
    | none => .fault ("stream did not contain valid UTF-8: " ++ request.file)
    | some source => runSource overflow surroundings request source

def versionText : String := line "SheetScript 1.0.0"

def usageText : String :=
  line "Usage: SheetScript [OPTIONS] --file <FILE>" ++
  line "" ++
  line "Options:" ++
  line "  -f, --file <FILE>       The source file" ++
  line "  -v, --verbose           List the tokens and the outline" ++
  line "  -t, --trace             List the nodes" ++
  line "      --visualize <PATH>  Draw the outline" ++
  line "  -h, --help              Show this text" ++
  line "  -V, --version           Show the version"

/-- The run that the words of a command line ask for, in a build that does not stop where a
counter ends. -/
def run (surroundings : Surroundings) (words : List String) : Outcome :=
  match Request.ofWords words with
  | .ok request => runRequest .wraps surroundings request
  | .error .version => ⟨0, versionText, "", []⟩
  | .error .help => ⟨0, usageText, "", []⟩
  | .error _ => ⟨2, "", usageText, []⟩

end SheetLang.CommandLine
