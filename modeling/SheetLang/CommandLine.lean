/-!
# Command lines

The words on a command line are read from left to right.  The first fault ends
the reading, and so does a request for the version or for help, so that whatever
stands after one of these is not looked at.
-/

namespace SheetLang

namespace CommandLine

/-- What a word on the command line may ask for. -/
inductive Switch where
  | file
  | visualize
  | verbose
  | trace
  | help
  | version
  deriving DecidableEq

namespace Switch

/-- The switch behind two hyphens. -/
def ofLong? : String → Option Switch
  | "file" => some file
  | "visualize" => some visualize
  | "verbose" => some verbose
  | "trace" => some trace
  | "help" => some help
  | "version" => some version
  | _ => none

/-- The switch behind one hyphen. -/
def ofShort? : Char → Option Switch
  | 'f' => some file
  | 'v' => some verbose
  | 't' => some trace
  | 'h' => some help
  | 'V' => some version
  | _ => none

def takesValue : Switch → Bool
  | file | visualize => true
  | verbose | trace | help | version => false

end Switch

/-- What has been asked for so far. -/
structure Options where
  file : Option String
  visualize : Option String
  verbose : Bool
  trace : Bool
  deriving DecidableEq

def Options.initial : Options :=
  ⟨none, none, false, false⟩

/-- Why the reading ends early. -/
inductive Stop where
  | help
  | version
  /-- There is no such switch. -/
  | unknown
  /-- A word belongs to no switch. -/
  | stray
  /-- A switch is given twice. -/
  | repeated (switch : Switch)
  /-- A switch has no value. -/
  | missingValue (switch : Switch)
  /-- A switch has a value that does not belong to it. -/
  | needlessValue (switch : Switch)
  /-- No file is named. -/
  | missingFile
  deriving DecidableEq

namespace Options

/-- Turns a switch without a value on. -/
def turnOn (options : Options) (switch : Switch) : Except Stop Options :=
  match switch with
  | .verbose =>
    if options.verbose then .error (.repeated switch) else .ok { options with verbose := true }
  | .trace =>
    if options.trace then .error (.repeated switch) else .ok { options with trace := true }
  | .help => .error .help
  | .version => .error .version
  | .file | .visualize => .error (.missingValue switch)

def set (options : Options) (switch : Switch) (value : String) : Except Stop Options :=
  match switch with
  | .file =>
    if options.file.isSome then .error (.repeated switch)
    else .ok { options with file := some value }
  | .visualize =>
    if options.visualize.isSome then .error (.repeated switch)
    else .ok { options with visualize := some value }
  | .verbose | .trace | .help | .version => .error (.needlessValue switch)

/-- Gives a switch the value that stands in the same word. -/
def setWithin (options : Options) (switch : Switch) (value : List Char) :
    Except Stop (Options × Option Switch) := do
  return (← options.set switch (String.ofList value), none)

/-- Reads the letters behind one hyphen.  What stands behind a letter that takes
a value is the value, without an equals sign at its front; if nothing stands
there, the switch waits for the next word. -/
def readLetters (options : Options) : List Char → Except Stop (Options × Option Switch)
  | [] => .ok (options, none)
  | letter :: others =>
    match Switch.ofShort? letter with
    | none => .error .unknown
    | some switch =>
      if switch.takesValue then
        match others with
        | [] => .ok (options, some switch)
        | '=' :: value => options.setWithin switch value
        | value => options.setWithin switch value
      else
        match options.turnOn switch with
        | .ok options => options.readLetters others
        | .error stop => .error stop

/-- Reads the name behind two hyphens, which may have a value behind an equals
sign; if a value is missing, the switch waits for the next word. -/
def readName (options : Options) (word : List Char) : Except Stop (Options × Option Switch) :=
  let name := String.ofList (word.takeWhile (· != '='))
  match Switch.ofLong? name, word.dropWhile (· != '=') with
  | none, _ => .error .unknown
  | some switch, _ :: value =>
    if switch.takesValue then options.setWithin switch value
    else .error (.needlessValue switch)
  | some switch, [] =>
    if switch.takesValue then .ok (options, some switch)
    else do return (← options.turnOn switch, none)

/-- Whether a word may be a value: words with a hyphen in front are switches, but
a lone hyphen is not. -/
def isValue (word : String) : Bool :=
  match word.toList with
  | '-' :: _ :: _ => false
  | _ => true

/-- Reads a word that is not a value.  Two hyphens alone only end the switches. -/
def readSwitch (options : Options) (word : List Char) : Except Stop (Options × Option Switch) :=
  match word with
  | ['-', '-'] => .ok (options, none)
  | '-' :: '-' :: name => options.readName name
  | '-' :: letter :: letters => options.readLetters (letter :: letters)
  | _ => .error .stray

/-- Reads words, the first of which may be the value of a switch before them. -/
def readWords (options : Options) (waiting : Option Switch) :
    List String → Except Stop Options
  | [] =>
    match waiting with
    | none => .ok options
    | some switch => .error (.missingValue switch)
  | word :: others =>
    match waiting with
    | some switch =>
      if isValue word then
        match options.set switch word with
        | .ok options => options.readWords none others
        | .error stop => .error stop
      else .error (.missingValue switch)
    | none =>
      if word = "--" ∧ others ≠ [] then .error .stray
      else
        match options.readSwitch word.toList with
        | .ok (options, waiting) => options.readWords waiting others
        | .error stop => .error stop

end Options

/-- What a complete command line asks to be done with a file. -/
structure Request where
  file : String
  visualize : Option String
  verbose : Bool
  trace : Bool
  deriving DecidableEq

/-- The request that a command line makes, or why there is none. -/
def Request.ofWords (words : List String) : Except Stop Request := do
  let options ← Options.initial.readWords none words
  match options.file with
  | some file => return ⟨file, options.visualize, options.verbose, options.trace⟩
  | none => throw .missingFile

end CommandLine

end SheetLang
