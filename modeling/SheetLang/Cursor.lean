import SheetLang.TokenStream

/-!
# Cursors

A cursor keeps its place in a source twice: as the characters that are left, and as the
number of bytes in front of them.  Characters are passed over one at a time; texts are cut
out of the source between two numbers of bytes.

A scan moves a cursor and takes notes on the way.  It breaks off, without any result, where
a text is cut within a character or beyond its end, and where a loop would not end.
-/

namespace SheetLang

/-- The text between two places, counted in bytes, if they lie between characters of the
text and in this order. -/
def between? (text : String) (first last : Nat) : Option String :=
  if valid : String.Pos.Raw.IsValid text ⟨first⟩ ∧ String.Pos.Raw.IsValid text ⟨last⟩ ∧
      first ≤ last then
    some (text.extract (text.pos ⟨first⟩ valid.1) (text.pos ⟨last⟩ valid.2.1))
  else
    none

/-- A place in a source. -/
structure Cursor where
  source : String
  /-- The characters that are still to be passed over. -/
  left : List Char
  line : Nat
  /-- Where the piece of the source that is read starts, in bytes. -/
  start : Nat
  /-- Where the characters that are left start, in bytes. -/
  offset : Nat
  /-- Whether a fault was found. -/
  failed : Bool

namespace Cursor

def ofSource (source : String) : Cursor :=
  ⟨source, source.toList, 1, 0, 0, false⟩

/-- The bytes of the piece so far.  There is no such number if it starts behind the
cursor. -/
def width? (cursor : Cursor) : Option Nat :=
  if cursor.start ≤ cursor.offset then some (cursor.offset - cursor.start) else none

/-- The place behind some characters. -/
def past (cursor : Cursor) (text : List Char) : Cursor :=
  { cursor with
    left := cursor.left.drop text.length
    offset := cursor.offset + Reader.byteSize text }

/-- The same place some lines further down. -/
def down (cursor : Cursor) (lines : Nat) : Cursor :=
  { cursor with line := cursor.line + lines }

/-- A piece starts here. -/
def begun (cursor : Cursor) : Cursor :=
  { cursor with start := cursor.offset }

/-- A fault was found here. -/
def stopped (cursor : Cursor) : Cursor :=
  { cursor with failed := true }

end Cursor

/-- What is noted on the way. -/
inductive Note where
  /-- The cursor was moved here. -/
  | point (cursor : Cursor)
  /-- A loop that was to go on to a number of bytes ended at another. -/
  | stop (target reached : Nat)
  /-- A text was cut in two behind so many bytes. -/
  | cut (text : String) (place : Nat)
  /-- A piece of the source was read from one place to another. -/
  | piece (before after : Cursor)

/-- A cursor and the notes on its way. -/
structure Way where
  cursor : Cursor
  notes : List Note

def Way.ofSource (source : String) : Way :=
  ⟨.ofSource source, [.point (.ofSource source)]⟩

/-- Goes on with a way, and gives a value unless it breaks off. -/
abbrev Scan := StateT Way Option

namespace Scan

def here : Scan Cursor :=
  fun way => some (way.cursor, way)

def note (taken : Note) : Scan Unit :=
  fun way => some ((), ⟨way.cursor, way.notes ++ [taken]⟩)

def moveTo (cursor : Cursor) : Scan Unit :=
  fun way => some ((), ⟨cursor, way.notes ++ [.point cursor]⟩)

/-- Breaks off if there is no value. -/
def require (value : Option α) : Scan α :=
  fun way => value.map fun value => (value, way)

/-- Passes over the next character. -/
def advance : Scan (Option Char) := do
  let cursor ← here
  match cursor.left with
  | [] => return none
  | character :: _ =>
    moveTo (cursor.past [character])
    return some character

/-- Passes over the next character if it is accepted. -/
def advanceIf (accept : Char → Bool) : Scan (Option Char) := do
  match (← here).left with
  | [] => return none
  | character :: _ => if accept character then advance else return none

/-- Goes through rounds until one of them is the last, but breaks off behind so many. -/
def rounds (round : β → Scan (ForInStep β)) : Nat → β → Scan β
  | 0, _ => failure
  | bound + 1, state => do
    match ← round state with
    | .done state => return state
    | .yield state => rounds round bound state

/-- A loop.  As long as every round but the last passes over a character, there are not
more rounds than this; a loop with more of them comes back to where it was. -/
def loop (round : β → Scan (ForInStep β)) (state : β) : Scan β := do
  rounds round ((← here).left.length + 1) state

/-- Passes over accepted characters, up to the end of the line. -/
def advanceWhile (accept : Char → Bool) : Scan Unit :=
  loop (fun _ => do
    match ← advanceIf fun character => character != '\n' && accept character with
    | some _ => return .yield ()
    | none => return .done ()) ()

/-- Passes over the next character if a count of bytes is below a target. -/
def approach (count : Cursor → Option Nat) (target : Nat) : Scan (ForInStep Unit) := do
  if (← require (count (← here))) < target then
    let _ ← advance
    return .yield ()
  else
    return .done ()

/-- Passes over characters as long as a count of bytes is below a target. -/
def skip (count : Cursor → Option Nat) (target : Nat) : Scan Unit := do
  loop (fun _ => approach count target) ()
  note (.stop target (← require (count (← here))))

end Scan

end SheetLang
