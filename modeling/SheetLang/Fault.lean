/-!
# Faults

The two ways in which a source is refused.  Reading a source stops at its
first fault, so there is never more than one of them.
-/

namespace SheetLang

/-- Why a source is refused. -/
inductive Fault where
  /-- No token starts at this character. -/
  | lexical (character : Char) (line : Nat)
  /-- The token with this text cannot stand where it stands. -/
  | syntactic (text : String) (line : Nat)
  deriving DecidableEq

namespace Fault

/-- The text that stands for a token where the source ends too early. -/
def endMark : String := "EOF"

def line : Fault → Nat
  | lexical _ line => line
  | syntactic _ line => line

/-- The character or the token text a fault is about. -/
def subject : Fault → String
  | lexical character _ => character.toString
  | syntactic text _ => text

/-- The message of a fault.  What the source wrote appears in it unchanged. -/
def message (fault : Fault) : String :=
  match fault with
  | lexical _ line => "Illegal character '" ++ fault.subject ++ "' at line " ++ toString line
  | syntactic _ line => toString line ++ ":Syntax Error (token:'" ++ fault.subject ++ "')"

/-- A fault so many lines further down. -/
def down (lines : Nat) : Fault → Fault
  | lexical character line => lexical character (line + lines)
  | syntactic text line => syntactic text (line + lines)

end Fault

end SheetLang
