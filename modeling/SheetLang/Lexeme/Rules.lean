import SheetLang.Lexeme

/-!
# Rules for lexemes

What stands at a place of a source, said by the shapes of tokens: the longest text at
the place that any shape admits, whatever comes after it.  Blanks and comments are
passed over before shapes are looked at.

Two shapes may admit the same longest text.  Reserved words come before names, and of
the families in capitals coordinates come first and functions last.
-/

namespace SheetLang

/-- A kind admits so many characters at the front of a text. -/
def Matches (text : List Char) (kind : Token.Kind) (length : Nat) : Prop :=
  0 < length ∧ length ≤ text.length ∧ kind.admits (text.take length) = true

/-- Which kind wins where two of them admit the same text. -/
def Token.Kind.beats : Token.Kind → Token.Kind → Bool
  | .keyword _, .ident => true
  | .coordinate, .sheetName => true
  | .coordinate, .funcName => true
  | .sheetName, .funcName => true
  | _, _ => false

/-- The longest text at the front that any kind admits, and the kind that wins. -/
structure Wins (text : List Char) (kind : Token.Kind) (length : Nat) : Prop where
  matching : Matches text kind length
  longest : ∀ other size, Matches text other size → size ≤ length
  preferred : ∀ other, Matches text other length → other = kind ∨ kind.beats other = true

/-- The token at the front of a text.  Inequality is the exception: it wins even where
an info string would be longer. -/
inductive Munches (text : List Char) : Token.Kind → Nat → Prop where
  | notEqual : ['!', '='] <+: text → Munches text (.symbol .notEqual) 2
  | longest : ¬['!', '='] <+: text → Wins text kind length → Munches text kind length

/-- Three dots behind the first three of a text end so many characters from its front,
on its first line. -/
def Closes (text : List Char) (length : Nat) : Prop :=
  6 ≤ length ∧ length ≤ text.length ∧ ['.', '.', '.'] <:+ text.take length ∧
    '\n' ∉ text.take length

/-- A comment at the front of a text: from three dots to the last three of the line. -/
def Comment (text : List Char) (length : Nat) : Prop :=
  ['.', '.', '.'] <+: text ∧ Closes text length ∧
    ∀ other, Closes text other → other ≤ length

/-- The characters between lexemes. -/
def IsBlank (character : Char) : Prop :=
  character = ' ' ∨ character = '\r' ∨ character = '\n'

instance (character : Char) : Decidable (IsBlank character) :=
  inferInstanceAs (Decidable (_ ∨ _ ∨ _))

/-- What stands at the front of a text. -/
inductive Stands : List Char → Lexeme → Prop where
  | blank : IsBlank character → Stands (character :: rest) (.gap [character])
  | comment : Comment text length → Stands text (.gap (text.take length))
  | token : (∀ length, ¬Comment text length) → Munches text kind length →
      Stands text (.token kind (text.take length))
  | illegal : ¬IsBlank character →
      (∀ kind length, ¬Matches (character :: rest) kind length) →
      Stands (character :: rest) (.illegal character rest)

/-- Texts that can be read as a token of a kind: no kind that wins against it admits
them, and an info string does not begin like an inequality. -/
def Token.Kind.Legible (kind : Token.Kind) (text : List Char) : Prop :=
  kind.admits text = true ∧ (∀ other : Token.Kind, other.beats kind = true →
    other.admits text = false) ∧ (kind = .info → ¬['!', '='] <+: text)

/-- The kind and the text of a token. -/
def Lexeme.token? : Lexeme → Option (Token.Kind × List Char)
  | token kind text => some (kind, text)
  | gap _ | illegal _ _ => none

/-- The character at which no lexeme starts. -/
def Lexeme.illegal? : Lexeme → Option Char
  | illegal character _ => some character
  | gap _ | token _ _ => none

end SheetLang
