import SheetLang.Token.Shape

/-!
# Lexemes

A source is cut from left to right into lexemes: tokens, gaps between them
(blanks, line breaks and comments), and, where no rule applies, an illegal
rest that takes all the remaining text.  What a lexeme is and how far it
reaches depends on its first character and the text after it only, and no
lexeme but a line break reaches past the end of a line.

All rules look at ASCII characters; any other character may only stand inside
comments and info strings.
-/

namespace SheetLang

/-- What stands at a place of the source. -/
structure Extent where
  /-- The kind of token, or none for text that is skipped. -/
  kind : Option Token.Kind
  /-- The number of characters that belong to it after the first. -/
  more : Nat
  deriving DecidableEq

namespace Extent

/-- The number of characters before the first one that is not accepted. -/
def run (accept : Char → Bool) (text : List Char) : Nat :=
  (text.takeWhile accept).length

/-- Text that is skipped. -/
def skip (more : Nat) : Option Extent :=
  some ⟨none, more⟩

/-- A token of this kind. -/
def token (kind : Token.Kind) (more : Nat) : Option Extent :=
  some ⟨some kind, more⟩

/-- A symbol that is extended by an equals sign, if one follows. -/
def withEquals (long short : Symbol) : List Char → Option Extent
  | '=' :: _ => token (.symbol long) 1
  | _ => token (.symbol short) 0

/-- A number after its sign or first digit.  A point belongs to it only with a
digit behind it, and takes exactly one. -/
def number (rest : List Char) : Option Extent :=
  let digits := run Char.isDigit rest
  match rest.drop digits with
  | '.' :: digit :: _ =>
    if digit.isDigit then token .decimal (digits + 2) else token .integer digits
  | _ => token .integer digits

/-- Text up to the next exclamation mark, which has to stand on the same line. -/
def info (rest : List Char) : Option Extent :=
  let body := run Shape.isInfoChar rest
  match rest.drop body with
  | '!' :: _ => token .info (body + 1)
  | _ => none

/-- Where the last three dots in a row begin. -/
def lastEllipsis? : List Char → Option Nat
  | [] => none
  | character :: rest =>
    match lastEllipsis? rest with
    | some place => some (place + 1)
    | none =>
      match character, rest with
      | '.', '.' :: '.' :: _ => some 0
      | _, _ => none

/-- After a first dot: a comment reaches from three dots to the last three dots
of the line; otherwise two dots are a symbol, and one dot is nothing. -/
def dots : List Char → Option Extent
  | '.' :: '.' :: body =>
    match lastEllipsis? (body.takeWhile (· != '\n')) with
    | some place => skip (place + 5)
    | none => token (.symbol .dots) 1
  | '.' :: _ => token (.symbol .dots) 1
  | _ => none

/-- A range name has at least one more character after the underscore. -/
def underscored (rest : List Char) : Option Extent :=
  match run Shape.isWordChar rest with
  | 0 => none
  | more + 1 => token .rangeName (more + 1)

/-- A lower-case word has at least two characters. -/
def word (head : Char) (rest : List Char) : Option Extent :=
  match run Shape.isWordChar rest with
  | 0 => none
  | more + 1 =>
    token (.ofWord (String.ofList (head :: rest.take (more + 1)))) (more + 1)

/-- After a capital, the longest of the three capitalised forms wins: as a tie,
coordinates come before sheets and sheets before functions. -/
def capitalised (head : Char) (rest : List Char) : Option Extent :=
  let capitals := run Char.isUpper (head :: rest)
  let func := 1 + run Shape.isFuncChar rest
  let digits := run Char.isDigit ((head :: rest).drop capitals)
  let coordinate := if capitals ≤ 2 ∧ 0 < digits then capitals + min digits 3 else 0
  if capitals ≤ coordinate ∧ func ≤ coordinate then token .coordinate (coordinate - 1)
  else if func ≤ capitals then token .sheetName (capitals - 1)
  else token .funcName (func - 1)

/-- What stands at a place of the source, given the character there and the
text after it; none where no lexeme starts. -/
def of? (head : Char) (rest : List Char) : Option Extent :=
  match head with
  | ' ' | '\r' | '\n' => skip 0
  | '(' => token (.symbol .leftParen) 0
  | ')' => token (.symbol .rightParen) 0
  | '[' => token (.symbol .leftBracket) 0
  | ']' => token (.symbol .rightBracket) 0
  | '{' => token (.symbol .leftBrace) 0
  | '}' => token (.symbol .rightBrace) 0
  | ',' => token (.symbol .comma) 0
  | '\'' => token (.symbol .quote) 0
  | '$' => token (.symbol .dollar) 0
  | '#' => token (.symbol .hash) 0
  | '=' => token (.symbol .equal) 0
  | '+' => token (.symbol .plus) 0
  | '*' => token (.symbol .times) 0
  | '/' => token (.symbol .slash) 0
  | ':' => withEquals .assign .colon rest
  | '<' => withEquals .lessEqual .less rest
  | '>' => withEquals .greaterEqual .greater rest
  | '!' =>
    match rest with
    | '=' :: _ => token (.symbol .notEqual) 1
    | _ => info rest
  | '.' => dots rest
  | '-' =>
    match rest with
    | next :: _ => if next.isDigit then number rest else token (.symbol .minus) 0
    | [] => token (.symbol .minus) 0
  | '_' => underscored rest
  | _ =>
    if head.isDigit then number rest
    else if head.isLower then word head rest
    else if head.isUpper then capitalised head rest
    else none

end Extent

/-- A piece of the source. -/
inductive Lexeme where
  | gap (text : List Char)
  | token (kind : Token.Kind) (text : List Char)
  /-- All the text from a character on at which no lexeme starts. -/
  | illegal (character : Char) (rest : List Char)
  deriving DecidableEq

namespace Lexeme

def text : Lexeme → List Char
  | gap text => text
  | token _ text => text
  | illegal character rest => character :: rest

/-- The line breaks that a reader passes with a lexeme. -/
def lineBreaks : Lexeme → Nat
  | gap text => text.count '\n'
  | token _ _ => 0
  | illegal _ _ => 0

/-- The lexeme at the front of a text, and the number of characters after the
first that belong to it. -/
def first (head : Char) (rest : List Char) : Lexeme × Nat :=
  match Extent.of? head rest with
  | none => (illegal head rest, rest.length)
  | some extent =>
    let text := head :: rest.take extent.more
    match extent.kind with
    | none => (gap text, extent.more)
    | some kind => (token kind text, extent.more)

/-- Cuts a text after passing over some characters that belong to the lexeme
before. -/
def cutAfter : Nat → List Char → List Lexeme
  | _, [] => []
  | passed + 1, _ :: rest => cutAfter passed rest
  | 0, head :: rest =>
    let (lexeme, more) := first head rest
    lexeme :: cutAfter more rest

/-- Cuts a text into lexemes. -/
def cut (text : List Char) : List Lexeme :=
  cutAfter 0 text

theorem cutAfter_eq_cut_drop (passed : Nat) (text : List Char) :
    cutAfter passed text = cut (text.drop passed) := by
  induction text generalizing passed with
  | nil => cases passed <;> rfl
  | cons head rest induction =>
    cases passed with
    | zero => rfl
    | succ passed => exact induction passed

/-- The first lexeme is followed by the lexemes of the text behind it. -/
theorem cut_cons (head : Char) (rest : List Char) :
    cut (head :: rest) = (first head rest).1 :: cut (rest.drop (first head rest).2) := by
  rw [← cutAfter_eq_cut_drop]
  rfl

theorem text_first (head : Char) (rest : List Char) :
    (first head rest).1.text = head :: rest.take (first head rest).2 := by
  unfold first
  split
  · simp [text]
  · split <;> rfl

/-- Cutting loses, adds and reorders nothing. -/
theorem flatMap_text_cut (text : List Char) : (cut text).flatMap Lexeme.text = text := by
  induction length : text.length using Nat.strongRecOn generalizing text with
  | ind size induction =>
    cases text with
    | nil => rfl
    | cons head rest =>
      have tail := induction (rest.drop (first head rest).2).length
        (by simp at length ⊢; omega) _ rfl
      rw [cut_cons, List.flatMap_cons, tail, text_first]
      simp

end Lexeme

end SheetLang
