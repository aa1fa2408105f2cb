import SheetLang.Grammar

/-!
# Lines and spellings do not matter

What derives from a nonterminal derives from it on any other lines, with the same value, and
with whole numbers that are written in any other way.
-/

namespace SheetLang

open Grammar

@[simp] theorem Token.down_mk (lines : Nat) (kind : Token.Kind) (text : String) (line : Nat) :
    Token.down lines ⟨kind, text, line⟩ = ⟨kind, text, line + lines⟩ := rfl

/-- A token on a line that depends on the line it was on. -/
def Token.relined (move : Nat → Nat) (token : Token) : Token :=
  { token with line := move token.line }

/-- A token on another line, with another text if it is a whole number. -/
def Token.rewritten (respell : String → String) (move : Nat → Nat) (token : Token) : Token :=
  ⟨token.kind, if token.kind = .integer then respell token.text else token.text, move token.line⟩

variable {respell : String → String} {move : Nat → Nat}

@[simp] theorem Token.rewritten_integer (text : String) (line : Nat) :
    Token.rewritten respell move ⟨.integer, text, line⟩ =
      ⟨.integer, respell text, move line⟩ := rfl

@[simp] theorem Token.rewritten_mark (symbol : Symbol) (writing : Writing) :
    (mark symbol writing).rewritten respell move = mark symbol (writing.1, move writing.2) := rfl

@[simp] theorem Token.rewritten_word (keyword : Keyword) (writing : Writing) :
    (word keyword writing).rewritten respell move = word keyword (writing.1, move writing.2) := rfl

theorem Token.rewritten_id (move : Nat → Nat) :
    Token.rewritten id move = Token.relined move := by
  funext token
  exact congrArg (Token.mk token.kind · (move token.line)) (ite_self token.text)

theorem Grammar.Info.rewritten (respell : String → String) (move : Nat → Nat)
    (info : Info tokens written) :
    Info (tokens.map (Token.rewritten respell move)) written := by
  cases info with
  | absent => exact .absent
  | present => exact .present

theorem Derives.rewritten
    (same : ∀ text, Literal.int64? (respell text) = Literal.int64? text) (move : Nat → Nat)
    (derivation : Derives A tokens value) :
    Derives A (tokens.map (Token.rewritten respell move)) value := by
  induction derivation with
  | separatedOne _ moved => exact .separatedOne moved
  | callOperand _ moved => exact .callOperand moved
  | cellOperand _ moved => exact .cellOperand moved
  | productOne _ moved => exact .productOne moved
  | sumOne _ moved => exact .sumOne moved
  | comparisonOne _ moved => exact .comparisonOne moved
  | scalarArgument _ moved => exact .scalarArgument moved
  | rangeArgument _ moved => exact .rangeArgument moved
  | callStatement _ moved => exact .callStatement moved
  | laterRowOne _ moved => exact .laterRowOne moved
  | «variable» _ moved => exact .variable moved
  | productCons multiplies _ _ left right =>
      simp only [List.map_append, List.map_cons, Token.rewritten_mark]
      exact .productCons multiplies left right
  | sumCons adds _ _ left right =>
      simp only [List.map_append, List.map_cons, Token.rewritten_mark]
      exact .sumCons adds left right
  | comparisonCons compares _ _ left right =>
      simp only [List.map_append, List.map_cons, Token.rewritten_mark]
      exact .comparisonCons compares left right
  -- Here alone are texts that change, and they are read as the same numbers.
  | part _ column row range =>
      simp only [List.map_append, List.map_cons, List.map_nil, Token.rewritten_mark,
        Token.rewritten_integer]
      exact .part range ((same _).trans column) ((same _).trans row)
  | size width height =>
      simp only [List.map_cons, List.map_nil, Token.rewritten_mark, Token.rewritten_integer]
      exact .size ((same _).trans width) ((same _).trans height)
  | printSheet info | printRange info | printScalar info =>
      have moved := info.rewritten respell move
      simp only [List.map_append, List.map_cons, List.map_nil, Token.rewritten_word]
      constructor <;> assumption
  -- All others have tokens of their own and are told apart by them and by their value.
  | _ =>
      simp only [List.map_append, List.map_cons, List.map_nil, Token.rewritten_mark,
        Token.rewritten_word]
      constructor <;> assumption

theorem Derives.relined (move : Nat → Nat) (derivation : Derives A tokens value) :
    Derives A (tokens.map (Token.relined move)) value := by
  rw [← Token.rewritten_id]
  exact derivation.rewritten (fun _ => rfl) move

theorem Derives.down (lines : Nat) (derivation : Derives A tokens value) :
    Derives A (tokens.map (Token.down lines)) value :=
  derivation.relined (· + lines)

end SheetLang
