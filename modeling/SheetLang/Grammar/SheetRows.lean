import SheetLang.Grammar

/-!
# Rows of a sheet

The contents of a sheet without regard to how they are told apart: rows that stand side by
side, each of them cells with commas between them, and each free to open with a sign.
Contents may be split into rows in several ways then, as a minus either opens a row or
goes on with the cell before it.
-/

namespace SheetLang

open Grammar

/-- A row: the tokens it is written with, and its cells. -/
structure SheetRow where
  tokens : List Token
  cells : List Expr

/-- Cells with commas between them, the first of which may have a sign. -/
def SheetRow.Written (row : SheetRow) : Prop :=
  Derives (.separated (.sum true)) row.tokens row.cells

/-- The tokens are those of one or more rows side by side. -/
structure SplitsIntoRows (tokens : List Token) (rows : List SheetRow) : Prop where
  nonempty : rows ≠ []
  whole : rows.flatMap SheetRow.tokens = tokens
  written : ∀ row ∈ rows, row.Written

/-- The tokens do not open with a minus. -/
def Unsigned (tokens : List Token) : Prop :=
  ∀ token ∈ tokens.head?, token.kind ≠ .symbol .minus

/-- No row but the first opens with a minus. -/
def SignedFirstOnly (rows : List SheetRow) : Prop :=
  ∀ row ∈ rows.tail, Unsigned row.tokens

/-- No brace closes among the tokens. -/
def Braceless (tokens : List Token) : Prop :=
  ∀ token ∈ tokens, token.kind ≠ .symbol .rightBrace

/-- The definition of a sheet with these tokens in braces. -/
def sheetLiteral (keyword name sign opening closing : Writing) (inside : List Token) :
    List Token :=
  word .sheet keyword :: ⟨.sheetName, name.1, name.2⟩ :: mark .equal sign ::
    mark .leftBrace opening :: inside ++ [mark .rightBrace closing]

end SheetLang
