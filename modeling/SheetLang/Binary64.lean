import SheetLang.Literal
import SheetLang.Token.Shape

/-!
# Binary floating point numbers of 64 bits

The numbers of the binary64 format other than NaN, which no literal denotes.
The magnitudes are numbered in increasing order: zero has rank 0, the smallest
positive magnitude rank 1, and infinity comes last.  The rank of a magnitude is
at the same time its bit pattern.

A magnitude below infinity is a natural multiple of two to the power -1074.
Neighbouring magnitudes are one such unit apart up to rank two to the power 53,
and from there on their distance doubles every two to the power 52 ranks.
-/

namespace SheetLang

/-- A sign and the rank of a magnitude. -/
structure Binary64 where
  negative : Bool
  rank : Nat
  rank_le : rank ≤ 2047 * Nat.pow 2 52
  deriving DecidableEq

namespace Binary64

/-- Zero is the lowest magnitude. -/
theorem zero_rank_le : 0 ≤ 2047 * Nat.pow 2 52 :=
  Nat.zero_le _

def infinityRank : Nat := 2047 * Nat.pow 2 52

/-- The magnitude of a rank as a multiple of the unit; for infinity, the value
that the next rank would have if the format had no end. -/
def units (rank : Nat) : Nat :=
  if rank < Nat.pow 2 52 then rank
  else (Nat.pow 2 52 + rank % Nat.pow 2 52) * Nat.pow 2 (rank / Nat.pow 2 52 - 1)

/-- The number of units in one. -/
def unitsPerOne : Nat := Nat.pow 2 1074

/-- The whole number nearest to a quotient; of two equally near, the even one. -/
def divNearest (numerator denominator : Nat) : Nat :=
  let quotient := numerator / denominator
  let twice := 2 * (numerator % denominator)
  if twice < denominator then quotient
  else if denominator < twice then quotient + 1
  else quotient + quotient % 2

/-- The rank of the magnitude nearest to a quotient; of two equally near, the
one with the even rank.  Beyond the last finite magnitude this is infinity. -/
def nearestRank (numerator denominator : Nat) : Nat :=
  let scaled := numerator * unitsPerOne
  let doublings := Nat.log2 (scaled / denominator) - 52
  min (doublings * Nat.pow 2 52 + divNearest scaled (denominator * Nat.pow 2 doublings))
    infinityRank

/-- The number nearest to a signed quotient. -/
def ofQuotient (negative : Bool) (numerator denominator : Nat) : Binary64 where
  negative := negative
  rank := nearestRank numerator denominator
  rank_le := Nat.min_le_right _ _

/-- The number nearest to what a literal with one digit after the point
denotes. -/
def ofLiteral (text : String) : Binary64 :=
  ofQuotient (Literal.isNegative text) (Literal.magnitude text) 10

/-- The number that a text denotes; none for a text that is no decimal literal. -/
def ofLiteral? (text : String) : Option Binary64 :=
  if Shape.decimal text.toList then some (ofLiteral text) else none

/-- Equality of numbers: the two zeros are equal. -/
def numEq (left right : Binary64) : Bool :=
  left.rank == right.rank && (left.rank == 0 || left.negative == right.negative)

def pattern (number : Binary64) : Nat :=
  if number.negative then Nat.pow 2 63 + number.rank else number.rank

/-- The bit pattern in sixteen hexadecimal digits. -/
def hex (number : Binary64) : String :=
  let digits := Nat.toDigits 16 number.pattern
  String.ofList (List.replicate (16 - digits.length) '0' ++ digits)

end Binary64

end SheetLang
