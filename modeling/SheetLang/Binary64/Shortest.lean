import SheetLang.Binary64

/-!
# Shortest decimal text

A number is written with the fewest decimal digits that read back as the same
number; among the texts of that length, with the digits nearest to it.  Every
finite magnitude is a whole multiple of ten to the power -1074, so that all of
this is exact arithmetic on natural numbers.

Magnitudes from 0.0001 up to ten to the power 16 are written positionally and
always with a fraction, others with an exponent.
-/

namespace SheetLang.Binary64

/-- The finest decimal place of a finite magnitude. -/
def finestPlace : Nat := 1074

/-- A magnitude as a multiple of the finest decimal place. -/
def decimalUnits (rank : Nat) : Nat :=
  units rank * Nat.pow 5 finestPlace

/-- Digits, and the number of decimal places from the finest one up to the last
of them. -/
structure Decimal where
  digits : Nat
  place : Nat
  deriving DecidableEq

namespace Decimal

/-- The rank of the magnitude that a decimal is read as. -/
def toRank (decimal : Decimal) : Nat :=
  nearestRank (decimal.digits * Nat.pow 10 decimal.place) (Nat.pow 10 finestPlace)

def characters (decimal : Decimal) : List Char :=
  Nat.toDigits 10 decimal.digits

/-- How many of the digits stand before the point; where it is not positive, the
number of zeros between the point and the first digit, negated. -/
def point (decimal : Decimal) : Int :=
  (decimal.characters.length + decimal.place : Nat) - (finestPlace : Int)

/-- The two decimals around a magnitude whose last digit stands at a place, the
nearer one first; of two equally near, the larger first. -/
def around (rank place : Nat) : List Decimal :=
  let value := decimalUnits rank
  let lower : Decimal := ⟨value / Nat.pow 10 place, place⟩
  let upper : Decimal := ⟨value / Nat.pow 10 place + 1, place⟩
  if Nat.pow 10 place ≤ 2 * (value % Nat.pow 10 place) then [upper, lower] else [lower, upper]

/-- The shortest decimal that reads back as a magnitude.  The places are tried
from the one above the first digit downwards; at the finest place the decimal
is exact. -/
def shortest (rank : Nat) : Decimal :=
  let length := (Nat.toDigits 10 (decimalUnits rank)).length
  let places := (List.range (length + 1)).reverse
  (places.findSome? fun place => (around rank place).find? (·.toRank == rank)).getD
    ⟨decimalUnits rank, 0⟩

/-- Digits with a point among them, at least one on either side. -/
def positional (decimal : Decimal) : List Char :=
  let point := decimal.point
  let digits := List.replicate (1 - point).toNat '0' ++ decimal.characters
  let whole := (max point 1).toNat
  let before := digits.take whole
  let after := digits.drop whole
  before ++ List.replicate (whole - before.length) '0' ++ '.' ::
    (if after.isEmpty then ['0'] else after)

/-- One digit, the others behind a point if there are any, and the power of
ten. -/
def scientific (decimal : Decimal) : List Char :=
  let exponent := 'e' :: (toString (decimal.point - 1)).toList
  match decimal.characters with
  | [] => exponent
  | [first] => first :: exponent
  | first :: others => first :: '.' :: others ++ exponent

def render (decimal : Decimal) : List Char :=
  if -4 < decimal.point ∧ decimal.point ≤ 16 then decimal.positional
  else decimal.scientific

end Decimal

def magnitudeText (rank : Nat) : String :=
  if rank = 0 then "0.0"
  else if infinityRank ≤ rank then "inf"
  else String.ofList (Decimal.shortest rank).render

def render (number : Binary64) : String :=
  (if number.negative then "-" else "") ++ magnitudeText number.rank

end SheetLang.Binary64
