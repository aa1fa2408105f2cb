/-!
# Number literals

The text of a number is an optional minus sign and digits, with at most a point
before the last of them.  This module reads off the sign and the digits, and
the whole numbers among the literals; fractions are read in `Binary64`.
-/

namespace SheetLang.Literal

def digitValue (digit : Char) : Nat :=
  digit.toNat - '0'.toNat

/-- The number that a row of digits denotes in base ten. -/
def digitsValue (digits : List Char) : Nat :=
  digits.foldl (fun value digit => 10 * value + digitValue digit) 0

/-- Whether a literal has a sign. -/
def isNegative (text : String) : Bool :=
  text.toList.head? == some '-'

/-- The number that all the digits of a literal denote together, without regard
to the sign and the point. -/
def magnitude (text : String) : Nat :=
  digitsValue (text.toList.filter Char.isDigit)

def wholeNumber (text : String) : Int :=
  if isNegative text then -(magnitude text : Int) else magnitude text

/-- The whole number of a literal where it fits into 64 bits. -/
def int64? (text : String) : Option Int64 :=
  let value := wholeNumber text
  if fits : Int64.minValue.toInt ≤ value ∧ value ≤ Int64.maxValue.toInt then
    some (Int64.ofIntLE value fits.1 fits.2)
  else
    none

end SheetLang.Literal
