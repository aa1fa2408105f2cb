import Mathlib.Data.Nat.Dist
import Mathlib.Order.Monotone.Basic
import SheetLang.Binary64

/-!
# The nearest magnitude

A quotient lies between two neighbouring magnitudes, or above all of them.  It is read as the
nearer one of the two, and in the middle between them as the one with the even rank, which is
the one with the even significand.
-/

namespace SheetLang.Binary64

/-- How far a magnitude is from a quotient, as a multiple of what the unit divided by the
denominator is. -/
def distance (numerator denominator rank : Nat) : Nat :=
  Nat.dist (units rank * denominator) (numerator * unitsPerOne)

/-- No magnitude is nearer to the quotient than this one, and this one has an even rank if
another is as near. -/
structure IsNearest (numerator denominator rank : Nat) : Prop where
  bounded : rank ≤ infinityRank
  nearest : ∀ other ≤ infinityRank,
    distance numerator denominator rank ≤ distance numerator denominator other
  even : ∀ other ≤ infinityRank, other ≠ rank →
    distance numerator denominator other = distance numerator denominator rank → rank % 2 = 0

/-! ## Neighbours -/

/-- A rank counts the doublings of the unit and the significand. -/
theorem units_add {doublings significand : Nat}
    (normal : doublings = 0 ∨ Nat.pow 2 52 ≤ significand)
    (bounded : significand ≤ 2 * Nat.pow 2 52) :
    units (doublings * Nat.pow 2 52 + significand) = significand * Nat.pow 2 doublings := by
  have block : Nat.pow 2 52 = 4503599627370496 := rfl
  rw [units]
  rw [block] at normal bounded ⊢
  split
  case isTrue small =>
    obtain rfl : doublings = 0 := by omega
    rw [Nat.zero_mul, Nat.zero_add]
    exact (Nat.mul_one significand).symm
  case isFalse large =>
    rcases Nat.lt_or_eq_of_le bounded with inside | rfl
    · have quotient : (doublings * 4503599627370496 + significand) / 4503599627370496 - 1 =
          doublings := by omega
      have rest : 4503599627370496 +
          (doublings * 4503599627370496 + significand) % 4503599627370496 = significand := by
        omega
      rw [quotient, rest]
    · have quotient :
          (doublings * 4503599627370496 + 2 * 4503599627370496) / 4503599627370496 - 1 =
            doublings + 1 := by omega
      have rest :
          (doublings * 4503599627370496 + 2 * 4503599627370496) % 4503599627370496 = 0 := by
        omega
      rw [quotient, rest, Nat.add_zero, Nat.mul_comm 2, Nat.mul_assoc, Nat.mul_comm 2]
      rfl

theorem exists_significand (rank : Nat) :
    ∃ doublings significand, rank = doublings * Nat.pow 2 52 + significand ∧
      (doublings = 0 ∨ Nat.pow 2 52 ≤ significand) ∧ significand < 2 * Nat.pow 2 52 := by
  have block : Nat.pow 2 52 = 4503599627370496 := rfl
  refine ⟨rank / Nat.pow 2 52 - 1, rank - (rank / Nat.pow 2 52 - 1) * Nat.pow 2 52, ?_⟩
  rw [block]
  omega

theorem units_strictMono : StrictMono units := by
  refine strictMono_nat_of_lt_succ fun rank => ?_
  obtain ⟨doublings, significand, rfl, normal, bounded⟩ := exists_significand rank
  rw [units_add normal bounded.le, Nat.add_assoc,
    units_add (normal.imp_right (Nat.le_add_right_of_le)) bounded, Nat.add_mul, Nat.one_mul]
  exact Nat.lt_add_of_pos_right (Nat.two_pow_pos doublings)

/-- Shifted to the right by the doublings, a number has at most 53 binary digits, and no fewer
if there are doublings. -/
theorem significand_bounds (value : Nat) :
    (value.log2 - 52 = 0 ∨ Nat.pow 2 52 ≤ value / Nat.pow 2 (value.log2 - 52)) ∧
      value / Nat.pow 2 (value.log2 - 52) < 2 * Nat.pow 2 52 := by
  have positive : 0 < Nat.pow 2 (value.log2 - 52) := Nat.two_pow_pos _
  constructor
  · rcases Nat.eq_zero_or_pos (value.log2 - 52) with none | some
    · exact .inl none
    · refine .inr ((Nat.le_div_iff_mul_le positive).mpr ?_)
      have digits : 52 + (value.log2 - 52) = value.log2 := by omega
      have least : 2 ^ value.log2 ≤ value := by
        refine Nat.log2_self_le ?_
        rintro rfl
        exact Nat.lt_irrefl 0 some
      calc
        Nat.pow 2 52 * Nat.pow 2 (value.log2 - 52)
        _ = Nat.pow 2 (52 + (value.log2 - 52)) := (Nat.pow_add 2 _ _).symm
        _ ≤ value := by rwa [digits]
  · refine (Nat.div_lt_iff_lt_mul positive).mpr ?_
    calc
      value
      _ < Nat.pow 2 (value.log2 + 1) := Nat.lt_log2_self
      _ ≤ Nat.pow 2 (53 + (value.log2 - 52)) := Nat.pow_le_pow_right (by decide) (by omega)
      _ = 2 * Nat.pow 2 52 * Nat.pow 2 (value.log2 - 52) := Nat.pow_add 2 _ _

/-! ## Rounding -/

section

variable {numerator denominator rank : Nat} (positive : 0 < denominator)

include positive

theorem scaled_lt {other : Nat} (less : rank < other) :
    units rank * denominator < units other * denominator :=
  Nat.mul_lt_mul_of_pos_right (units_strictMono less) positive

omit positive in
theorem scaled_le {other : Nat} (less : rank ≤ other) :
    units rank * denominator ≤ units other * denominator :=
  Nat.mul_le_mul_right denominator (units_strictMono.monotone less)

/-- Up to the middle to the next magnitude, the lower one is the nearest. -/
theorem isNearest_lower (bounded : rank ≤ infinityRank)
    (below : units rank * denominator ≤ numerator * unitsPerOne)
    (middle : 2 * (numerator * unitsPerOne) ≤
      units rank * denominator + units (rank + 1) * denominator)
    (tie : 2 * (numerator * unitsPerOne) =
      units rank * denominator + units (rank + 1) * denominator → rank % 2 = 0) :
    IsNearest numerator denominator rank := by
  have next := scaled_lt positive (Nat.lt_succ_self rank)
  refine ⟨bounded, fun other _ => ?_, fun other _ different same => tie ?_⟩
  · simp only [distance, Nat.dist]
    rcases Nat.lt_or_ge rank other with later | earlier
    · have further : units (rank + 1) * denominator ≤ _ := scaled_le later
      omega
    · have further : _ ≤ units rank * denominator := scaled_le earlier
      omega
  · simp only [distance, Nat.dist] at same
    rcases Nat.lt_or_gt_of_ne different with earlier | later
    · have further := scaled_lt positive earlier
      omega
    · have further : units (rank + 1) * denominator ≤ _ := scaled_le later
      omega

/-- From the middle to the magnitude before on, the upper one is the nearest. -/
theorem isNearest_upper (bounded : rank + 1 ≤ infinityRank)
    (above : numerator * unitsPerOne ≤ units (rank + 1) * denominator)
    (middle : units rank * denominator + units (rank + 1) * denominator ≤
      2 * (numerator * unitsPerOne))
    (tie : 2 * (numerator * unitsPerOne) =
      units rank * denominator + units (rank + 1) * denominator → (rank + 1) % 2 = 0) :
    IsNearest numerator denominator (rank + 1) := by
  have next := scaled_lt positive (Nat.lt_succ_self rank)
  refine ⟨bounded, fun other _ => ?_, fun other _ different same => tie ?_⟩
  · simp only [distance, Nat.dist]
    rcases Nat.lt_or_ge rank other with later | earlier
    · have further : units (rank + 1) * denominator ≤ _ := scaled_le later
      omega
    · have further : _ ≤ units rank * denominator := scaled_le earlier
      omega
  · simp only [distance, Nat.dist] at same
    rcases Nat.lt_or_gt_of_ne different with earlier | later
    · have further : _ ≤ units rank * denominator := scaled_le (Nat.le_of_lt_succ earlier)
      omega
    · have further := scaled_lt positive later
      omega

theorem isNearest_infinity
    (below : units infinityRank * denominator ≤ numerator * unitsPerOne) :
    IsNearest numerator denominator infinityRank := by
  refine ⟨Nat.le_refl _, fun other bounded => ?_, fun other bounded different same => ?_⟩
  · have further : _ ≤ units infinityRank * denominator := scaled_le bounded
    simp only [distance, Nat.dist]
    omega
  · have further := scaled_lt positive (Nat.lt_of_le_of_ne bounded different)
    simp only [distance, Nat.dist] at same
    omega

/-- Of the two magnitudes around a quotient the nearer one is the nearest of all, unless it is
beyond infinity. -/
theorem isNearest_min {near : Nat}
    (below : units rank * denominator ≤ numerator * unitsPerOne)
    (above : numerator * unitsPerOne ≤ units (rank + 1) * denominator)
    (chosen :
      near = rank ∧
          2 * (numerator * unitsPerOne) ≤
            units rank * denominator + units (rank + 1) * denominator ∧
          (2 * (numerator * unitsPerOne) =
            units rank * denominator + units (rank + 1) * denominator → rank % 2 = 0) ∨
        near = rank + 1 ∧
          units rank * denominator + units (rank + 1) * denominator ≤
            2 * (numerator * unitsPerOne) ∧
          (2 * (numerator * unitsPerOne) =
            units rank * denominator + units (rank + 1) * denominator → (rank + 1) % 2 = 0)) :
    IsNearest numerator denominator (min near infinityRank) := by
  rcases Nat.lt_or_ge infinityRank near with beyond | inside
  · rw [Nat.min_eq_right beyond.le]
    have last : infinityRank ≤ rank := by omega
    exact isNearest_infinity positive ((scaled_le last).trans below)
  · rw [Nat.min_eq_left inside]
    obtain ⟨rfl, middle, tie⟩ | ⟨rfl, middle, tie⟩ := chosen
    · exact isNearest_lower positive inside below middle tie
    · exact isNearest_upper positive inside above middle tie

omit positive in
theorem divNearest_cases (value width : Nat) :
    divNearest value width = value / width ∧ 2 * (value % width) ≤ width ∧
        (2 * (value % width) = width → value / width % 2 = 0) ∨
      divNearest value width = value / width + 1 ∧ width ≤ 2 * (value % width) ∧
        (2 * (value % width) = width → (value / width + 1) % 2 = 0) := by
  simp only [divNearest]
  split
  case isTrue low => omega
  case isFalse =>
    split
    case isTrue high => omega
    case isFalse => omega

/-- A quotient is read as the magnitude that is nearest to it. -/
theorem isNearest_nearestRank (numerator : Nat) :
    IsNearest numerator denominator (nearestRank numerator denominator) := by
  obtain ⟨normal, bounded⟩ := significand_bounds (numerator * unitsPerOne / denominator)
  simp only [nearestRank]
  generalize (numerator * unitsPerOne / denominator).log2 - 52 = doublings at normal bounded ⊢
  rw [Nat.div_div_eq_div_mul] at normal bounded
  have cases := divNearest_cases (numerator * unitsPerOne) (denominator * Nat.pow 2 doublings)
  have parts := Nat.div_add_mod (numerator * unitsPerOne) (denominator * Nat.pow 2 doublings)
  have rest := Nat.mod_lt (numerator * unitsPerOne)
    (Nat.mul_pos positive (Nat.two_pow_pos doublings))
  generalize numerator * unitsPerOne / (denominator * Nat.pow 2 doublings) = quotient
    at normal bounded cases parts
  have lower : units (doublings * Nat.pow 2 52 + quotient) * denominator =
      denominator * Nat.pow 2 doublings * quotient := by
    rw [units_add normal bounded.le, Nat.mul_comm, Nat.mul_comm quotient, Nat.mul_assoc]
  have upper : units (doublings * Nat.pow 2 52 + quotient + 1) * denominator =
      denominator * Nat.pow 2 doublings * quotient + denominator * Nat.pow 2 doublings := by
    rw [Nat.add_assoc, units_add (normal.imp_right Nat.le_succ_of_le) bounded, Nat.mul_comm,
      Nat.mul_comm (quotient + 1), ← Nat.mul_assoc, Nat.mul_succ]
  generalize denominator * Nat.pow 2 doublings = width at *
  have below : units (doublings * Nat.pow 2 52 + quotient) * denominator ≤
      numerator * unitsPerOne := by
    rw [lower]
    omega
  have above : numerator * unitsPerOne ≤
      units (doublings * Nat.pow 2 52 + quotient + 1) * denominator := by
    rw [upper]
    omega
  have block : Nat.pow 2 52 = 4503599627370496 := rfl
  refine isNearest_min positive below above ?_
  rw [lower, upper]
  obtain ⟨same, middle, tie⟩ | ⟨same, middle, tie⟩ := cases
  · refine .inl ⟨by rw [same], by omega, fun half => ?_⟩
    have even := tie (by omega)
    rw [block]
    omega
  · refine .inr ⟨by rw [same, Nat.add_assoc], by omega, fun half => ?_⟩
    have even := tie (by omega)
    rw [block]
    omega

/-- There is one nearest magnitude: of two, one would have an odd rank. -/
theorem IsNearest.unique {other : Nat} (found : IsNearest numerator denominator rank)
    (again : IsNearest numerator denominator other) : rank = other := by
  have same := Nat.le_antisymm (found.nearest other again.bounded)
    (again.nearest rank found.bounded)
  by_contra different
  have even := found.even other again.bounded (Ne.symm different) same.symm
  have otherEven := again.even rank found.bounded different same
  -- As both ranks are even, there is a magnitude between them, which would be nearer.
  wlog less : rank < other generalizing rank other
  · have greater : other < rank := Nat.lt_of_le_of_ne (Nat.le_of_not_lt less) (Ne.symm different)
    exact this again found same.symm (Ne.symm different) otherEven even greater
  have between : rank + 1 < other := by omega
  have nearer := found.nearest (rank + 1) (between.le.trans again.bounded)
  have first : _ < units (rank + 1) * denominator := scaled_lt positive (Nat.lt_succ_self rank)
  have second := scaled_lt positive between
  simp only [distance, Nat.dist] at same nearer
  omega

end

theorem isNearest_ofLiteral (text : String) :
    (ofLiteral text).negative = Literal.isNegative text ∧
      IsNearest (Literal.magnitude text) 10 (ofLiteral text).rank :=
  ⟨rfl, isNearest_nearestRank (by decide) (Literal.magnitude text)⟩

end SheetLang.Binary64
