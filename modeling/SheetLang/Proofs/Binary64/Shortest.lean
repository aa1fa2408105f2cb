import SheetLang.Binary64.Shortest
import SheetLang.Proofs.Binary64.Nearest

/-!
# The shortest decimal reads back

A magnitude is the nearest one to itself.  So the exact decimal of a finite magnitude is
read as that magnitude, and the shortest one is chosen among the decimals that are.
-/

namespace SheetLang.Binary64

theorem nearestRank_of_units {rank numerator denominator : Nat} (positive : 0 < denominator)
    (bounded : rank ≤ infinityRank)
    (exact : numerator * unitsPerOne = units rank * denominator) :
    nearestRank numerator denominator = rank := by
  have apart (other : Nat) : distance numerator denominator other =
      Nat.dist (units other * denominator) (units rank * denominator) := by
    rw [distance, exact]
  have zero : distance numerator denominator rank = 0 := by
    rw [apart, Nat.dist_self]
  have nearest : IsNearest numerator denominator rank := by
    refine ⟨bounded, fun other _ => ?_, fun other _ different same => absurd ?_ different⟩
    · rw [zero]
      exact Nat.zero_le _
    · rw [zero, apart] at same
      exact units_strictMono.injective
        (Nat.eq_of_mul_eq_mul_right positive (Nat.eq_of_dist_eq_zero same))
  exact (isNearest_nearestRank positive numerator).unique positive nearest

namespace Decimal

variable {rank : Nat}

theorem toRank_exact (bounded : rank ≤ infinityRank) :
    (Decimal.mk (decimalUnits rank) 0).toRank = rank := by
  have positive (exponent : Nat) : 0 < Nat.pow 10 exponent := Nat.pow_pos (by decide)
  have ten (exponent : Nat) : Nat.pow 10 exponent = Nat.pow 5 exponent * Nat.pow 2 exponent :=
    Nat.mul_pow 5 2 exponent
  have one : Nat.pow 10 0 = 1 := rfl
  apply nearestRank_of_units (positive _) bounded
  unfold decimalUnits unitsPerOne finestPlace
  generalize 1074 = places
  rw [one, ten, Nat.mul_one, Nat.mul_assoc]

theorem toRank_shortest (bounded : rank ≤ infinityRank) : (shortest rank).toRank = rank := by
  simp only [shortest]
  generalize (List.range _).reverse = places
  cases found : places.findSome? fun place => (around rank place).find? (·.toRank == rank) with
  | none => exact toRank_exact bounded
  | some decimal =>
      obtain ⟨place, -, chosen⟩ := List.exists_of_findSome?_eq_some found
      have reads := List.find?_some chosen
      exact beq_iff_eq.mp reads

end Decimal

end SheetLang.Binary64
