import Mathlib.Algebra.Group.Int.Defs
import SheetLang.Literal
import SheetLang.Proofs.Lexeme.Shapes

/-!
# Whole numbers

Every whole number has a canonical text that denotes it, and those of 64 bits are the ones
that a literal can stand for.
-/

namespace SheetLang.Literal

open Shape

/-! ## Digits -/

theorem digitsValue_toDigits (number : Nat) : digitsValue (Nat.toDigits 10 number) = number :=
  Nat.ofDigitChars_ten_toDigits

theorem oneOrMore_toDigits (number : Nat) :
    oneOrMore Char.isDigit (Nat.toDigits 10 number) = true := by
  rw [oneOrMore_iff]
  exact ⟨Nat.toDigits_ne_nil, fun _ => Nat.isDigit_of_mem_toDigits (by decide) (by decide)⟩

theorem digitChar_ne_zero : ∀ digit < 10, 0 < digit → digit.digitChar ≠ '0' := by
  decide

/-- No zero is in front of other digits. -/
theorem head_toDigits {number : Nat} (positive : 0 < number) :
    (Nat.toDigits 10 number).head? ≠ some '0' := by
  induction number using Nat.strongRecOn with
  | ind number induction =>
      by_cases small : number < 10
      · rw [Nat.toDigits_of_lt_base small]
        simpa using digitChar_ne_zero number small positive
      · rw [Nat.toDigits_of_base_le (by decide) (Nat.le_of_not_lt small),
          List.head?_append, Option.or_of_isSome (by simp [Nat.toDigits_ne_nil])]
        exact induction (number / 10) (by omega) (by omega)

/-! ## Values -/

theorem int64?_eq_some_iff {text : String} {value : Int64} :
    int64? text = some value ↔ wholeNumber text = value.toInt := by
  simp only [int64?]
  constructor
  · intro found
    split at found
    · cases found
      rw [Int64.toInt_ofIntLE]
    · cases found
  · intro same
    have fits : Int64.minValue.toInt ≤ value.toInt ∧ value.toInt ≤ Int64.maxValue.toInt :=
      ⟨value.minValue_le_toInt, value.toInt_le⟩
    simp only [same, dif_pos fits, Int64.ofIntLE_toInt]

section Digits

variable {digits : List Char} (numeric : oneOrMore Char.isDigit digits = true)

include numeric

theorem wholeNumber_digits : wholeNumber (String.ofList digits) = digitsValue digits := by
  obtain ⟨nonempty, inside⟩ := oneOrMore_iff.mp numeric
  have same : digits.filter Char.isDigit = digits := List.filter_eq_self.mpr inside
  have unsigned : isNegative (String.ofList digits) = false := by
    obtain ⟨digit, more, rfl, first⟩ := head_of_oneOrMore numeric
    simp [isNegative, ne_minus_of_isDigit first]
  simp [wholeNumber, unsigned, magnitude, same]

theorem wholeNumber_negative :
    wholeNumber (String.ofList ('-' :: digits)) = -digitsValue digits := by
  obtain ⟨nonempty, inside⟩ := oneOrMore_iff.mp numeric
  have same : ('-' :: digits).filter Char.isDigit = digits := by
    rw [List.filter_cons_of_neg (by decide)]
    exact List.filter_eq_self.mpr inside
  simp [wholeNumber, isNegative, magnitude, same]

end Digits

/-! ## Texts -/

/-- A whole number is written with a sign if it is negative, and with digits. -/
theorem toList_toString (value : Int) :
    (toString value).toList =
      (if value < 0 then ['-'] else []) ++ Nat.toDigits 10 value.natAbs := by
  cases value with
  | ofNat number =>
      rw [if_neg (by simp), List.nil_append]
      exact Nat.toList_repr
  | negSucc number =>
      rw [if_pos (Int.negSucc_lt_zero number), List.singleton_append, Int.natAbs_negSucc,
        Nat.succ_eq_add_one, ← Nat.toList_repr]
      exact String.toList_append

theorem isDigit_or_minus_of_mem_toString {value : Int} {character : Char}
    (member : character ∈ (toString value).toList) :
    character.isDigit = true ∨ character = '-' := by
  rw [toList_toString, List.mem_append] at member
  obtain sign | digit := member
  · split at sign
    · exact .inr (List.mem_singleton.mp sign)
    · cases sign
  · exact .inl (Nat.isDigit_of_mem_toDigits (by decide) (by decide) digit)

theorem unsigned_toString (value : Int) :
    unsigned (toString value).toList = Nat.toDigits 10 value.natAbs := by
  rw [toList_toString]
  split
  · rfl
  · obtain ⟨digit, more, written, first⟩ := head_of_oneOrMore (oneOrMore_toDigits value.natAbs)
    rw [List.nil_append, written, unsigned_cons (ne_minus_of_isDigit first)]

theorem integer_toString (value : Int) : Shape.integer (toString value).toList = true := by
  rw [Shape.integer, unsigned_toString]
  exact oneOrMore_toDigits _

theorem canonical_toString (value : Int) : canonical (toString value).toList = true := by
  by_cases zero : value = 0
  · subst zero
    rfl
  · have first := head_toDigits (Int.natAbs_pos.mpr zero)
    rw [canonical, integer_toString, unsigned_toString, Bool.true_and, bne_iff_ne.mpr first,
      Bool.or_true]

@[simp] theorem wholeNumber_toString (value : Int) : wholeNumber (toString value) = value := by
  have numeric := oneOrMore_toDigits value.natAbs
  rw [← String.ofList_toList (s := toString value), toList_toString]
  split
  · rw [List.singleton_append, wholeNumber_negative numeric, digitsValue_toDigits]
    omega
  · rw [List.nil_append, wholeNumber_digits numeric, digitsValue_toDigits]
    omega

theorem exists_int64 (value : Int64) :
    ∃ text : String, Shape.integer text.toList = true ∧ int64? text = some value :=
  ⟨toString value.toInt, integer_toString _, int64?_eq_some_iff.mpr (wholeNumber_toString _)⟩

/-- What fits into 64 bits depends on the whole number only. -/
theorem int64?_toString_wholeNumber (text : String) :
    int64? (toString (wholeNumber text)) = int64? text := by
  simp only [int64?, wholeNumber_toString]

/-- All whole numbers of 64 bits are read, and no others. -/
theorem isSome_int64?_iff {text : String} :
    (int64? text).isSome = true ↔ -2 ^ 63 ≤ wholeNumber text ∧ wholeNumber text ≤ 2 ^ 63 - 1 := by
  unfold int64?
  dsimp only
  split
  case isTrue fits =>
    exact iff_of_true rfl fits
  case isFalse beyond =>
    exact iff_of_false Bool.false_ne_true beyond

end SheetLang.Literal
