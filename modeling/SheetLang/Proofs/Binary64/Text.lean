import Mathlib
import SheetLang.Proofs.Binary64.Shortest
import SheetLang.Proofs.Literal

/-!
# Texts of numbers

The text of a decimal tells what it denotes, by its digits and the place of the point or
the power of ten.  So it tells the magnitude that the decimal is read as, and no two
numbers have the same text.
-/

namespace SheetLang.Binary64

namespace Decimal

variable {decimal left right : Decimal} {digits whole fraction : List Char}

/-- What a decimal denotes, as a multiple of the finest decimal place. -/
def value (decimal : Decimal) : Nat :=
  decimal.digits * Nat.pow 10 decimal.place

theorem toRank_eq_of_value_eq (same : left.value = right.value) : left.toRank = right.toRank :=
  congrArg (nearestRank · (Nat.pow 10 finestPlace)) same

theorem isDigit_of_mem_characters {character : Char} (member : character ∈ decimal.characters) :
    character.isDigit = true :=
  Nat.isDigit_of_mem_toDigits (by decide) (by decide) member

theorem length_characters_pos (decimal : Decimal) : 0 < decimal.characters.length :=
  List.length_pos_iff.mpr Nat.toDigits_ne_nil

theorem ofDigitChars_characters (decimal : Decimal) :
    Nat.ofDigitChars 10 decimal.characters 0 = decimal.digits :=
  Nat.ofDigitChars_ten_toDigits

theorem digits_eq_of_characters_eq (same : left.characters = right.characters) :
    left.digits = right.digits := by
  rw [← left.ofDigitChars_characters, same, right.ofDigitChars_characters]

theorem append_cons_inj {mark : Char} {front back start rest : List Char} (absent : mark ∉ front)
    (startAbsent : mark ∉ start) (same : front ++ mark :: back = start ++ mark :: rest) :
    front = start ∧ back = rest := by
  have lengths := congrArg (List.idxOf mark) same
  rw [List.idxOf_append_of_notMem absent, List.idxOf_append_of_notMem startAbsent,
    List.idxOf_cons_self, List.idxOf_cons_self] at lengths
  obtain ⟨rfl, behind⟩ := List.append_inj same lengths
  exact ⟨rfl, (List.cons.inj behind).2⟩

/-! ## Digits with a point -/

/-- Digits before and behind a point that denote a multiple of the finest place. -/
structure Pointed (whole fraction : List Char) (value : Nat) : Prop where
  digits : ∀ character ∈ whole ++ fraction, character.isDigit = true
  denoted : Nat.ofDigitChars 10 (whole ++ fraction) 0 * 10 ^ finestPlace =
    value * 10 ^ fraction.length

theorem Pointed.unique {value other : Nat} (pointed : Pointed whole fraction value)
    (again : Pointed whole fraction other) : value = other := by
  apply Nat.eq_of_mul_eq_mul_right (Nat.pow_pos (n := fraction.length) (by decide : 0 < 10))
  rw [← pointed.denoted, again.denoted]

theorem Pointed.notMem {value : Nat} {mark : Char} (pointed : Pointed whole fraction value)
    (other : mark.isDigit = false) : mark ∉ whole := by
  intro member
  have digit := pointed.digits mark (List.mem_append_left _ member)
  rw [other] at digit
  cases digit

/-- The digits go on behind the point. -/
theorem pointed_of_places (plain : ∀ character ∈ whole ++ fraction, character.isDigit = true)
    (read : Nat.ofDigitChars 10 (whole ++ fraction) 0 = decimal.digits)
    (places : decimal.place + fraction.length = finestPlace) :
    Pointed whole fraction decimal.value := by
  refine ⟨plain, ?_⟩
  rw [read, ← places, Nat.pow_add, ← Nat.mul_assoc]
  rfl

/-- All the digits stand before the point, and zeros between them and the point. -/
theorem pointed_of_zeros {zeros : Nat} (plain : ∀ character ∈ digits, character.isDigit = true)
    (read : Nat.ofDigitChars 10 digits 0 = decimal.digits)
    (place : decimal.place = zeros + finestPlace) :
    Pointed (digits ++ List.replicate zeros '0') ['0'] decimal.value := by
  constructor
  · simp only [List.mem_append, List.mem_replicate, List.mem_singleton]
    rintro character ((member | ⟨-, rfl⟩) | rfl)
    · exact plain character member
    · rfl
    · rfl
  · have zero : '0'.toNat - '0'.toNat = 0 := rfl
    rw [value, place, Nat.ofDigitChars_append, Nat.ofDigitChars_append,
      Nat.ofDigitChars_replicate_zero, read, Nat.ofDigitChars_cons, Nat.ofDigitChars_nil, zero]
    have tens : Nat.pow 10 (zeros + finestPlace) = 10 ^ zeros * 10 ^ finestPlace :=
      Nat.pow_add 10 zeros finestPlace
    rw [tens, List.length_singleton]
    generalize 10 ^ finestPlace = unit
    ring

/-- The digits, behind zeros where otherwise none would stand before the point. -/
def padded (decimal : Decimal) : List Char :=
  List.replicate (1 - decimal.point).toNat '0' ++ decimal.characters

theorem isDigit_of_mem_padded {character : Char} (member : character ∈ decimal.padded) :
    character.isDigit = true := by
  rcases List.mem_append.mp member with zero | digit
  · rw [List.eq_of_mem_replicate zero]
    rfl
  · exact isDigit_of_mem_characters digit

theorem ofDigitChars_padded (decimal : Decimal) :
    Nat.ofDigitChars 10 decimal.padded 0 = decimal.digits := by
  calc
    Nat.ofDigitChars 10 decimal.padded 0
    _ = Nat.ofDigitChars 10 decimal.characters
        (Nat.ofDigitChars 10 (List.replicate (1 - decimal.point).toNat '0') 0) :=
      Nat.ofDigitChars_append 0
    _ = Nat.ofDigitChars 10 decimal.characters 0 := by
      rw [Nat.ofDigitChars_replicate_zero, Nat.mul_zero]
    _ = decimal.digits := decimal.ofDigitChars_characters

theorem length_padded (decimal : Decimal) :
    decimal.padded.length = (1 - decimal.point).toNat + decimal.characters.length := by
  rw [padded, List.length_append, List.length_replicate]

/-- Digits with a point denote what the decimal denotes. -/
theorem exists_pointed (decimal : Decimal) :
    ∃ whole fraction, decimal.positional = whole ++ '.' :: fraction ∧
      Pointed whole fraction decimal.value := by
  have counted := decimal.length_characters_pos
  have length := decimal.length_padded
  have point : decimal.point =
      (decimal.characters.length + decimal.place : Nat) - (finestPlace : Int) := rfl
  have plain (character : Char) (member : character ∈ decimal.padded) :
      character.isDigit = true := isDigit_of_mem_padded member
  refine ⟨_, _, rfl, ?_⟩
  change Pointed (decimal.padded.take (max decimal.point 1).toNat ++ List.replicate
      ((max decimal.point 1).toNat - (decimal.padded.take (max decimal.point 1).toNat).length) '0')
    (if (decimal.padded.drop (max decimal.point 1).toNat).isEmpty then ['0']
      else decimal.padded.drop (max decimal.point 1).toNat) decimal.value
  cases behind : decimal.padded.drop (max decimal.point 1).toNat with
  | nil =>
      have short := List.drop_eq_nil_iff.mp behind
      rw [List.take_of_length_le short]
      apply pointed_of_zeros plain decimal.ofDigitChars_padded
      omega
  | cons digit others =>
      have long : (max decimal.point 1).toNat < decimal.padded.length := by
        apply Nat.lt_of_not_le
        intro short
        rw [List.drop_eq_nil_iff.mpr short] at behind
        cases behind
      have fraction : (digit :: others).length =
          decimal.padded.length - (max decimal.point 1).toNat := by
        rw [← behind, List.length_drop]
      have split : decimal.padded.take (max decimal.point 1).toNat ++ digit :: others =
          decimal.padded := by
        rw [← behind, List.take_append_drop]
      rw [List.length_take, Nat.min_eq_left (Nat.le_of_lt long), Nat.sub_self,
        List.replicate_zero, List.append_nil, List.isEmpty_cons, if_neg Bool.false_ne_true]
      apply pointed_of_places
      · rw [split]
        exact plain
      · rw [split]
        exact decimal.ofDigitChars_padded
      · omega

/-! ## Digits with a power of ten -/

/-- Digits with a power of ten have a point among them at most. -/
theorem exists_mantissa (decimal : Decimal) :
    ∃ mantissa, decimal.scientific = mantissa ++ 'e' :: (toString (decimal.point - 1)).toList ∧
      (∀ character ∈ mantissa, character = '.' ∨ character.isDigit = true) ∧
      mantissa.filter Char.isDigit = decimal.characters := by
  have digits : ∀ character ∈ decimal.characters, character.isDigit = true := by
    intro character member
    exact isDigit_of_mem_characters member
  unfold scientific
  generalize decimal.characters = characters at *
  rcases characters with _ | ⟨first, _ | ⟨second, others⟩⟩
  · exact ⟨[], rfl, by simp, rfl⟩
  · refine ⟨[first], rfl, ?_, List.filter_eq_self.mpr digits⟩
    intro character member
    exact .inr (digits character member)
  · obtain ⟨leading, later⟩ := List.forall_mem_cons.mp digits
    refine ⟨first :: '.' :: second :: others, rfl, ?_, ?_⟩
    · intro character member
      rcases List.mem_cons.mp member with rfl | member
      · exact .inr leading
      · rcases List.mem_cons.mp member with rfl | member
        · exact .inl rfl
        · exact .inr (later character member)
    · rw [List.filter_cons_of_pos leading, List.filter_cons_of_neg (by decide),
        List.filter_eq_self.mpr later]

theorem value_eq_of_scientific_eq (same : left.scientific = right.scientific) :
    left.value = right.value := by
  obtain ⟨mantissa, text, plain, digits⟩ := left.exists_mantissa
  obtain ⟨other, otherText, otherPlain, otherDigits⟩ := right.exists_mantissa
  have absent : 'e' ∉ mantissa := mt (plain 'e') (by decide)
  have otherAbsent : 'e' ∉ other := mt (otherPlain 'e') (by decide)
  rw [text, otherText] at same
  obtain ⟨rfl, exponents⟩ := append_cons_inj absent otherAbsent same
  have characters : left.characters = right.characters := digits.symm.trans otherDigits
  have points : left.point - 1 = right.point - 1 := by
    apply Int.repr_injective
    exact String.toList_injective exponents
  have places : left.place = right.place := by
    have counted := congrArg List.length characters
    unfold point at points
    omega
  rw [value, value, digits_eq_of_characters_eq characters, places]

theorem value_eq_of_positional_eq (same : left.positional = right.positional) :
    left.value = right.value := by
  obtain ⟨whole, fraction, text, pointed⟩ := left.exists_pointed
  obtain ⟨otherWhole, otherFraction, otherText, again⟩ := right.exists_pointed
  rw [text, otherText] at same
  obtain ⟨rfl, rfl⟩ := append_cons_inj (pointed.notMem rfl) (again.notMem rfl) same
  exact pointed.unique again

theorem exponent_notMem_positional : 'e' ∉ decimal.positional := by
  obtain ⟨whole, fraction, text, pointed⟩ := decimal.exists_pointed
  intro member
  have listed : 'e' ∈ whole ++ fraction := by simpa [text] using member
  cases pointed.digits 'e' listed

theorem exponent_mem_scientific : 'e' ∈ decimal.scientific := by
  obtain ⟨mantissa, text, -⟩ := decimal.exists_mantissa
  rw [text]
  exact List.mem_append_right _ List.mem_cons_self

theorem value_eq_of_render_eq (same : left.render = right.render) : left.value = right.value := by
  unfold render at same
  split at same <;> split at same
  · exact value_eq_of_positional_eq same
  · exact absurd (same ▸ exponent_mem_scientific) exponent_notMem_positional
  · exact absurd (same ▸ exponent_mem_scientific) exponent_notMem_positional
  · exact value_eq_of_scientific_eq same

theorem head_append_ne_minus {front back : List Char} {mark : Char} (plain : '-' ∉ front)
    (other : mark ≠ '-') : (front ++ mark :: back).head? ≠ some '-' := by
  cases front with
  | nil => simpa using other
  | cons first front => simpa [eq_comm] using List.ne_of_not_mem_cons plain

theorem head_render_ne_minus (decimal : Decimal) : decimal.render.head? ≠ some '-' := by
  unfold render
  split
  · obtain ⟨whole, fraction, text, pointed⟩ := decimal.exists_pointed
    rw [text]
    exact head_append_ne_minus (pointed.notMem rfl) (by decide)
  · obtain ⟨mantissa, text, plain, -⟩ := decimal.exists_mantissa
    rw [text]
    exact head_append_ne_minus (mt (plain '-') (by decide)) (by decide)

/-- A decimal is written with digits, a point, and a power of ten. -/
theorem isDigit_or_mark_of_mem_render {character : Char} (member : character ∈ decimal.render) :
    character.isDigit = true ∨ character ∈ ['.', 'e', '-'] := by
  unfold render at member
  split at member
  · obtain ⟨whole, fraction, text, pointed⟩ := decimal.exists_pointed
    rw [text] at member
    rcases List.mem_append.mp member with before | behind
    · exact .inl (pointed.digits character (List.mem_append_left _ before))
    · rcases List.mem_cons.mp behind with rfl | behind
      · exact .inr (by simp)
      · exact .inl (pointed.digits character (List.mem_append_right _ behind))
  · obtain ⟨mantissa, text, plain, -⟩ := decimal.exists_mantissa
    rw [text] at member
    rcases List.mem_append.mp member with before | behind
    · rcases plain character before with rfl | digit
      · exact .inr (by simp)
      · exact .inl digit
    · rcases List.mem_cons.mp behind with rfl | exponent
      · exact .inr (by simp)
      · rcases Literal.isDigit_or_minus_of_mem_toString exponent with digit | rfl
        · exact .inl digit
        · exact .inr (by simp)

theorem mark_mem_render (decimal : Decimal) : '.' ∈ decimal.render ∨ 'e' ∈ decimal.render := by
  unfold render
  split
  · obtain ⟨whole, fraction, text, -⟩ := decimal.exists_pointed
    rw [text]
    exact .inl (List.mem_append_right _ List.mem_cons_self)
  · exact .inr exponent_mem_scientific

end Decimal

/-! ## Magnitudes -/

theorem magnitudeText_of_finite {rank : Nat} (finite : rank < infinityRank) :
    ∃ decimal : Decimal, decimal.toRank = rank ∧
      magnitudeText rank = String.ofList decimal.render := by
  cases rank with
  | zero =>
      have nothing : (Decimal.mk 0 finestPlace).value = (Decimal.mk (decimalUnits 0) 0).value := by
        simp [Decimal.value, decimalUnits, units]
      refine ⟨⟨0, finestPlace⟩, ?_, by decide⟩
      rw [Decimal.toRank_eq_of_value_eq nothing, Decimal.toRank_exact (Nat.zero_le _)]
  | succ before =>
      refine ⟨_, Decimal.toRank_shortest (Nat.le_of_lt finite), ?_⟩
      rw [magnitudeText, if_neg (Nat.succ_ne_zero _), if_neg (Nat.not_le_of_lt finite)]

theorem magnitudeText_infinity : magnitudeText infinityRank = "inf" := by
  decide

theorem magnitudeText_ne_infinity {rank : Nat} (finite : rank < infinityRank) :
    magnitudeText rank ≠ "inf" := by
  obtain ⟨decimal, -, text⟩ := magnitudeText_of_finite finite
  rw [text]
  intro same
  have letters : decimal.render = ['i', 'n', 'f'] := by
    rw [← String.toList_ofList (l := decimal.render), same]
    rfl
  rcases decimal.mark_mem_render with point | exponent
  · simp [letters] at point
  · simp [letters] at exponent

theorem magnitudeText_inj {left right : Nat} (leftBounded : left ≤ infinityRank)
    (rightBounded : right ≤ infinityRank) (same : magnitudeText left = magnitudeText right) :
    left = right := by
  rcases Nat.lt_or_eq_of_le leftBounded with leftFinite | rfl <;>
    rcases Nat.lt_or_eq_of_le rightBounded with rightFinite | rfl
  · obtain ⟨decimal, rfl, text⟩ := magnitudeText_of_finite leftFinite
    obtain ⟨other, rfl, otherText⟩ := magnitudeText_of_finite rightFinite
    rw [text, otherText] at same
    exact Decimal.toRank_eq_of_value_eq
      (Decimal.value_eq_of_render_eq (String.ofList_injective same))
  · exact absurd (same.trans magnitudeText_infinity) (magnitudeText_ne_infinity leftFinite)
  · exact absurd (same.symm.trans magnitudeText_infinity) (magnitudeText_ne_infinity rightFinite)
  · rfl

theorem head_magnitudeText_ne_minus {rank : Nat} (bounded : rank ≤ infinityRank) :
    (magnitudeText rank).toList.head? ≠ some '-' := by
  rcases Nat.lt_or_eq_of_le bounded with finite | rfl
  · obtain ⟨decimal, -, text⟩ := magnitudeText_of_finite finite
    rw [text, String.toList_ofList]
    exact decimal.head_render_ne_minus
  · rw [magnitudeText_infinity]
    decide

/-! ## Numbers -/

theorem render_injective : Function.Injective render := by
  rintro ⟨sign, rank, bounded⟩ ⟨otherSign, otherRank, otherBounded⟩ same
  have unsigned := head_magnitudeText_ne_minus bounded
  have otherUnsigned := head_magnitudeText_ne_minus otherBounded
  have texts := congrArg String.toList same
  have minus : "-".toList = ['-'] := rfl
  have empty : "".toList = [] := rfl
  simp only [render, String.toList_append] at texts
  cases sign <;> cases otherSign <;>
    simp only [Bool.false_eq_true, ↓reduceIte, minus, empty, List.nil_append] at texts
  · obtain rfl := magnitudeText_inj bounded otherBounded (String.toList_injective texts)
    rfl
  · simp [texts] at unsigned
  · simp [← texts] at otherUnsigned
  · obtain rfl := magnitudeText_inj bounded otherBounded
      (String.toList_injective (List.append_cancel_left texts))
    rfl

/-- A number is written without spaces and delimiters. -/
theorem isDigit_or_mark_of_mem_render {number : Binary64} {character : Char}
    (member : character ∈ number.render.toList) :
    character.isDigit = true ∨ character ∈ ['.', 'e', '-', 'i', 'n', 'f'] := by
  obtain ⟨sign, rank, bounded⟩ := number
  rw [render, String.toList_append] at member
  rcases List.mem_append.mp member with signed | magnitude
  · have minus : "-".toList ⊆ ['.', 'e', '-', 'i', 'n', 'f'] := by decide
    cases sign with
    | false => cases signed
    | true => exact .inr (minus signed)
  · rcases Nat.lt_or_eq_of_le bounded with finite | infinite
    · obtain ⟨decimal, -, text⟩ := magnitudeText_of_finite finite
      have marks : ['.', 'e', '-'] ⊆ ['.', 'e', '-', 'i', 'n', 'f'] := by decide
      rw [text, String.toList_ofList] at magnitude
      rcases decimal.isDigit_or_mark_of_mem_render magnitude with digit | mark
      · exact .inl digit
      · exact .inr (marks mark)
    · have letters : "inf".toList ⊆ ['.', 'e', '-', 'i', 'n', 'f'] := by decide
      have text : magnitudeText rank = "inf" := by rw [infinite, ← magnitudeText_infinity]; rfl
      rw [text] at magnitude
      exact .inr (letters magnitude)

/-! ## Bit patterns -/

/-- The sign is the highest of the 64 bits, the magnitude the others. -/
theorem pattern_eq (number : Binary64) :
    number.pattern = number.negative.toNat * Nat.pow 2 63 + number.rank := by
  unfold pattern
  cases number.negative with
  | false => rw [if_neg Bool.false_ne_true, Bool.toNat_false, Nat.zero_mul, Nat.zero_add]
  | true => rw [if_pos rfl, Bool.toNat_true, Nat.one_mul]

theorem pattern_injective : Function.Injective pattern := by
  rintro ⟨sign, rank, bounded⟩ ⟨otherSign, otherRank, otherBounded⟩ same
  have block : Nat.pow 2 52 = 4503599627370496 := rfl
  have top : Nat.pow 2 63 = 9223372036854775808 := rfl
  simp only [pattern_eq, top] at same
  rw [block] at bounded otherBounded
  cases sign <;> cases otherSign <;>
    simp only [Bool.toNat_false, Bool.toNat_true, mk.injEq, true_and] at same ⊢ <;>
    omega

def ofHexDigits (digits : List Char) : Nat :=
  digits.foldl (fun value digit => 16 * value + "0123456789abcdef".toList.idxOf digit) 0

theorem idxOf_digitChar {digit : Nat} (small : digit < 16) :
    "0123456789abcdef".toList.idxOf digit.digitChar = digit := by
  have all : ∀ digit : Fin 16, "0123456789abcdef".toList.idxOf digit.val.digitChar = digit.val := by
    decide
  exact all ⟨digit, small⟩

theorem ofHexDigits_toDigits (value : Nat) : ofHexDigits (Nat.toDigits 16 value) = value := by
  induction value using Nat.strongRecOn with
  | ind value previous =>
    rcases Nat.lt_or_ge value 16 with small | large
    · rw [Nat.toDigits_of_lt_base small, ofHexDigits, List.foldl_cons, List.foldl_nil,
        idxOf_digitChar small, Nat.mul_zero, Nat.zero_add]
    · have last := idxOf_digitChar (Nat.mod_lt value (by decide : 0 < 16))
      calc
        ofHexDigits (Nat.toDigits 16 value)
        _ = ofHexDigits (Nat.toDigits 16 (value / 16) ++ [(value % 16).digitChar]) := by
          rw [Nat.toDigits_of_base_le (by decide) large]
        _ = 16 * ofHexDigits (Nat.toDigits 16 (value / 16)) + value % 16 := by
          rw [ofHexDigits, List.foldl_append, List.foldl_cons, List.foldl_nil, last]
          rfl
        _ = 16 * (value / 16) + value % 16 := by rw [previous (value / 16) (by omega)]
        _ = value := Nat.div_add_mod value 16

theorem ofHexDigits_replicate_append (zeros : Nat) (digits : List Char) :
    ofHexDigits (List.replicate zeros '0' ++ digits) = ofHexDigits digits := by
  induction zeros with
  | zero => rfl
  | succ zeros shorter => exact shorter

theorem ofHexDigits_hex (number : Binary64) : ofHexDigits number.hex.toList = number.pattern := by
  rw [hex, String.toList_ofList, ofHexDigits_replicate_append, ofHexDigits_toDigits]

theorem hex_injective : Function.Injective hex := by
  intro left right same
  apply pattern_injective
  rw [← ofHexDigits_hex, same, ofHexDigits_hex]

end SheetLang.Binary64
