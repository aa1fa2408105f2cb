import SheetLang.Cursor.Pieces
import SheetLang.Proofs.Lexeme.Runs

/-!
# Counting in bytes

Texts between two places of a source, and words of ASCII characters, whose characters are
their bytes.
-/

namespace SheetLang

open Reader (byteSize)

variable {front middle back text : List Char} {source part : String} {first last : Nat}
  {accept : Char → Bool} {character : Char}

/-! ## Sizes -/

@[simp] theorem byteSize_nil : byteSize [] = 0 := rfl

@[simp] theorem byteSize_cons (head : Char) (rest : List Char) :
    byteSize (head :: rest) = head.utf8Size + byteSize rest := rfl

@[simp] theorem byteSize_append (front back : List Char) :
    byteSize (front ++ back) = byteSize front + byteSize back := by
  induction front with
  | nil => rw [List.nil_append, byteSize_nil, Nat.zero_add]
  | cons head rest induction =>
      rw [List.cons_append, byteSize_cons, byteSize_cons, induction, Nat.add_assoc]

@[simp] theorem utf8ByteSize_ofList (text : List Char) :
    (String.ofList text).utf8ByteSize = byteSize text := by
  induction text with
  | nil => rfl
  | cons head rest induction =>
      rw [String.ofList_cons, String.utf8ByteSize_append, induction, String.utf8ByteSize_singleton,
        byteSize_cons]

theorem byteSize_toList (source : String) : byteSize source.toList = source.utf8ByteSize := by
  rw [← utf8ByteSize_ofList, String.ofList_toList]

/-! ## Texts between places -/

/-- A text stands between two places exactly if the source is that text with as many bytes
around it. -/
theorem between?_eq_some_iff :
    between? source first last = some part ↔
      ∃ front back, source = front ++ part ++ back ∧ first = front.utf8ByteSize ∧
        last = (front ++ part).utf8ByteSize := by
  constructor
  · intro found
    unfold between? at found
    split at found
    case mp.isTrue valid =>
      obtain ⟨opened, closed, ordered⟩ := valid
      have places : source.pos ⟨first⟩ opened ≤ source.pos ⟨last⟩ closed := ordered
      rw [Option.some_inj, String.extract_eq_copy_slice _ _ places] at found
      obtain ⟨front, back, before, behind⟩ := String.copy_slice_eq_iff_splits.mp ⟨places, found⟩
      exact ⟨front, back, behind.eq_append,
        congrArg String.Pos.Raw.byteIdx before.offset_eq_rawEndPos,
        congrArg String.Pos.Raw.byteIdx behind.offset_eq_rawEndPos⟩
    · cases found
  · rintro ⟨front, back, whole, rfl, rfl⟩
    have apart : source = front ++ (part ++ back) := by rw [whole, String.append_assoc]
    have opened : String.Pos.Raw.IsValid source ⟨front.utf8ByteSize⟩ :=
      String.Pos.Raw.isValid_iff_exists_append.mpr ⟨front, part ++ back, apart, rfl⟩
    have closed : String.Pos.Raw.IsValid source ⟨(front ++ part).utf8ByteSize⟩ :=
      String.Pos.Raw.isValid_iff_exists_append.mpr ⟨front ++ part, back, whole, rfl⟩
    have ordered : front.utf8ByteSize ≤ (front ++ part).utf8ByteSize := by
      rw [String.utf8ByteSize_append]
      exact Nat.le_add_right _ _
    have places : source.pos _ opened ≤ source.pos _ closed := ordered
    have splits : (source.pos _ opened).Splits front (part ++ back) ∧
        (source.pos _ closed).Splits (front ++ part) back := ⟨⟨apart, rfl⟩, ⟨whole, rfl⟩⟩
    obtain ⟨_, same⟩ := String.copy_slice_eq_iff_splits.mpr ⟨front, back, splits⟩
    rw [between?, dif_pos ⟨opened, closed, ordered⟩, String.extract_eq_copy_slice _ _ places, same]

/-- A character of two bytes can be taken out of a text, but no half of it. -/
example : between? "aéx" 1 3 = some "é" ∧ between? "aéx" 1 2 = none := by decide +kernel

theorem between?_of_append (whole : source.toList = front ++ middle ++ back) :
    between? source (byteSize front) (byteSize front + byteSize middle) =
      some (String.ofList middle) := by
  apply between?_eq_some_iff.mpr
  refine ⟨String.ofList front, String.ofList back, ?_, ?_, ?_⟩
  · rw [← String.ofList_append, ← String.ofList_append, ← whole, String.ofList_toList]
  · rw [utf8ByteSize_ofList]
  · rw [String.utf8ByteSize_append, utf8ByteSize_ofList, utf8ByteSize_ofList]

theorem between?_of_suffix (whole : source.toList = front ++ back) :
    between? source (byteSize front) source.utf8ByteSize = some (String.ofList back) := by
  have size : source.utf8ByteSize = byteSize front + byteSize back := by
    rw [← byteSize_toList, whole, byteSize_append]
  rw [size]
  apply between?_of_append
  rw [whole, List.append_nil]

theorem isValid_of_append (whole : source.toList = front ++ back) :
    String.Pos.Raw.IsValid source ⟨byteSize front⟩ := by
  apply String.Pos.Raw.isValid_iff_exists_append.mpr
  refine ⟨String.ofList front, String.ofList back, ?_, ?_⟩
  · rw [← String.ofList_append, ← whole, String.ofList_toList]
  · rw [String.Pos.Raw.ext_iff, String.byteIdx_rawEndPos, utf8ByteSize_ofList]

/-! ## ASCII characters -/

/-- The characters that are accepted have one byte each. -/
def IsNarrow (accept : Char → Bool) : Prop :=
  ∀ character, accept character = true → character.utf8Size = 1

theorem byteSize_eq_length (narrow : ∀ character ∈ text, character.utf8Size = 1) :
    byteSize text = text.length := by
  induction text with
  | nil => rfl
  | cons head rest induction =>
      obtain ⟨first, others⟩ := List.forall_mem_cons.mp narrow
      rw [byteSize_cons, first, induction others, List.length_cons, Nat.add_comm]

theorem ofUInt8_toUInt8 (narrow : character.utf8Size = 1) :
    Char.ofUInt8 character.val.toUInt8 = character := by
  have small : character.val.toNat ≤ 127 :=
    UInt32.le_iff_toNat_le.mp (Char.utf8Size_eq_one_iff.mp narrow)
  apply Char.ext
  apply UInt32.toNat_inj.mp
  change character.val.toUInt8.toUInt32.toNat = character.val.toNat
  rw [UInt8.toNat_toUInt32, UInt32.toNat_toUInt8, Nat.mod_eq_of_lt (by omega)]

/-- A character of several bytes begins with one that is no character on its own. -/
theorem exists_utf8EncodeChar_eq_cons (wide : character.utf8Size ≠ 1) :
    ∃ byte later, String.utf8EncodeChar character = byte :: later ∧ 128 ≤ byte.toNat := by
  have positive := character.utf8Size_pos
  have bounded := character.utf8Size_le_four
  obtain two | three | four : character.utf8Size = 2 ∨ character.utf8Size = 3 ∨
      character.utf8Size = 4 := by omega
  · refine ⟨_, _, String.utf8EncodeChar_eq_cons_cons two, ?_⟩
    rw [UInt8.toNat_or]
    exact Nat.le_trans (by decide) Nat.right_le_or
  · refine ⟨_, _, String.utf8EncodeChar_eq_cons_cons_cons three, ?_⟩
    rw [UInt8.toNat_or]
    exact Nat.le_trans (by decide) Nat.right_le_or
  · refine ⟨_, _, String.utf8EncodeChar_eq_cons_cons_cons_cons four, ?_⟩
    rw [UInt8.toNat_or]
    exact Nat.le_trans (by decide) Nat.right_le_or

theorem utf8Size_ofUInt8 {byte : UInt8} (wide : 128 ≤ byte.toNat) :
    (Char.ofUInt8 byte).utf8Size ≠ 1 := by
  rw [Ne, Char.utf8Size_eq_one_iff, UInt32.le_iff_toNat_le]
  change ¬byte.toUInt32.toNat ≤ 127
  rw [UInt8.toNat_toUInt32]
  omega

theorem IsNarrow.refuses (narrow : IsNarrow accept) (wide : character.utf8Size ≠ 1) :
    accept character = false := by
  cases accepted : accept character with
  | false => rfl
  | true => exact absurd (narrow character accepted) wide

theorem IsNarrow.of_mem_take_run (narrow : IsNarrow accept)
    (member : character ∈ text.take (Extent.run accept text)) : character.utf8Size = 1 :=
  narrow character (Extent.accept_of_mem_take_run member)

namespace Scan

theorem bytes_ofList (text : List Char) :
    (String.ofList text).toByteArray.data.toList = text.flatMap String.utf8EncodeChar := by
  rw [String.toByteArray_ofList, List.utf8Encode, List.toList_data_toByteArray]

theorem length_bytes (text : List Char) :
    (text.flatMap String.utf8EncodeChar).length = byteSize text := by
  induction text with
  | nil => rfl
  | cons head rest induction =>
      rw [List.flatMap_cons, List.length_append, String.length_utf8EncodeChar, induction,
        byteSize_cons]

/-- Bytes are accepted as far as characters are. -/
theorem length_takeWhile_bytes (narrow : IsNarrow accept) (text : List Char) :
    ((text.flatMap String.utf8EncodeChar).takeWhile fun byte =>
      accept (Char.ofUInt8 byte)).length = Extent.run accept text := by
  induction text with
  | nil => rfl
  | cons head rest induction =>
      rw [List.flatMap_cons, Extent.run_cons]
      by_cases one : head.utf8Size = 1
      · rw [String.utf8EncodeChar_eq_singleton one, List.singleton_append, List.takeWhile_cons,
          ofUInt8_toUInt8 one]
        split
        · rw [List.length_cons, induction]
        · rfl
      · obtain ⟨byte, later, bytes, wide⟩ := exists_utf8EncodeChar_eq_cons one
        rw [bytes, List.cons_append, List.takeWhile_cons, narrow.refuses one,
          narrow.refuses (utf8Size_ofUInt8 wide)]
        rfl

/-- Behind some characters of a text, as many bytes are accepted as characters are. -/
theorem countBehind?_of_append (narrow : IsNarrow accept) (front back : List Char) :
    countBehind? accept (String.ofList (front ++ back)).toByteArray.data.toList
      (byteSize front) = some (Extent.run accept back) := by
  have size : (front.flatMap String.utf8EncodeChar).length = byteSize front := length_bytes front
  rw [countBehind?, bytes_ofList, List.flatMap_append, if_pos, ← size, List.drop_left,
    length_takeWhile_bytes narrow]
  rw [List.length_append, size]
  exact Nat.le_add_right _ _

end Scan

end SheetLang
