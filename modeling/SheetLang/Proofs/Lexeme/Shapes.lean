import SheetLang.Lexeme.Rules
import SheetLang.Proofs.Lexeme.Runs

/-!
# Texts of shapes

What the first character of a text says about the kinds that admit it, and how far
each shape reaches.  Where all characters of a shape but the first are of one class,
it reaches no further than the class; a coordinate and a decimal literal begin with a
class of characters that has to be used up before they go on.
-/

namespace SheetLang

open Shape

/-! ## Classes of characters -/

theorem isLower_iff {character : Char} :
    character.isLower = true ↔ 97 ≤ character.toNat ∧ character.toNat ≤ 122 := by
  change (decide (97 ≤ character.val) && decide (character.val ≤ 122)) = true ↔ _
  simp [UInt32.le_iff_toNat_le]

theorem isUpper_iff {character : Char} :
    character.isUpper = true ↔ 65 ≤ character.toNat ∧ character.toNat ≤ 90 := by
  change decide (65 ≤ character.val ∧ character.val ≤ 90) = true ↔ _
  simp [UInt32.le_iff_toNat_le]

theorem isDigit_iff {character : Char} :
    character.isDigit = true ↔ 48 ≤ character.toNat ∧ character.toNat ≤ 57 := by
  change (decide (48 ≤ character.val) && decide (character.val ≤ 57)) = true ↔ _
  simp [UInt32.le_iff_toNat_le]

theorem not_isUpper_of_isDigit {character : Char} (digit : character.isDigit = true) :
    character.isUpper = false := by
  rw [isDigit_iff] at digit
  rw [← Bool.not_eq_true, isUpper_iff]
  omega

theorem ne_minus_of_isDigit {character : Char} (digit : character.isDigit = true) :
    character ≠ '-' := by
  intro sign
  subst sign
  cases digit

theorem isWordChar_iff {character : Char} :
    isWordChar character = true ↔ character.isUpper = true ∨ character.isLower = true ∨
      character.isDigit = true ∨ character = '_' := by
  change (character.isUpper || character.isLower || character.isDigit ||
    character == '_') = true ↔ _
  simp [or_assoc]

theorem isWordChar_of_isUpper {character : Char} (upper : character.isUpper = true) :
    isWordChar character = true :=
  isWordChar_iff.mpr (Or.inl upper)

theorem isWordChar_of_isLower {character : Char} (lower : character.isLower = true) :
    isWordChar character = true :=
  isWordChar_iff.mpr (Or.inr (Or.inl lower))

theorem isWordChar_of_isDigit {character : Char} (digit : character.isDigit = true) :
    isWordChar character = true :=
  isWordChar_iff.mpr (Or.inr (Or.inr (Or.inl digit)))

theorem isWordChar_of_isFuncChar {character : Char} (letter : isFuncChar character = true) :
    isWordChar character = true := by
  simp only [isFuncChar, Bool.or_eq_true] at letter
  obtain (lower | digit) | underscore := letter
  · exact isWordChar_of_isLower lower
  · exact isWordChar_of_isDigit digit
  · exact isWordChar_iff.mpr (Or.inr (Or.inr (Or.inr (beq_iff_eq.mp underscore))))

theorem not_isBlank_of_isWordChar {character : Char} (word : isWordChar character = true) :
    ¬IsBlank character := by
  intro blank
  obtain rfl | rfl | rfl := blank <;> cases word

theorem ne_of_isWordChar {character mark : Char} (word : isWordChar character = true)
    (other : isWordChar mark = false) : character ≠ mark := by
  intro same
  rw [same, other] at word
  cases word

/-! ## Shapes -/

namespace Shape

theorem oneOrMore_iff {accept : Char → Bool} {text : List Char} :
    oneOrMore accept text = true ↔ text ≠ [] ∧ ∀ character ∈ text, accept character = true := by
  simp [oneOrMore]

theorem rangeName_iff {text : List Char} :
    rangeName text = true ↔ ∃ rest, text = '_' :: rest ∧ oneOrMore isWordChar rest = true := by
  constructor
  · intro shape
    unfold rangeName at shape
    split at shape
    · exact ⟨_, rfl, shape⟩
    · cases shape
  · intro found
    obtain ⟨rest, rfl, shape⟩ := found
    exact shape

/-- Capitals, which cannot be digits, and then digits. -/
theorem coordinate_iff {text : List Char} :
    coordinate text = true ↔ ∃ capitals digits, text = capitals ++ digits ∧
      oneOrMore Char.isUpper capitals = true ∧ capitals.length ≤ 2 ∧
      oneOrMore Char.isDigit digits = true ∧ digits.length ≤ 3 := by
  constructor
  · intro shape
    simp only [coordinate, Bool.and_eq_true, decide_eq_true_eq] at shape
    obtain ⟨⟨⟨capitals, few⟩, digits⟩, short⟩ := shape
    exact ⟨_, _, List.takeWhile_append_dropWhile.symm, capitals, few, digits, short⟩
  · intro found
    obtain ⟨capitals, digits, rfl, upper, few, numeric, short⟩ := found
    have inside := (oneOrMore_iff.mp upper).2
    have outside : ∀ character ∈ digits.head?, character.isUpper = false := by
      intro character next
      apply not_isUpper_of_isDigit
      exact (oneOrMore_iff.mp numeric).2 character (List.mem_of_mem_head? next)
    simp only [coordinate, Extent.takeWhile_append inside outside,
      Extent.dropWhile_append inside outside]
    simp [upper, few, numeric, short]

theorem unsigned_cons {head : Char} {rest : List Char} (sign : head ≠ '-') :
    unsigned (head :: rest) = head :: rest := by
  unfold unsigned
  split
  case h_1 same =>
    cases same
    exact absurd rfl sign
  · rfl

theorem decimal_iff {text : List Char} :
    decimal text = true ↔ ∃ digits digit, unsigned text = digits ++ ['.', digit] ∧
      oneOrMore Char.isDigit digits = true ∧ digit.isDigit = true := by
  constructor
  · intro shape
    simp only [decimal, Bool.and_eq_true] at shape
    obtain ⟨digits, fraction⟩ := shape
    split at fraction
    case h_1 digit behind =>
      refine ⟨_, digit, ?_, digits, fraction⟩
      rw [← behind]
      exact List.takeWhile_append_dropWhile.symm
    · cases fraction
  · intro found
    obtain ⟨digits, digit, whole, numeric, fraction⟩ := found
    have inside := (oneOrMore_iff.mp numeric).2
    have outside : ∀ character ∈ ['.', digit].head?, character.isDigit = false := by
      intro character next
      cases next
      rfl
    simp only [decimal, whole, Extent.takeWhile_append inside outside,
      Extent.dropWhile_append inside outside]
    simp [numeric, fraction]

theorem head_of_oneOrMore {accept : Char → Bool} {text : List Char}
    (shape : oneOrMore accept text = true) :
    ∃ head rest, text = head :: rest ∧ accept head = true := by
  obtain ⟨nonempty, inside⟩ := oneOrMore_iff.mp shape
  obtain ⟨head, rest, rfl⟩ := List.exists_cons_of_ne_nil nonempty
  exact ⟨head, rest, rfl, inside head List.mem_cons_self⟩

theorem head_of_integer {text : List Char} (shape : integer text = true) :
    ∃ digit rest, unsigned text = digit :: rest ∧ digit.isDigit = true :=
  head_of_oneOrMore shape

theorem head_of_decimal {text : List Char} (shape : decimal text = true) :
    ∃ digit rest, unsigned text = digit :: rest ∧ digit.isDigit = true := by
  obtain ⟨digits, last, whole, numeric, -⟩ := decimal_iff.mp shape
  obtain ⟨digit, more, rfl, first⟩ := head_of_oneOrMore numeric
  exact ⟨digit, _, whole, first⟩

theorem info_iff {text : List Char} :
    info text = true ↔ ∃ body, text = '!' :: body ++ ['!'] ∧
      ∀ character ∈ body, isInfoChar character = true := by
  constructor
  · intro shape
    unfold info at shape
    split at shape
    case h_1 rest =>
      simp only [Bool.and_eq_true, beq_iff_eq, List.all_eq_true] at shape
      obtain ⟨last, inside⟩ := shape
      obtain ⟨body, rfl⟩ := List.getLast?_eq_some_iff.mp last
      rw [List.dropLast_concat] at inside
      exact ⟨body, rfl, inside⟩
    · cases shape
  · intro found
    obtain ⟨body, rfl, inside⟩ := found
    simpa [info] using inside

end Shape

/-! ## First characters -/

/-- The first characters of the texts that a kind admits. -/
def Token.Kind.opens : Token.Kind → Char → Bool
  | keyword _, head | ident, head => head.isLower
  | coordinate, head | sheetName, head | funcName, head => head.isUpper
  | rangeName, head => head == '_'
  | integer, head | decimal, head => head.isDigit || head == '-'
  | info, head => head == '!'
  | symbol mark, head => mark.text.toList.head? == some head

theorem ident_keyword (word : Keyword) : Shape.ident word.text.toList = true := by
  cases word <;> decide

theorem opens_of_admits {kind : Token.Kind} {head : Char} {rest : List Char}
    (admits : kind.admits (head :: rest) = true) : kind.opens head = true := by
  cases kind with
  | keyword word =>
      have shape := ident_keyword word
      rw [← beq_iff_eq.mp admits] at shape
      exact (Bool.and_eq_true_iff.mp shape).1
  | symbol mark =>
      have spelled : head :: rest = mark.text.toList := beq_iff_eq.mp admits
      simp [Token.Kind.opens, ← spelled]
  | ident => exact (Bool.and_eq_true_iff.mp admits).1
  | coordinate =>
      obtain ⟨capitals, digits, whole, upper, -, -, -⟩ := coordinate_iff.mp admits
      obtain ⟨capital, more, rfl, first⟩ := head_of_oneOrMore upper
      cases whole
      exact first
  | rangeName =>
      obtain ⟨more, whole, -⟩ := rangeName_iff.mp admits
      cases whole
      rfl
  | sheetName =>
      have shape : oneOrMore Char.isUpper (head :: rest) = true := admits
      exact (oneOrMore_iff.mp shape).2 head List.mem_cons_self
  | funcName => exact (Bool.and_eq_true_iff.mp admits).1
  | integer =>
      by_cases sign : head = '-'
      · simp [Token.Kind.opens, sign]
      · obtain ⟨digit, more, whole, first⟩ := head_of_integer admits
        rw [unsigned_cons sign] at whole
        cases whole
        simp [Token.Kind.opens, first]
  | decimal =>
      by_cases sign : head = '-'
      · simp [Token.Kind.opens, sign]
      · obtain ⟨digit, more, whole, first⟩ := head_of_decimal admits
        rw [unsigned_cons sign] at whole
        cases whole
        simp [Token.Kind.opens, first]
  | info =>
      obtain ⟨body, whole, -⟩ := info_iff.mp admits
      cases whole
      rfl

namespace Token.Kind
variable {head : Char} {kind : Token.Kind}

theorem spelled_of_opens {mark : Symbol} (opened : opens (.symbol mark) head = true) :
    mark.text.toList.head? = some head := by
  simpa [opens] using opened

theorem not_isWordChar_of_opens {mark : Symbol} (opened : opens (.symbol mark) head = true) :
    isWordChar head = false := by
  have spelled := spelled_of_opens opened
  cases mark <;> cases spelled <;> rfl

theorem opens_of_isDigit (digit : head.isDigit = true) (opened : kind.opens head = true) :
    kind = .integer ∨ kind = .decimal := by
  have range := isDigit_iff.mp digit
  cases kind with
  | integer => exact Or.inl rfl
  | decimal => exact Or.inr rfl
  | symbol mark =>
      have plain := not_isWordChar_of_opens opened
      exact absurd (isWordChar_of_isDigit digit) (Bool.eq_false_iff.mp plain)
  | keyword word | ident =>
      have other := isLower_iff.mp opened
      omega
  | coordinate | sheetName | funcName =>
      have other := isUpper_iff.mp opened
      omega
  | rangeName | info =>
      rw [beq_iff_eq.mp opened] at digit
      cases digit

theorem opens_of_isLower (lower : head.isLower = true) (opened : kind.opens head = true) :
    (∃ word, kind = .keyword word) ∨ kind = .ident := by
  have range := isLower_iff.mp lower
  cases kind with
  | keyword word => exact Or.inl ⟨word, rfl⟩
  | ident => exact Or.inr rfl
  | symbol mark =>
      have plain := not_isWordChar_of_opens opened
      exact absurd (isWordChar_of_isLower lower) (Bool.eq_false_iff.mp plain)
  | integer | decimal =>
      cases Bool.or_eq_true_iff.mp opened with
      | inl digit =>
          have other := isDigit_iff.mp digit
          omega
      | inr sign =>
          rw [beq_iff_eq.mp sign] at lower
          cases lower
  | coordinate | sheetName | funcName =>
      have other := isUpper_iff.mp opened
      omega
  | rangeName | info =>
      rw [beq_iff_eq.mp opened] at lower
      cases lower
theorem opens_of_isUpper (upper : head.isUpper = true) (opened : kind.opens head = true) :
    kind = .coordinate ∨ kind = .sheetName ∨ kind = .funcName := by
  have range := isUpper_iff.mp upper
  cases kind with
  | coordinate => exact Or.inl rfl
  | sheetName => exact Or.inr (Or.inl rfl)
  | funcName => exact Or.inr (Or.inr rfl)
  | symbol mark =>
      have plain := not_isWordChar_of_opens opened
      exact absurd (isWordChar_of_isUpper upper) (Bool.eq_false_iff.mp plain)
  | integer | decimal =>
      cases Bool.or_eq_true_iff.mp opened with
      | inl digit =>
          have other := isDigit_iff.mp digit
          omega
      | inr sign =>
          rw [beq_iff_eq.mp sign] at upper
          cases upper
  | keyword word | ident =>
      have other := isLower_iff.mp opened
      omega
  | rangeName | info =>
      rw [beq_iff_eq.mp opened] at upper
      cases upper

theorem not_opens_of_isBlank (blank : IsBlank head) : kind.opens head = false := by
  obtain rfl | rfl | rfl := blank
  all_goals
    cases kind with
    | symbol mark => cases mark <;> rfl
    | _ => rfl

end Token.Kind

end SheetLang
