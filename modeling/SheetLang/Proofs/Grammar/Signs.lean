import SheetLang.Grammar.SheetRows
import SheetLang.Proofs.Grammar.Inversions
import SheetLang.Proofs.Grammar.Openings

/-!
# Signs at the front

A sum, product or operand without a sign is one with an optional sign that does not open
with a minus.  One that does open with a minus goes on with whatever stands before it: the
sign becomes the operator between the two.
-/

namespace SheetLang

open Grammar

variable {tokens front back : List Token} {value : Expr}

/-! ## With and without a sign -/

theorem unsigned_append_iff (nonempty : 0 < front.length) :
    Unsigned (front ++ back) ↔ Unsigned front := by
  cases front with
  | nil => cases nonempty
  | cons token more => simp [Unsigned]

theorem Opens.unsigned {A : Nonterminal} (opens : Opens A tokens)
    (plain : A.starts (.symbol .minus) = false) : Unsigned tokens := by
  obtain ⟨token, more, rfl, start⟩ := opens
  intro first same minus
  cases same
  rw [minus, plain] at start
  cases start

theorem Derives.operand_signed (derivation : Derives (.operand false) tokens value) :
    Derives (.operand true) tokens value := by
  cases derivation with
  | name => exact .name
  | decimal => exact .decimal
  | callOperand call => exact .callOperand call
  | cellOperand cell => exact .cellOperand cell
  | count range => exact .count range
  | parentheses inside => exact .parentheses inside

theorem Derives.operand_unsigned_iff :
    Derives (.operand false) tokens value ↔
      Derives (.operand true) tokens value ∧ Unsigned tokens := by
  constructor
  · intro derivation
    exact ⟨derivation.operand_signed, (derivation.opens rfl).unsigned rfl⟩
  · rintro ⟨derivation, plain⟩
    rcases derivation.operand_cases with ⟨writing, rest, operand, rfl, -, -⟩ | unsigned
    · exact absurd rfl (plain (mark .minus writing) rfl)
    · exact unsigned

/-- A chain has a sign exactly if its first operand has one. -/
theorem Chained.unsigned_iff {level : Symbol → Option BinaryOperator}
    {signed unsigned next : List Token → Expr → Prop}
    (positive : ∀ {ts left}, signed ts left → 0 < ts.length)
    (first : ∀ {ts left}, unsigned ts left ↔ signed ts left ∧ Unsigned ts) :
    Chained level unsigned next tokens value ↔
      Chained level signed next tokens value ∧ Unsigned tokens := by
  constructor
  · intro chained
    cases chained with
    | alone only =>
        obtain ⟨operand, plain⟩ := first.mp only
        exact ⟨.alone operand, plain⟩
    | link leveled left right =>
        obtain ⟨operand, plain⟩ := first.mp left
        exact ⟨.link leveled operand right, (unsigned_append_iff (positive operand)).mpr plain⟩
  · rintro ⟨chained, plain⟩
    cases chained with
    | alone only => exact .alone (first.mpr ⟨only, plain⟩)
    | link leveled left right =>
        exact .link leveled (first.mpr ⟨left, (unsigned_append_iff (positive left)).mp plain⟩) right

theorem Derives.product_unsigned_iff :
    Derives (.product false) tokens value ↔
      Derives (.product true) tokens value ∧ Unsigned tokens := by
  rw [Derives.product_iff, Derives.product_iff]
  exact Chained.unsigned_iff (·.length_pos rfl) Derives.operand_unsigned_iff

theorem Derives.sum_unsigned_iff :
    Derives (.sum false) tokens value ↔ Derives (.sum true) tokens value ∧ Unsigned tokens := by
  rw [Derives.sum_iff, Derives.sum_iff]
  exact Chained.unsigned_iff (·.length_pos rfl) Derives.product_unsigned_iff

theorem Derives.laterRow_iff {cells : List Expr} :
    Derives .laterRow tokens cells ↔
      Derives (.separated (.sum true)) tokens cells ∧ Unsigned tokens := by
  constructor
  · intro derivation
    obtain ⟨front, rest, first, others, rfl, rfl, cell, more⟩ := derivation.laterRow_cases
    obtain ⟨signed, plain⟩ := Derives.sum_unsigned_iff.mp cell
    exact ⟨more.separated signed, (unsigned_append_iff (cell.length_pos rfl)).mpr plain⟩
  · rintro ⟨derivation, plain⟩
    obtain ⟨front, rest, first, others, rfl, rfl, cell, more⟩ := derivation.separated_cases
    have unsigned := (unsigned_append_iff (cell.length_pos rfl)).mp plain
    exact more.laterRow (Derives.sum_unsigned_iff.mpr ⟨cell, unsigned⟩)

/-! ## A sign as an operator -/

theorem exists_minus_of_signed (nonempty : 0 < tokens.length) (signed : ¬Unsigned tokens) :
    ∃ writing rest, tokens = mark .minus writing :: rest := by
  cases tokens with
  | nil => cases nonempty
  | cons token rest =>
      obtain ⟨kind, text, line⟩ := token
      by_cases minus : kind = .symbol .minus
      · subst minus
        exact ⟨(text, line), rest, rfl⟩
      · exact absurd (by simpa [Unsigned] using minus) signed

theorem Derives.operand_of_minus {writing : Writing}
    (derivation : Derives (.operand true) (mark .minus writing :: tokens) value) :
    ∃ operand, Derives (.operand true) tokens operand := by
  rcases derivation.operand_cases with ⟨_, rest, operand, same, -, unsigned⟩ | unsigned
  · obtain ⟨-, rfl⟩ := List.cons.inj same
    exact ⟨operand, unsigned.operand_signed⟩
  · have plain := (unsigned.opens rfl).unsigned rfl
    exact absurd rfl (plain _ rfl)

/-- What a chain begins with may be left out where its first operand goes on without it. -/
theorem Chained.of_cons {level : Symbol → Option BinaryOperator}
    {first next : List Token → Expr → Prop} {token : Token}
    (positive : ∀ {ts left}, first ts left → 0 < ts.length)
    (shorter : ∀ {ts left}, first (token :: ts) left → ∃ operand, first ts operand)
    (chained : Chained level first next (token :: tokens) value) :
    ∃ rest, Chained level first next tokens rest := by
  generalize whole : token :: tokens = all at chained
  cases chained with
  | alone only =>
      subst whole
      obtain ⟨operand, derivation⟩ := shorter only
      exact ⟨operand, .alone derivation⟩
  | @link ts left us right symbol operator writing leveled leftDerives rightDerives =>
      cases ts with
      | nil => cases positive leftDerives
      | cons head ts =>
          obtain ⟨rfl, rfl⟩ := List.cons.inj whole
          obtain ⟨operand, derivation⟩ := shorter leftDerives
          exact ⟨.binary operator operand right, .link leveled derivation rightDerives⟩

theorem Derives.product_of_minus {writing : Writing}
    (derivation : Derives (.product true) (mark .minus writing :: tokens) value) :
    ∃ product, Derives (.product true) tokens product := by
  obtain ⟨product, chained⟩ :=
    (Derives.product_iff.mp derivation).of_cons (·.length_pos rfl) Derives.operand_of_minus
  exact ⟨product, Derives.product_iff.mpr chained⟩

theorem Derives.sum_of_minus {writing : Writing}
    (derivation : Derives (.sum true) (mark .minus writing :: tokens) value) :
    ∃ sum, Derives (.sum true) tokens sum := by
  obtain ⟨sum, chained⟩ :=
    (Derives.sum_iff.mp derivation).of_cons (·.length_pos rfl) Derives.product_of_minus
  exact ⟨sum, Derives.sum_iff.mpr chained⟩

namespace Derives

/-- A sum goes on with an operator and another sum. -/
theorem sum_append {front back : List Token} {signed : Bool} {symbol : Symbol}
    {operator : BinaryOperator} {left right : Expr} (adds : Adds symbol operator)
    (writing : Writing) (derivation : Derives (.sum signed) front left)
    (behind : Derives (.sum true) back right) :
    ∃ sum, Derives (.sum signed) (front ++ mark symbol writing :: back) sum := by
  cases derivation with
  | sumOne product => exact ⟨_, .sumCons adds product behind⟩
  | sumCons inner product rest =>
      obtain ⟨sum, longer⟩ := sum_append adds writing rest behind
      rw [List.append_assoc, List.cons_append]
      exact ⟨_, .sumCons inner product longer⟩

/-- A row goes on with a row that opens with a minus. -/
theorem row_append {front back : List Token} {cells others : List Expr}
    (derivation : Derives (.separated (.sum true)) front cells)
    (behind : Derives (.separated (.sum true)) back others) (signed : ¬Unsigned back) :
    ∃ merged : List Expr, Derives (.separated (.sum true)) (front ++ back) merged := by
  cases derivation with
  | separatedOne only =>
      obtain ⟨start, rest, first, later, rfl, rfl, cell, more⟩ := behind.separated_cases
      have positive := cell.length_pos rfl
      rw [unsigned_append_iff positive] at signed
      obtain ⟨writing, start, rfl⟩ := exists_minus_of_signed positive signed
      obtain ⟨operand, continued⟩ := cell.sum_of_minus
      obtain ⟨sum, longer⟩ := sum_append .minus writing only continued
      rw [← List.append_assoc]
      exact ⟨_, more.separated longer⟩
  | separatedCons first rest =>
      obtain ⟨merged, longer⟩ := row_append rest behind signed
      rw [List.append_assoc, List.cons_append]
      exact ⟨_, .separatedCons first longer⟩

end Derives

end SheetLang
