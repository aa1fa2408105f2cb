import SheetLang.Proofs.Lexeme.Seams

/-!
# Whole numbers in place of others

How far a whole number reaches depends on what stands behind it, and not on its digits.  So
another one may stand in its place, and the lexemes around it stay the same, if neither a
token nor a comment goes on from what is in front of it.
-/

namespace SheetLang

open Shape

variable {front back rest word written : List Char} {kind : Token.Kind} {length : Nat}
  {lexeme : Lexeme}

/-! ## Behind a whole number -/

namespace Extent

variable {digits : List Char}

theorem run_append_right {accept : Char → Bool}
    (inside : ∀ character ∈ front, accept character = true) (back : List Char) :
    run accept (front ++ back) = front.length + run accept back := by
  rw [run, List.takeWhile_append_of_pos inside, List.length_append, run]

/-- Digits in front of a text are read with what the text begins with. -/
theorem number_append (numeric : ∀ digit ∈ digits, digit.isDigit = true) (back : List Char) :
    number (digits ++ back) =
      (number back).map fun extent => ⟨extent.kind, digits.length + extent.more⟩ := by
  unfold number
  dsimp only
  rw [run_append_right numeric, ← List.drop_drop, List.drop_left]
  split
  · split
    · rfl
    · rfl
  · rfl

theorem exists_number (back : List Char) :
    ∃ kind more, number back = token kind more ∧ more ≤ back.length := by
  have reached := run_le Char.isDigit back
  unfold number
  dsimp only
  split
  case h_1 digit behind left =>
    have size := congrArg List.length left
    simp only [List.length_drop, List.length_cons] at size
    split
    · exact ⟨_, _, rfl, by omega⟩
    · exact ⟨_, _, rfl, reached⟩
  · exact ⟨_, _, rfl, reached⟩

theorem of?_digit {head : Char} (digit : head.isDigit = true) (rest : List Char) :
    of? head rest = number rest := by
  unfold of?
  split
  case h_25 => rw [if_pos digit]
  all_goals cases digit

theorem of?_integer {head : Char} {tail : List Char}
    (shape : Shape.integer (head :: tail) = true) (back : List Char) :
    of? head (tail ++ back) =
      (number back).map fun extent => ⟨extent.kind, tail.length + extent.more⟩ := by
  by_cases sign : head = '-'
  · subst sign
    have numeric : oneOrMore Char.isDigit tail = true := shape
    obtain ⟨next, more, rfl, digit⟩ := head_of_oneOrMore numeric
    rw [← number_append (oneOrMore_iff.mp numeric).2]
    exact if_pos digit
  · rw [Shape.integer, unsigned_cons sign] at shape
    obtain ⟨digit, numeric⟩ := List.forall_mem_cons.mp (oneOrMore_iff.mp shape).2
    rw [of?_digit digit, number_append numeric]

end Extent

/-- A whole number ends where the text behind it does not go on with it. -/
theorem stands_integer_iff (shape : Shape.integer word = true) :
    Stands (word ++ back) (.token .integer word) ↔
      Extent.number back = Extent.token .integer 0 := by
  cases word with
  | nil => cases shape
  | cons head tail =>
      obtain ⟨kind, more, ends, within⟩ := Extent.exists_number back
      rw [List.cons_append, stands_iff, Lexeme.first, Extent.of?_integer shape, ends]
      simp only [Extent.token, Option.map_some]
      constructor
      · intro same
        obtain ⟨rfl, text⟩ := Lexeme.token.inj same
        have size := congrArg List.length text
        simp only [List.length_cons, List.length_take, List.length_append] at size
        rw [show more = 0 by omega]
      · intro same
        simp only [Option.some.injEq, Extent.mk.injEq] at same
        obtain ⟨rfl, rfl⟩ := same
        rw [Nat.add_zero, List.take_left]

/-! ## In front of a whole number -/

theorem isDigit_or_minus_of_mem {character : Char} (shape : Shape.integer word = true)
    (member : character ∈ word) : character.isDigit = true ∨ character = '-' := by
  by_cases sign : character = '-'
  · exact .inr sign
  · have numeric : oneOrMore Char.isDigit (unsigned word) = true := shape
    exact .inl ((oneOrMore_iff.mp numeric).2 character (mem_unsigned sign member))

theorem ne_nil_of_integer (shape : Shape.integer word = true) : word ≠ [] := by
  rintro rfl
  cases shape

/-- What tokens other than info strings go on behind. -/
def goesOn (character : Char) : Bool :=
  isWordChar character || ['-', '.', ':', '<', '>', '!'].contains character

theorem goesOn_of_mem_dropLast {text : List Char} {character : Char}
    (admits : kind.admits text = true) (plain : kind ≠ .info)
    (member : character ∈ text.dropLast) : goesOn character = true := by
  by_cases spelled : ∃ mark, kind = .symbol mark
  · obtain ⟨mark, rfl⟩ := spelled
    have front : mark.text.toList.dropLast.all goesOn = true := by
      cases mark <;> rfl
    rw [beq_iff_eq.mp admits] at member
    exact List.all_eq_true.mp front character member
  · rw [not_exists] at spelled
    obtain word | rfl | ⟨rfl, -⟩ :=
      isWordChar_or_mark_of_mem admits plain spelled (List.dropLast_subset text member)
    · exact Bool.or_eq_true_iff.mpr (Or.inl word)
    · rfl
    · rfl

theorem count_dot_le {text : List Char} (admits : kind.admits text = true)
    (plain : kind ≠ .info) : text.count '.' ≤ 2 := by
  by_cases spelled : ∃ mark, kind = .symbol mark
  · obtain ⟨mark, rfl⟩ := spelled
    rw [beq_iff_eq.mp admits]
    cases mark <;> decide
  rw [not_exists] at spelled
  by_cases decimal : kind = .decimal
  · subst decimal
    obtain ⟨digits, last, whole, numeric, fraction⟩ := decimal_iff.mp admits
    have same : text.count '.' = (unsigned text).count '.' := by
      unfold unsigned
      split <;> rfl
    have before : digits.count '.' = 0 := by
      apply List.count_eq_zero.mpr
      intro member
      cases (oneOrMore_iff.mp numeric).2 '.' member
    have behind : ['.', last].count '.' ≤ 2 := List.count_le_length
    rw [same, whole, List.count_append, before]
    omega
  · have none : text.count '.' = 0 := by
      apply List.count_eq_zero.mpr
      intro member
      obtain word | sign | ⟨-, rfl⟩ := isWordChar_or_mark_of_mem admits plain spelled member
      · cases word
      · cases sign
      · exact decimal rfl
    omega

/-- Texts behind which no token but an info string goes on with a number. -/
def Closed (text : List Char) : Prop :=
  (∃ last ∈ text.getLast?, goesOn last = false) ∨ ['.', '.', '.'] <:+ text

theorem Closed.append (closed : Closed back) (front : List Char) : Closed (front ++ back) := by
  obtain ⟨last, ends, other⟩ | ellipsis := closed
  · refine Or.inl ⟨last, ?_, other⟩
    rw [Option.mem_def] at ends ⊢
    rw [List.getLast?_append, ends]
    rfl
  · exact Or.inr (ellipsis.trans (List.suffix_append front back))

theorem Closed.le_length (closed : Closed front) (plain : kind ≠ .info)
    (matching : Matches (front ++ back) kind length) : length ≤ front.length := by
  obtain ⟨-, within, admits⟩ := matching
  apply Nat.le_of_not_lt
  intro beyond
  obtain ⟨past, rfl⟩ := Nat.exists_eq_add_of_lt beyond
  rw [List.length_append] at within
  rw [Nat.add_assoc, List.take_length_add_append] at admits
  have more : back.take (past + 1) ≠ [] := by
    rw [← List.length_pos_iff, List.length_take]
    omega
  obtain ⟨last, ends, other⟩ | ellipsis := closed
  · have inside : last ∈ (front ++ back.take (past + 1)).dropLast := by
      rw [List.dropLast_append_of_ne_nil more]
      exact List.mem_append_left _ (List.mem_of_getLast? ends)
    rw [goesOn_of_mem_dropLast admits plain inside] at other
    cases other
  · have inside : ['.', '.', '.'].Sublist (front ++ back.take (past + 1)) :=
      ellipsis.sublist.trans (List.sublist_append_left front _)
    have many := inside.count_le '.'
    have few := count_dot_le admits plain
    have three : ['.', '.', '.'].count '.' = 3 := by decide
    omega

theorem notMem_of_integer {character : Char} (shape : Shape.integer word = true)
    (digit : character.isDigit = false) (sign : character ≠ '-') : character ∉ word := by
  intro member
  cases isDigit_or_minus_of_mem shape member with
  | inl numeric =>
      rw [digit] at numeric
      cases numeric
  | inr same => exact sign same

/-- What a text ends with is behind all of a part of it that has other characters. -/
theorem suffix_of_disjoint {text middle : List Char} (nonempty : middle ≠ [])
    (outside : ∀ character ∈ middle, character ∉ word) (ends : word <:+ text ++ (middle ++ rest)) :
    word <:+ rest := by
  induction middle generalizing text with
  | nil => exact absurd rfl nonempty
  | cons character middle induction =>
      obtain ⟨first, others⟩ := List.forall_mem_cons.mp outside
      have behind : word <:+ middle ++ rest := suffix_of_notMem first ends
      cases middle with
      | nil => exact behind
      | cons next middle => exact @induction [] (List.cons_ne_nil next middle) others behind

theorem notMem_dots_of_integer (shape : Shape.integer word = true) :
    ∀ character ∈ word, character ∉ ['.', '.', '.'] := by
  intro character member inside
  obtain rfl : character = '.' := by simpa using inside
  exact notMem_of_integer shape rfl (by decide) member

/-- Dots that close a comment behind a whole number do so behind any other. -/
theorem Closes.respelled (closes : Closes (front ++ (word ++ rest)) length)
    (beyond : front.length < length) (begins : ['.', '.', '.'] <+: front)
    (shape : Shape.integer word = true) (writtenShape : Shape.integer written = true) :
    ∃ other, front.length < other ∧ Closes (front ++ (written ++ rest)) other := by
  obtain ⟨past, rfl⟩ := Nat.exists_eq_add_of_lt beyond
  obtain ⟨-, -, ends, outside⟩ := closes
  rw [Nat.add_assoc, List.take_length_add_append, List.take_append] at ends outside
  generalize taken : rest.take (past + 1 - word.length) = behind at ends outside
  have known : rest.take behind.length = behind := by
    rw [← taken]
    exact (List.prefix_iff_eq_take.mp (List.take_prefix _ rest)).symm
  have reached : ['.', '.', '.'] <:+ behind := by
    refine suffix_of_disjoint ?_ ?_ ends
    · rw [← List.length_pos_iff, List.length_take]
      have some := List.length_pos_iff.mpr (ne_nil_of_integer shape)
      omega
    · exact fun character member =>
        notMem_dots_of_integer shape character (List.mem_of_mem_take member)
  have three := reached.length_le
  have opening := begins.length_le
  simp only [List.length_cons, List.length_nil] at three opening
  refine ⟨front.length + (written.length + behind.length), by omega, by omega, ?_, ?_, ?_⟩
  · have short := congrArg List.length known
    rw [List.length_take] at short
    simp only [List.length_append]
    omega
  · rw [List.take_length_add_append, List.take_length_add_append, known]
    exact (reached.trans (List.suffix_append written behind)).trans (List.suffix_append front _)
  · rw [List.take_length_add_append, List.take_length_add_append, known]
    have none : '\n' ∉ written := notMem_of_integer writtenShape rfl (by decide)
    simp only [List.mem_append, not_or] at outside ⊢
    exact ⟨outside.1, none, outside.2.2⟩

/-- In front of a whole number, nothing goes on into it, if nothing went on into another. -/
theorem Tight.integer (closed : Closed front) (shape : Shape.integer word = true)
    (writtenShape : Shape.integer written = true)
    (stands : Stands (front ++ (written ++ rest)) lexeme)
    (within : lexeme.text.length ≤ front.length) : Tight front (word ++ rest) where
  matching kind length plain matching := closed.le_length plain matching
  closing length begins closes := by
    apply Nat.le_of_not_lt
    intro beyond
    have opening : ['.', '.', '.'] <+: front := by
      obtain ⟨first, more, rfl⟩ := List.exists_cons_of_ne_nil (ne_nil_of_integer shape)
      have three := List.prefix_iff_eq_take.mp begins
      have none := notMem_dots_of_integer shape first List.mem_cons_self
      rw [three] at none
      exact List.prefix_of_prefix_length_le begins (List.prefix_append front _)
        (le_length_of_notMem none)
    obtain ⟨other, further, closesOther⟩ := closes.respelled beyond opening shape writtenShape
    obtain ⟨longest, comment⟩ := exists_comment_of_closes
      (opening.trans (List.prefix_append front _)) closesOther
    obtain rfl := stands.unique (.comment comment)
    have reached := comment.2.2 other closesOther
    rw [Lexeme.text, List.length_take_of_le comment.2.1.2.1] at within
    omega

theorem Stands.closed_gap {gap text : List Char} (stands : Stands text (.gap gap)) :
    Closed gap := by
  cases stands with
  | @blank character rest blank =>
      refine Or.inl ⟨character, rfl, ?_⟩
      obtain rfl | rfl | rfl := blank <;> decide
  | comment comment => exact Or.inr comment.2.1.2.2.1

/-! ## Cutting -/

namespace Lexeme

variable {before after : List Lexeme} {text : List Char} {last : Lexeme}

/-- Around a whole number, the lexemes are those around any other. -/
theorem cut_integer (found : cut text = before ++ .token .integer written :: after)
    (ends : before.getLast? = some last) (closed : Closed last.text)
    (shape : Shape.integer word = true) :
    cut (before.flatMap Lexeme.text ++ (word ++ after.flatMap Lexeme.text)) =
      before ++ .token .integer word :: after := by
  obtain ⟨standing, behind⟩ := stands_of_cut found
  have writtenShape : Shape.integer written = true := standing.legible.1
  have number : Stands (word ++ after.flatMap Lexeme.text) (.token .integer word) :=
    (stands_integer_iff shape).mpr ((stands_integer_iff writtenShape).mp standing)
  have own := cut_flatMap_text found (legal_of_cut found)
  have around := @cut_append (before.flatMap Lexeme.text) (word ++ after.flatMap Lexeme.text)
  rw [own] at around
  rw [around (legal_of_cut found), cut_of_stands number, Lexeme.text, List.drop_left, behind]
  intro passed later split nonempty
  obtain ⟨first, others, rfl⟩ := List.exists_cons_of_ne_nil nonempty
  rw [split, List.append_assoc, List.cons_append] at found
  have opening := (stands_of_cut found).1
  rw [List.flatMap_append, List.flatMap_cons, ← List.append_assoc, ← List.flatMap_cons] at opening
  refine Tight.integer ?_ shape writtenShape opening ?_
  · rw [split, List.getLast?_append, List.getLast?_eq_some_getLast nonempty, Option.some_or,
      ← List.getLast?_eq_some_getLast] at ends
    obtain ⟨more, whole⟩ := List.getLast?_eq_some_iff.mp ends
    rw [whole, List.flatMap_append, List.flatMap_singleton]
    exact closed.append _
  · rw [List.flatMap_cons, List.length_append]
    exact Nat.le_add_right _ _

end Lexeme

end SheetLang
