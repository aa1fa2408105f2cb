import SheetLang.Proofs.Lexeme.Families
import SheetLang.TokenStream

/-!
# Lexemes follow the rules

At every place where a lexeme of a source begins, the rules allow one lexeme and it is
that lexeme.  The tokens and the fault of a stream are those of its lexemes.
-/

namespace SheetLang

variable {head : Char} {rest text : List Char} {kind other : Token.Kind} {length size : Nat}

/-! ## One lexeme at a place -/

theorem Token.Kind.beats_asymm (beaten : kind.beats other = true) : other.beats kind = false := by
  cases kind <;> cases other <;> first | rfl | cases beaten

theorem Wins.unique (one : Wins text kind length) (two : Wins text other size) :
    kind = other ∧ length = size := by
  have same : length = size :=
    Nat.le_antisymm (two.longest kind length one.matching) (one.longest other size two.matching)
  subst same
  refine ⟨?_, rfl⟩
  cases one.preferred other two.matching with
  | inl same => exact same.symm
  | inr beaten =>
      cases two.preferred kind one.matching with
      | inl same => exact same
      | inr beats =>
          rw [Token.Kind.beats_asymm beaten] at beats
          cases beats

theorem Munches.unique (one : Munches text kind length) (two : Munches text other size) :
    kind = other ∧ length = size := by
  cases one with
  | notEqual unequal =>
      cases two with
      | notEqual => exact ⟨rfl, rfl⟩
      | longest plain => exact absurd unequal plain
  | longest plain wins =>
      cases two with
      | notEqual unequal => exact absurd unequal plain
      | longest _ otherWins => exact wins.unique otherWins

theorem Munches.matches (munches : Munches text kind length) : Matches text kind length := by
  cases munches with
  | notEqual unequal => exact matches_symbol.mpr ⟨unequal, rfl⟩
  | longest _ wins => exact wins.matching

theorem Matches.not_isBlank (matching : Matches (head :: rest) kind length) : ¬IsBlank head := by
  intro blank
  have closed := @Token.Kind.not_opens_of_isBlank head kind blank
  rw [matching.opens] at closed
  cases closed

theorem Comment.not_isBlank (comment : Comment (head :: rest) length) : ¬IsBlank head := by
  intro blank
  apply Extent.no_comment ?_ length comment
  intro same
  subst same
  revert blank
  decide

/-- Two dots can be a symbol wherever a comment begins. -/
theorem Comment.matches (comment : Comment text length) : Matches text (.symbol .dots) 2 := by
  obtain ⟨behind, rfl⟩ := comment.1
  exact matches_symbol.mpr ⟨⟨'.' :: behind, rfl⟩, rfl⟩

theorem Stands.unique {left right : Lexeme} (one : Stands text left) (two : Stands text right) :
    left = right := by
  cases one with
  | blank blank =>
      cases two with
      | blank => rfl
      | comment comment => exact absurd blank comment.not_isBlank
      | token _ munches => exact absurd blank munches.matches.not_isBlank
      | illegal printed => exact absurd blank printed
  | comment comment =>
      cases two with
      | blank blank => exact absurd blank comment.not_isBlank
      | comment otherComment =>
          rw [Nat.le_antisymm (otherComment.2.2 _ comment.2.1) (comment.2.2 _ otherComment.2.1)]
      | token missing => exact absurd comment (missing _)
      | illegal _ missing => exact absurd comment.matches (missing _ _)
  | token missing munches =>
      cases two with
      | blank blank => exact absurd blank munches.matches.not_isBlank
      | comment comment => exact absurd comment (missing _)
      | token _ otherMunches =>
          obtain ⟨rfl, rfl⟩ := munches.unique otherMunches
          rfl
      | illegal _ noMatch => exact absurd munches.matches (noMatch _ _)
  | illegal printed missing =>
      cases two with
      | blank blank => exact absurd blank printed
      | comment comment => exact absurd comment.matches (missing _ _)
      | token _ munches => exact absurd munches.matches (missing _ _)
      | illegal => rfl

/-! ## The first lexeme -/

namespace Extent

theorem opens_mark (word : Shape.isWordChar head = false) (sign : head ≠ '-') (mark : head ≠ '!')
    (opened : kind.opens head = true) :
    ∃ mark, kind = .symbol mark ∧ mark.text.toList.head? = some head := by
  have plain := Bool.eq_false_iff.mp word
  cases kind with
  | symbol mark => exact ⟨mark, rfl, Token.Kind.spelled_of_opens opened⟩
  | keyword word | ident => exact absurd (isWordChar_of_isLower opened) plain
  | coordinate | sheetName | funcName => exact absurd (isWordChar_of_isUpper opened) plain
  | rangeName =>
      rw [beq_iff_eq.mp opened] at word
      cases word
  | info => exact absurd (beq_iff_eq.mp opened) mark
  | integer | decimal =>
      cases Bool.or_eq_true_iff.mp opened with
      | inl digit => exact absurd (isWordChar_of_isDigit digit) plain
      | inr same => exact absurd (beq_iff_eq.mp same) sign

theorem ruled_of? (head : Char) (rest : List Char) : Ruled head rest (of? head rest) := by
  unfold of?
  split
  -- the blanks
  case h_1 | h_2 | h_3 => exact Ruled.blank (by decide)
  -- symbols that may go on with an equals sign
  case h_18 | h_19 | h_20 =>
    apply ruled_withEquals (by decide) (by decide) rfl rfl
    intro other opened
    obtain ⟨mark, rfl, spelled⟩ := opens_mark rfl (by decide) (by decide) opened
    cases mark <;> first | exact Or.inl rfl | exact Or.inr rfl | cases spelled
  -- an exclamation mark, a dot, a minus and an underscore
  case h_21 =>
    split
    · exact ruled_notEqual
    case h_2 plain =>
      exact ruled_info plain
  case h_22 => exact ruled_dots
  case h_23 =>
    split
    · split
      case h_1.isTrue next digit =>
        exact ruled_negative digit
      case h_1.isFalse next _ plain =>
        apply ruled_minus
        intro character same
        cases same
        exact Bool.eq_false_iff.mpr plain
    · apply ruled_minus
      intro character none
      cases none
  case h_24 => exact ruled_underscored
  -- letters, digits and characters that begin nothing
  case h_25 =>
    split
    case isTrue digit =>
      exact ruled_digits digit
    split
    case isFalse.isTrue lower =>
      exact ruled_word lower
    split
    case isFalse.isFalse.isTrue upper =>
      exact ruled_capitalised upper
    case isFalse.isFalse.isFalse digit lower upper =>
      have underscore : head ≠ '_' := by assumption
      have word : Shape.isWordChar head = false := by
        apply Bool.eq_false_iff.mpr
        simp [isWordChar_iff, digit, lower, upper, underscore]
      apply Ruled.illegal
      · intro blank
        obtain rfl | rfl | rfl := blank <;> contradiction
      apply no_match
      intro other size opened within admits
      obtain ⟨mark, rfl, spelled⟩ := opens_mark word (by assumption) (by assumption) opened
      cases mark <;> cases spelled <;> contradiction
  -- what is left are symbols of one character
  all_goals
    apply ruled_alone (by decide) (by decide) rfl
    intro other opened
    obtain ⟨mark, rfl, spelled⟩ := opens_mark rfl (by decide) (by decide) opened
    cases mark <;> first | rfl | cases spelled

end Extent

theorem Stands.first (head : Char) (rest : List Char) :
    Stands (head :: rest) (Lexeme.first head rest).1 := by
  have ruled := Extent.ruled_of? head rest
  unfold Lexeme.first
  generalize Extent.of? head rest = extent at ruled ⊢
  cases ruled with
  | blank blank => exact Stands.blank blank
  | comment comment => exact Stands.comment comment
  | token missing munches => exact Stands.token missing munches
  | illegal printed missing => exact Stands.illegal printed missing

theorem stands_iff {lexeme : Lexeme} :
    Stands (head :: rest) lexeme ↔ lexeme = (Lexeme.first head rest).1 := by
  constructor
  · intro stands
    exact stands.unique (Stands.first head rest)
  · intro same
    rw [same]
    exact Stands.first head rest

theorem not_stands_nil {lexeme : Lexeme} : ¬Stands [] lexeme := by
  intro stands
  cases stands with
  | comment comment => exact not_matches_nil comment.matches
  | token _ munches => exact not_matches_nil munches.matches

/-! ## All lexemes -/

namespace Lexeme

variable {lexeme : Lexeme} {before after : List Lexeme}

theorem cut_first (head : Char) (rest : List Char) :
    cut (head :: rest) = (first head rest).1 ::
      cut ((head :: rest).drop (first head rest).1.text.length) := by
  rw [cut_cons, text_first, List.length_cons, List.drop_succ_cons, List.length_take]
  cases Nat.le_total (first head rest).2 rest.length with
  | inl within => rw [Nat.min_eq_left within]
  | inr beyond =>
      rw [Nat.min_eq_right beyond, List.drop_length, List.drop_of_length_le beyond]

theorem cut_of_stands (stands : Stands text lexeme) :
    cut text = lexeme :: cut (text.drop lexeme.text.length) := by
  cases text with
  | nil => exact absurd stands not_stands_nil
  | cons head rest =>
      rw [stands_iff.mp stands]
      exact cut_first head rest

/-- The lexemes from a place on are those of the text from there on. -/
theorem cut_drop (found : cut text = before ++ after) :
    cut (text.drop (before.flatMap Lexeme.text).length) = after := by
  induction before generalizing text with
  | nil => exact found
  | cons lexeme before induction =>
      cases text with
      | nil => cases found
      | cons head rest =>
          rw [cut_first] at found
          injection found with same found
          subst same
          have later := induction found
          rw [List.drop_drop] at later
          rw [List.flatMap_cons, List.length_append]
          exact later

theorem stands_iff_of_cut {other : Lexeme} (found : cut text = before ++ lexeme :: after) :
    Stands (text.drop (before.flatMap Lexeme.text).length) other ↔ other = lexeme := by
  have here := cut_drop found
  generalize text.drop _ = behind at here
  cases behind with
  | nil => cases here
  | cons head rest =>
      rw [cut_cons] at here
      injection here with same
      rw [stands_iff, same]

theorem first_illegal {character : Char} {tail : List Char}
    (found : (first head rest).1 = .illegal character tail) :
    (first head rest).2 = rest.length := by
  unfold first at found ⊢
  split at found
  · rfl
  · split at found
    · cases found
    · cases found

/-- Lexemes of a text, from its end: an illegal rest is always the last one. -/
theorem cut_induction {motive : List Lexeme → Prop} (empty : motive [])
    (gap : ∀ text later, motive later → motive (.gap text :: later))
    (token : ∀ kind text later, motive later → motive (.token kind text :: later))
    (illegal : ∀ character rest, motive [.illegal character rest]) (text : List Char) :
    motive (cut text) := by
  induction length : text.length using Nat.strongRecOn generalizing text with
  | ind size induction =>
      cases text with
      | nil => exact empty
      | cons head rest =>
          have shorter : (rest.drop (first head rest).2).length < size := by
            rw [← length, List.length_drop, List.length_cons]
            omega
          have later := induction _ shorter (rest.drop (first head rest).2) rfl
          rw [cut_cons]
          cases found : (first head rest).1 with
          | gap text => exact gap text _ later
          | token kind text => exact token kind text _ later
          | illegal character tail =>
              rw [first_illegal found, List.drop_length]
              exact illegal character tail

end Lexeme

namespace TokenStream

theorem tokens_ofLexemes_cut (text : List Char) (line : Nat) :
    (ofLexemes line (Lexeme.cut text)).tokens.map
        (fun token => (token.kind, token.text.toList)) =
      (Lexeme.cut text).filterMap Lexeme.token? := by
  apply Lexeme.cut_induction (motive := fun lexemes => ∀ line,
    (ofLexemes line lexemes).tokens.map (fun token => (token.kind, token.text.toList)) =
      lexemes.filterMap Lexeme.token?)
  case empty =>
    intro line
    rfl
  case gap =>
    intro text later induction line
    exact induction _
  case token =>
    intro kind text later induction line
    simp [ofLexemes, Lexeme.token?, induction line]
  case illegal =>
    intro character rest line
    rfl

theorem fault_ofLexemes (line : Nat) (lexemes : List Lexeme) :
    ∃ last, (ofLexemes line lexemes).fault =
      (lexemes.findSome? Lexeme.illegal?).map fun character => .lexical character last := by
  induction lexemes generalizing line with
  | nil => exact ⟨line, rfl⟩
  | cons lexeme later induction =>
      cases lexeme with
      | gap text => exact induction _
      | token kind text => exact induction line
      | illegal character rest => exact ⟨line, rfl⟩

/-- The lexemes of a source cover it, and each is the one that the rules allow at its place; the
tokens of the source are those of its lexemes, and its fault is about the illegal one. -/
theorem ofSource_stands (source : String) :
    (Lexeme.cut source.toList).flatMap Lexeme.text = source.toList ∧
    (∀ before lexeme after, Lexeme.cut source.toList = before ++ lexeme :: after →
      ∀ other, Stands (source.toList.drop (before.flatMap Lexeme.text).length) other ↔
        other = lexeme) ∧
    (ofSource source).tokens.map (fun token => (token.kind, token.text.toList)) =
      (Lexeme.cut source.toList).filterMap Lexeme.token? ∧
    ∃ line, (ofSource source).fault =
      ((Lexeme.cut source.toList).findSome? Lexeme.illegal?).map
        fun character => .lexical character line := by
  refine ⟨Lexeme.flatMap_text_cut source.toList, ?_, tokens_ofLexemes_cut source.toList 1,
    fault_ofLexemes 1 _⟩
  intro before lexeme after found other
  exact Lexeme.stands_iff_of_cut found

/-- A name cannot go on behind the digits of a coordinate, and one letter is none. -/
theorem ofSource_stands_behind_coordinate :
    Lexeme.cut "AB3x".toList = [.token .coordinate ['A', 'B', '3'], .illegal 'x' []] ∧
      ∀ other, Stands ['x'] other ↔ other = .illegal 'x' [] := by
  have lexemes : Lexeme.cut "AB3x".toList =
      [.token .coordinate ['A', 'B', '3'], .illegal 'x' []] := by
    decide
  exact ⟨lexemes, (ofSource_stands "AB3x").2.1 [.token .coordinate ['A', 'B', '3']] _ [] lexemes⟩

end TokenStream

end SheetLang
