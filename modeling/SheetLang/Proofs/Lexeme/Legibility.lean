import SheetLang.Proofs.Lexeme.Adequacy

/-!
# Legible tokens

The texts that tokens of a kind can have, whatever stands around them.  Written in
front of a blank or at the end of a text, each of them is read as that token: no shape
but that of info strings goes past a blank, and info strings end with the mark that would
have to follow.
-/

namespace SheetLang

open Shape

variable {kind other : Token.Kind} {text rest : List Char} {length : Nat}

/-! ## What is read is legible -/

theorem Munches.legible (munches : Munches text kind length) :
    kind.Legible (text.take length) := by
  have matching := munches.matches
  refine ⟨matching.2.2, ?_, ?_⟩
  · intro other beats
    cases munches with
    | notEqual => cases other <;> cases beats
    | longest _ wins =>
        apply Bool.eq_false_iff.mpr
        intro admits
        cases wins.preferred other ⟨matching.1, matching.2.1, admits⟩ with
        | inl same =>
            subst same
            rw [Token.Kind.beats_asymm beats] at beats
            cases beats
        | inr beaten =>
            rw [Token.Kind.beats_asymm beats] at beaten
            cases beaten
  · intro info unequal
    cases munches with
    | notEqual => cases info
    | longest plain => exact plain (unequal.trans (List.take_prefix length text))

theorem Stands.legible (stands : Stands text (.token kind rest)) : kind.Legible rest := by
  cases stands with
  | token _ munches => exact munches.legible

/-! ## What is legible is read -/

/-- What may stand behind a token that is written on its own: nothing, or a blank first. -/
def Seam (rest : List Char) : Prop :=
  ∀ character ∈ rest.head?, IsBlank character

@[simp] theorem seam_nil : Seam [] := by
  simp [Seam]

@[simp] theorem seam_cons {character : Char} : Seam (character :: rest) ↔ IsBlank character := by
  simp [Seam]

theorem isWordChar_of_ident {character : Char} (shape : Shape.ident text = true)
    (member : character ∈ text) : isWordChar character = true := by
  cases text with
  | nil => cases member
  | cons head rest =>
      simp only [Shape.ident, Bool.and_eq_true] at shape
      cases List.mem_cons.mp member with
      | inl same =>
          rw [same]
          exact isWordChar_of_isLower shape.1
      | inr inside => exact (oneOrMore_iff.mp shape.2).2 character inside

section

variable {character : Char}

theorem isWordChar_of_coordinate (shape : Shape.coordinate text = true)
    (member : character ∈ text) : isWordChar character = true := by
  obtain ⟨capitals, digits, rfl, upper, -, numeric, -⟩ := coordinate_iff.mp shape
  cases List.mem_append.mp member with
  | inl inside => exact isWordChar_of_isUpper ((oneOrMore_iff.mp upper).2 character inside)
  | inr inside => exact isWordChar_of_isDigit ((oneOrMore_iff.mp numeric).2 character inside)

theorem isWordChar_of_rangeName (shape : Shape.rangeName text = true)
    (member : character ∈ text) : isWordChar character = true := by
  obtain ⟨rest, rfl, inside⟩ := rangeName_iff.mp shape
  cases List.mem_cons.mp member with
  | inl same =>
      rw [same]
      rfl
  | inr later => exact (oneOrMore_iff.mp inside).2 character later

theorem isWordChar_of_sheetName (shape : Shape.sheetName text = true)
    (member : character ∈ text) : isWordChar character = true :=
  isWordChar_of_isUpper ((oneOrMore_iff.mp shape).2 character member)

theorem isWordChar_of_funcName (shape : Shape.funcName text = true)
    (member : character ∈ text) : isWordChar character = true := by
  cases text with
  | nil => cases member
  | cons head rest =>
      obtain ⟨upper, inside⟩ := Bool.and_eq_true_iff.mp shape
      cases List.mem_cons.mp member with
      | inl same =>
          rw [same]
          exact isWordChar_of_isUpper upper
      | inr later => exact isWordChar_of_isFuncChar (List.all_eq_true.mp inside character later)

end

theorem mem_unsigned {character : Char} (sign : character ≠ '-')
    (member : character ∈ text) : character ∈ unsigned text := by
  cases text with
  | nil => cases member
  | cons head rest =>
      by_cases signed : head = '-'
      · subst signed
        cases List.mem_cons.mp member with
        | inl same => exact absurd same sign
        | inr inside => exact inside
      · rw [unsigned_cons signed]
        exact member

/-- Words and numbers consist of word characters, signs and points, and only decimal literals
have points. -/
theorem isWordChar_or_mark_of_mem {character : Char} (admits : kind.admits text = true)
    (plain : kind ≠ .info) (spelled : ∀ mark, kind ≠ .symbol mark) (member : character ∈ text) :
    isWordChar character = true ∨ character = '-' ∨ character = '.' ∧ kind = .decimal := by
  by_cases sign : character = '-'
  · exact Or.inr (Or.inl sign)
  cases kind with
  | info => exact absurd rfl plain
  | symbol mark => exact absurd rfl (spelled mark)
  | keyword word =>
      rw [beq_iff_eq.mp admits] at member
      exact Or.inl (isWordChar_of_ident (ident_keyword word) member)
  | ident => exact Or.inl (isWordChar_of_ident admits member)
  | coordinate => exact Or.inl (isWordChar_of_coordinate admits member)
  | rangeName => exact Or.inl (isWordChar_of_rangeName admits member)
  | sheetName => exact Or.inl (isWordChar_of_sheetName admits member)
  | funcName => exact Or.inl (isWordChar_of_funcName admits member)
  | integer =>
      have inside := mem_unsigned sign member
      have shape : oneOrMore Char.isDigit (unsigned text) = true := admits
      exact Or.inl (isWordChar_of_isDigit ((oneOrMore_iff.mp shape).2 character inside))
  | decimal =>
      have inside := mem_unsigned sign member
      obtain ⟨digits, last, whole, numeric, fraction⟩ := decimal_iff.mp admits
      rw [whole] at inside
      simp only [List.mem_append, List.mem_cons, List.not_mem_nil, or_false] at inside
      obtain early | point | late := inside
      · exact Or.inl (isWordChar_of_isDigit ((oneOrMore_iff.mp numeric).2 character early))
      · exact Or.inr (Or.inr ⟨point, rfl⟩)
      · exact Or.inl (isWordChar_of_isDigit (late ▸ fraction))

theorem not_isBlank_of_mem {character : Char} (admits : kind.admits text = true)
    (plain : kind ≠ .info) (member : character ∈ text) : ¬IsBlank character := by
  by_cases spelled : ∃ mark, kind = .symbol mark
  · obtain ⟨mark, rfl⟩ := spelled
    have printed :
        mark.text.toList.all (fun character => !decide (IsBlank character)) = true := by
      cases mark <;> rfl
    rw [beq_iff_eq.mp admits] at member
    simpa using List.all_eq_true.mp printed character member
  · rw [not_exists] at spelled
    obtain word | rfl | ⟨rfl, -⟩ := isWordChar_or_mark_of_mem admits plain spelled member
    · exact not_isBlank_of_isWordChar word
    · decide
    · decide

theorem admits_nil (kind : Token.Kind) : kind.admits [] = false := by
  cases kind with
  | keyword word => cases word <;> rfl
  | symbol mark => cases mark <;> rfl
  | _ => rfl

/-- With an exclamation mark, only info strings and inequalities begin. -/
theorem opens_exclamation_iff :
    kind.opens '!' = true ↔ kind = .info ∨ kind = .symbol .notEqual := by
  constructor
  · intro opened
    cases kind with
    | info => exact Or.inl rfl
    | symbol mark => cases mark <;> first | exact Or.inr rfl | cases opened
    | _ => cases opened
  · intro found
    obtain rfl | rfl := found <;> rfl

theorem Token.Kind.Legible.matches (legible : kind.Legible text) :
    Matches (text ++ rest) kind text.length := by
  refine ⟨List.length_pos_iff.mpr ?_, ?_, ?_⟩
  · intro empty
    rw [empty] at legible
    rw [Token.Kind.Legible, admits_nil] at legible
    cases legible.1
  · rw [List.length_append]
    exact Nat.le_add_right _ _
  · rw [List.take_left]
    exact legible.1

/-- Two dots with no third behind them begin no comment. -/
theorem not_comment_of_legible (legible : kind.Legible text) (seam : Seam rest) :
    ¬Comment (text ++ rest) length := by
  intro comment
  have matching : Matches (text ++ rest) kind text.length := legible.matches
  obtain ⟨behind, whole⟩ := comment.1
  rw [← whole] at matching
  cases Extent.opens_dot matching.opens
  have spelled : text = ['.', '.'] := beq_iff_eq.mp legible.1
  rw [spelled] at whole
  cases whole
  rw [seam_cons] at seam
  revert seam
  decide

theorem notEqual_of_legible (legible : kind.Legible text)
    (unequal : ['!', '='] <+: text ++ rest) :
    kind = .symbol .notEqual ∧ text = ['!', '='] := by
  have matching : Matches (text ++ rest) kind text.length := legible.matches
  obtain ⟨behind, whole⟩ := unequal
  rw [← whole] at matching
  cases opens_exclamation_iff.mp matching.opens with
  | inl info =>
      subst info
      have shape : Shape.info text = true := legible.1
      obtain ⟨body, rfl, -⟩ := info_iff.mp shape
      cases body with
      | nil => cases whole
      | cons first body =>
          cases whole
          exact absurd ⟨body ++ ['!'], rfl⟩ (legible.2.2 rfl)
  | inr same =>
      subst same
      exact ⟨rfl, beq_iff_eq.mp legible.1⟩

/-- Where an info string ends does not depend on how it is looked for. -/
theorem Matches.info_length {size : Nat} (one : Matches text .info length)
    (two : Matches text .info size) : length = size := by
  cases text with
  | nil => exact absurd one not_matches_nil
  | cons head rest =>
      cases beq_iff_eq.mp one.opens
      cases length with
      | zero => exact absurd one.1 (Nat.lt_irrefl 0)
      | succ length =>
          cases size with
          | zero => exact absurd two.1 (Nat.lt_irrefl 0)
          | succ size =>
              obtain ⟨within, admits⟩ := matches_cons.mp one
              obtain ⟨otherWithin, otherAdmits⟩ := matches_cons.mp two
              rw [(Extent.reach_info within admits).1,
                (Extent.reach_info otherWithin otherAdmits).1]

theorem Matches.opens_of_info {size : Nat} (one : Matches text .info length)
    (two : Matches text kind size) : kind.opens '!' = true := by
  cases text with
  | nil => exact absurd one not_matches_nil
  | cons head rest =>
      cases beq_iff_eq.mp one.opens
      exact two.opens

/-- Nothing that wins in front of a blank goes past it. -/
theorem Wins.length_of_legible (legible : kind.Legible text) (seam : Seam rest)
    (plain : ¬['!', '='] <+: text ++ rest)
    (wins : Wins (text ++ rest) other length) : length = text.length := by
  have matching : Matches (text ++ rest) kind text.length := legible.matches
  cases Nat.eq_or_lt_of_le (wins.longest kind _ matching) with
  | inl same => exact same.symm
  | inr longer =>
      obtain ⟨past, rfl⟩ := Nat.exists_eq_add_of_lt longer
      have passed : ∃ blank, IsBlank blank ∧
          blank ∈ (text ++ rest).take (text.length + past + 1) := by
        have within := wins.matching.2.1
        cases rest with
        | nil =>
            rw [List.append_nil] at within
            omega
        | cons blank rest =>
            refine ⟨blank, seam_cons.mp seam, ?_⟩
            rw [Nat.add_assoc, List.take_length_add_append, List.take_succ_cons]
            simp
      obtain ⟨blank, isBlank, passed⟩ := passed
      have info : other = .info := by
        apply Classical.byContradiction
        intro plain
        exact not_isBlank_of_mem wins.matching.2.2 plain passed isBlank
      subst info
      obtain rfl | rfl := opens_exclamation_iff.mp (wins.matching.opens_of_info matching)
      · exact wins.matching.info_length matching
      · have spelled : text = ['!', '='] := beq_iff_eq.mp legible.1
        rw [spelled] at plain
        exact absurd ⟨rest, rfl⟩ plain

theorem Munches.of_legible (legible : kind.Legible text) (seam : Seam rest)
    (munches : Munches (text ++ rest) other length) :
    other = kind ∧ length = text.length := by
  cases munches with
  | notEqual unequal =>
      obtain ⟨rfl, rfl⟩ := notEqual_of_legible legible unequal
      exact ⟨rfl, rfl⟩
  | longest plain wins =>
      have size := wins.length_of_legible legible seam plain
      subst size
      refine ⟨?_, rfl⟩
      cases wins.preferred kind legible.matches with
      | inl same => exact same.symm
      | inr beaten =>
          have admits := wins.matching.2.2
          rw [List.take_left, legible.2.1 other beaten] at admits
          cases admits

theorem Matches.ne_nil (matching : Matches text kind length) : text ≠ [] := by
  intro empty
  rw [empty] at matching
  exact not_matches_nil matching

theorem exists_stands (nonempty : text ≠ []) : ∃ lexeme, Stands text lexeme := by
  cases text with
  | nil => exact absurd rfl nonempty
  | cons head rest => exact ⟨_, Stands.first head rest⟩

theorem stands_of_legible (legible : kind.Legible text) (seam : Seam rest) :
    Stands (text ++ rest) (.token kind text) := by
  have matching : Matches (text ++ rest) kind text.length := legible.matches
  obtain ⟨lexeme, stands⟩ := exists_stands matching.ne_nil
  generalize whole : text ++ rest = all at stands matching
  cases stands with
  | blank blank => exact absurd blank matching.not_isBlank
  | comment comment =>
      rw [← whole] at comment
      exact absurd comment (not_comment_of_legible legible seam)
  | illegal _ missing => exact absurd matching (missing _ _)
  | token missing munches =>
      have same := munches
      rw [← whole] at same
      obtain ⟨rfl, rfl⟩ := same.of_legible legible seam
      have token := Stands.token missing munches
      rw [← whole, List.take_left] at token
      rw [← whole]
      exact token

/-! ## Tokens in a row -/

namespace TokenStream

theorem legible_of_mem {source : String} {token : Token}
    (member : token ∈ (ofSource source).tokens) : token.kind.Legible token.text.toList := by
  have listed := tokens_ofLexemes_cut source.toList 1
  have inside : (token.kind, token.text.toList) ∈
      (Lexeme.cut source.toList).filterMap Lexeme.token? := by
    rw [← listed]
    exact List.mem_map.mpr ⟨token, member, rfl⟩
  obtain ⟨lexeme, lexemeMember, read⟩ := List.mem_filterMap.mp inside
  obtain ⟨before, after, found⟩ := List.append_of_mem lexemeMember
  have stands := (Lexeme.stands_iff_of_cut found).mpr rfl
  cases lexeme with
  | token kind text =>
      cases read
      exact stands.legible
  | gap text => cases read
  | illegal character rest => cases read

/-- A legible token is read, and the text behind it goes on from its line. -/
theorem ofLexemes_cut_of_legible {token : Token} (legible : token.kind.Legible token.text.toList)
    (seam : Seam rest) :
    ofLexemes token.line (Lexeme.cut (token.text.toList ++ rest)) =
      ⟨token :: (ofLexemes token.line (Lexeme.cut rest)).tokens,
        (ofLexemes token.line (Lexeme.cut rest)).fault⟩ := by
  rw [Lexeme.cut_of_stands (stands_of_legible legible seam)]
  simp [ofLexemes, Lexeme.text]

/-- The texts of tokens with a space behind each. -/
def spaced (tokens : List Token) : List Char :=
  tokens.flatMap fun token => token.text.toList ++ [' ']

/-- Legible tokens on one line are read back from their texts. -/
theorem ofLexemes_cut_spaced {tokens : List Token} {line : Nat}
    (legible : ∀ token ∈ tokens, token.line = line ∧ token.kind.Legible token.text.toList) :
    ofLexemes line (Lexeme.cut (spaced tokens)) = ⟨tokens, none⟩ := by
  induction tokens with
  | nil => rfl
  | cons token tokens induction =>
      obtain ⟨sameLine, first⟩ := legible token List.mem_cons_self
      have later := induction fun other member => legible other (List.mem_cons_of_mem token member)
      have text : spaced (token :: tokens) = token.text.toList ++ ' ' :: spaced tokens := by
        simp [spaced]
      have seam : Seam (' ' :: spaced tokens) := seam_cons.mpr (Or.inl rfl)
      rw [text, ← sameLine, ofLexemes_cut_of_legible first seam]
      rw [Lexeme.cut_of_stands (Stands.blank (Or.inl rfl)), sameLine]
      simp [ofLexemes, Lexeme.text, later]

end TokenStream

end SheetLang
