import SheetLang.Proofs.Lexeme.Comments
import SheetLang.Proofs.Lexeme.Shapes

/-!
# Families of lexemes

One rule for each way in which a first character is followed up: what the family finds
is what stands there.  For a token that is the longest text of any shape; the only
shapes to look at are those that open with the first character.
-/

namespace SheetLang

open Shape

/-- What a first character and the text after it are followed up to by the rules. -/
inductive Extent.Ruled (head : Char) (rest : List Char) : Option Extent → Prop where
  | blank : IsBlank head → Ruled head rest (skip 0)
  | comment {more : Nat} : Comment (head :: rest) (more + 1) → Ruled head rest (skip more)
  | token {kind : Token.Kind} {more : Nat} : (∀ length, ¬Comment (head :: rest) length) →
      Munches (head :: rest) kind (more + 1) → Ruled head rest (Extent.token kind more)
  | illegal : ¬IsBlank head → (∀ kind length, ¬Matches (head :: rest) kind length) →
      Ruled head rest none

variable {head : Char} {rest : List Char} {kind : Token.Kind} {more size : Nat}

/-! ## Matches behind a first character -/

theorem matches_cons :
    Matches (head :: rest) kind (more + 1) ↔
      more ≤ rest.length ∧ kind.admits (head :: rest.take more) = true := by
  unfold Matches
  rw [List.take_succ_cons, List.length_cons]
  constructor
  · intro matching
    exact ⟨Nat.le_of_succ_le_succ matching.2.1, matching.2.2⟩
  · intro found
    exact ⟨Nat.succ_pos more, Nat.succ_le_succ found.1, found.2⟩

theorem not_matches_nil : ¬Matches [] kind size := by
  intro matching
  obtain ⟨positive, within, -⟩ := matching
  rw [List.length_nil] at within
  omega

theorem Matches.opens (matching : Matches (head :: rest) kind size) : kind.opens head = true := by
  cases size with
  | zero => exact absurd matching.1 (Nat.lt_irrefl 0)
  | succ more => exact opens_of_admits (matches_cons.mp matching).2

theorem matches_symbol {text : List Char} {mark : Symbol} :
    Matches text (.symbol mark) size ↔
      mark.text.toList <+: text ∧ size = mark.text.toList.length := by
  have nonempty : 0 < mark.text.toList.length := by
    cases mark <;> decide
  simp only [Matches, Token.Kind.admits, beq_iff_eq]
  constructor
  · intro matching
    obtain ⟨-, within, spelled⟩ := matching
    constructor
    · rw [← spelled]
      exact List.take_prefix _ _
    · rw [← spelled, List.length_take, Nat.min_eq_left within]
  · intro found
    obtain ⟨starts, rfl⟩ := found
    exact ⟨nonempty, starts.length_le, (List.prefix_iff_eq_take.mp starts).symm⟩

theorem Wins.of_reach (matching : Matches (head :: rest) kind (more + 1))
    (reach : ∀ other size, other.opens head = true → size ≤ rest.length →
      other.admits (head :: rest.take size) = true →
      size ≤ more ∧ (size = more → other = kind ∨ kind.beats other = true)) :
    Wins (head :: rest) kind (more + 1) := by
  have reached : ∀ other size, Matches (head :: rest) other (size + 1) →
      size ≤ more ∧ (size = more → other = kind ∨ kind.beats other = true) := by
    intro other size found
    obtain ⟨within, admits⟩ := matches_cons.mp found
    exact reach other size found.opens within admits
  constructor
  · exact matching
  · intro other size found
    cases size with
    | zero => exact Nat.zero_le _
    | succ size => exact Nat.succ_le_succ (reached other size found).1
  · intro other found
    exact (reached other more found).2 rfl

theorem no_match (missing : ∀ (other : Token.Kind) size, other.opens head = true →
      size ≤ rest.length → other.admits (head :: rest.take size) ≠ true)
    (kind : Token.Kind) (length : Nat) : ¬Matches (head :: rest) kind length := by
  intro matching
  cases length with
  | zero => exact absurd matching.1 (Nat.lt_irrefl 0)
  | succ size =>
      obtain ⟨within, admits⟩ := matches_cons.mp matching
      exact missing kind size matching.opens within admits

namespace Extent

theorem no_comment (other : head ≠ '.') (length : Nat) : ¬Comment (head :: rest) length := by
  intro comment
  obtain ⟨behind, whole⟩ := comment.1
  cases whole
  exact other rfl

theorem ruled_wins (dot : head ≠ '.') (mark : head ≠ '!')
    (wins : Wins (head :: rest) kind (more + 1)) : Ruled head rest (token kind more) := by
  apply Ruled.token (no_comment dot)
  apply Munches.longest
  · intro unequal
    obtain ⟨behind, whole⟩ := unequal
    cases whole
    exact mark rfl
  · exact wins

/-! ## Symbols -/

/-- A symbol wins where only symbols open with its first character, and none that
stands there is longer. -/
theorem ruled_symbol {mark : Symbol} (dot : head ≠ '.') (exclamation : head ≠ '!')
    (starts : mark.text.toList <+: head :: rest) (size : mark.text.toList.length = more + 1)
    (longest : ∀ other, Token.Kind.opens other head = true →
      ∃ rival, other = .symbol rival ∧
        (rival.text.toList <+: head :: rest → rival.text.toList.length ≤ more ∨ rival = mark)) :
    Ruled head rest (token (.symbol mark) more) := by
  apply ruled_wins dot exclamation
  apply Wins.of_reach
  · exact matches_symbol.mpr ⟨starts, size.symm⟩
  · intro other reach opened within admits
    obtain ⟨rival, rfl, shorter⟩ := longest other opened
    obtain ⟨spelled, length⟩ := matches_symbol.mp (matches_cons.mpr ⟨within, admits⟩)
    cases shorter spelled with
    | inl shorter =>
        constructor
        · omega
        · intro same
          omega
    | inr same =>
        subst same
        constructor
        · omega
        · exact fun _ => Or.inl rfl

theorem ruled_alone {mark : Symbol} (dot : head ≠ '.') (exclamation : head ≠ '!')
    (spelled : mark.text.toList = [head])
    (only : ∀ other, Token.Kind.opens other head = true → other = .symbol mark) :
    Ruled head rest (token (.symbol mark) 0) := by
  apply ruled_symbol dot exclamation
  · rw [spelled]
    exact ⟨rest, rfl⟩
  · rw [spelled]
    rfl
  · intro other opened
    exact ⟨mark, only other opened, fun _ => Or.inr rfl⟩

theorem ruled_withEquals {long short : Symbol} (dot : head ≠ '.') (exclamation : head ≠ '!')
    (longSpelled : long.text.toList = [head, '=']) (shortSpelled : short.text.toList = [head])
    (only : ∀ other, Token.Kind.opens other head = true →
      other = .symbol long ∨ other = .symbol short) :
    Ruled head rest (withEquals long short rest) := by
  unfold withEquals
  split
  case h_1 behind =>
    apply ruled_symbol dot exclamation
    · rw [longSpelled]
      exact ⟨behind, rfl⟩
    · rw [longSpelled]
      rfl
    · intro other opened
      cases only other opened with
      | inl same => exact ⟨long, same, fun _ => Or.inr rfl⟩
      | inr same =>
          refine ⟨short, same, fun _ => Or.inl ?_⟩
          rw [shortSpelled]
          exact Nat.le_refl 1
  case h_2 elsewhere =>
    apply ruled_symbol dot exclamation
    · rw [shortSpelled]
      exact ⟨rest, rfl⟩
    · rw [shortSpelled]
      rfl
    · intro other opened
      cases only other opened with
      | inl same =>
          refine ⟨long, same, fun starts => ?_⟩
          rw [longSpelled] at starts
          obtain ⟨behind, whole⟩ := starts
          cases whole
          exact absurd rfl (elsewhere behind)
      | inr same => exact ⟨short, same, fun _ => Or.inr rfl⟩

/-! ## Numbers -/

/-- Behind a sign or a digit, the text itself or the text without the sign is the rest
behind some digits. -/
theorem unsigned_opening (opening : head = '-' ∨ head.isDigit = true) :
    ∃ lead, (∀ front, unsigned (head :: front) = lead ++ front) ∧
      (∀ character ∈ lead, character.isDigit = true) ∧ (lead = [] → head = '-') := by
  by_cases sign : head = '-'
  · subst sign
    exact ⟨[], fun _ => rfl, by simp, fun _ => rfl⟩
  · refine ⟨[head], fun _ => unsigned_cons sign, ?_, fun empty => by cases empty⟩
    intro character member
    rw [List.mem_singleton.mp member]
    exact opening.resolve_left sign

theorem reach_integer (opening : head = '-' ∨ head.isDigit = true) (within : size ≤ rest.length)
    (admits : Token.Kind.integer.admits (head :: rest.take size) = true) :
    size ≤ run Char.isDigit rest := by
  obtain ⟨lead, unsigned, -, -⟩ := unsigned_opening opening
  have shape : oneOrMore Char.isDigit (Shape.unsigned (head :: rest.take size)) = true := admits
  rw [unsigned] at shape
  apply le_run within
  intro character member
  exact (oneOrMore_iff.mp shape).2 character (List.mem_append_right lead member)

theorem reach_decimal (opening : head = '-' ∨ head.isDigit = true) (within : size ≤ rest.length)
    (admits : Token.Kind.decimal.admits (head :: rest.take size) = true) :
    size = run Char.isDigit rest + 2 ∧ ∃ digit behind,
      rest.drop (run Char.isDigit rest) = '.' :: digit :: behind ∧ digit.isDigit = true := by
  obtain ⟨lead, unsigned, numericLead, -⟩ := unsigned_opening opening
  obtain ⟨digits, digit, whole, numeric, fraction⟩ := decimal_iff.mp admits
  have inside := (oneOrMore_iff.mp numeric).2
  rw [unsigned] at whole
  have split : ∃ between, rest.take size = between ++ ['.', digit] ∧
      ∀ character ∈ between, character.isDigit = true := by
    cases List.append_eq_append_iff.mp whole with
    | inl longer =>
        obtain ⟨between, rfl, same⟩ := longer
        refine ⟨between, same, fun character member => ?_⟩
        exact inside character (List.mem_append_right lead member)
    | inr shorter =>
        obtain ⟨between, same, point⟩ := shorter
        cases between with
        | nil => exact ⟨[], point.symm, by simp⟩
        | cons first between =>
            injection point with point
            have point := numericLead '.' (by simp [same, ← point])
            cases point
  obtain ⟨between, taken, numericBetween⟩ := split
  have point : ∀ character ∈ ['.', digit].head?, character.isDigit = false := by
    intro character next
    cases next
    rfl
  obtain ⟨reached, length, behind⟩ :=
    run_of_take within taken (List.cons_ne_nil _ _) numericBetween point
  constructor
  · rw [length, reached]
    rfl
  · exact ⟨digit, rest.drop size, behind, fraction⟩

theorem opens_numeric (opening : head = '-' ∨ head.isDigit = true)
    (opened : kind.opens head = true) :
    kind = .integer ∨ kind = .decimal ∨ kind = .symbol .minus := by
  cases opening with
  | inl sign =>
      subst sign
      cases kind with
      | integer => exact Or.inl rfl
      | decimal => exact Or.inr (Or.inl rfl)
      | symbol mark => cases mark <;> first | exact Or.inr (Or.inr rfl) | cases opened
      | _ => cases opened
  | inr digit =>
      cases Token.Kind.opens_of_isDigit digit opened with
      | inl same => exact Or.inl same
      | inr same => exact Or.inr (Or.inl same)

section Number

variable (opening : head = '-' ∨ head.isDigit = true)
  (shape : Token.Kind.integer.admits (head :: rest.take (run Char.isDigit rest)) = true)

include opening

theorem ne_of_numeric : head ≠ '.' ∧ head ≠ '!' := by
  cases opening with
  | inl sign =>
      subst sign
      decide
  | inr digit =>
      have word := isWordChar_of_isDigit digit
      exact ⟨ne_of_isWordChar word rfl, ne_of_isWordChar word rfl⟩

omit opening in
include shape in
theorem reach_minus (opened : Token.Kind.opens (.symbol .minus) head = true)
    (within : size ≤ rest.length)
    (admits : Token.Kind.admits (.symbol .minus) (head :: rest.take size) = true) :
    size < run Char.isDigit rest := by
  cases Token.Kind.spelled_of_opens opened
  have spelled := matches_symbol.mp (matches_cons.mpr ⟨within, admits⟩)
  have alone : size = 0 := Nat.succ.inj spelled.2
  have digits : run Char.isDigit rest ≠ 0 := by
    intro none
    rw [none] at shape
    cases shape
  omega

include shape

theorem ruled_integer
    (missing : ∀ size ≤ rest.length, Token.Kind.decimal.admits (head :: rest.take size) ≠ true) :
    Ruled head rest (token .integer (run Char.isDigit rest)) := by
  apply ruled_wins (ne_of_numeric opening).1 (ne_of_numeric opening).2
  apply Wins.of_reach
  · exact matches_cons.mpr ⟨run_le _ rest, shape⟩
  · intro other size opened within admits
    obtain rfl | rfl | rfl := opens_numeric opening opened
    · exact ⟨reach_integer opening within admits, fun _ => Or.inl rfl⟩
    · exact absurd admits (missing size within)
    · have short := reach_minus shape opened within admits
      exact ⟨Nat.le_of_lt short, fun same => absurd same (Nat.ne_of_lt short)⟩

theorem ruled_decimal {digit : Char} {behind : List Char}
    (point : rest.drop (run Char.isDigit rest) = '.' :: digit :: behind)
    (fraction : digit.isDigit = true) :
    Ruled head rest (token .decimal (run Char.isDigit rest + 2)) := by
  apply ruled_wins (ne_of_numeric opening).1 (ne_of_numeric opening).2
  apply Wins.of_reach
  · have length := congrArg List.length point
    simp only [List.length_drop, List.length_cons] at length
    apply matches_cons.mpr
    constructor
    · omega
    · obtain ⟨lead, unsigned, -, -⟩ := unsigned_opening opening
      have integer : oneOrMore Char.isDigit
          (Shape.unsigned (head :: rest.take (run Char.isDigit rest))) = true := shape
      rw [unsigned] at integer
      refine decimal_iff.mpr ⟨_, digit, ?_, integer, fraction⟩
      rw [unsigned, List.take_add, point, List.append_assoc]
      rfl
  · intro other size opened within admits
    obtain rfl | rfl | rfl := opens_numeric opening opened
    · have short := reach_integer opening within admits
      constructor
      · omega
      · intro same
        omega
    · exact ⟨Nat.le_of_eq (reach_decimal opening within admits).1, fun _ => Or.inl rfl⟩
    · have short := reach_minus shape opened within admits
      constructor
      · omega
      · intro same
        omega

/-- The digits that follow decide how long an integer is; with a point and a digit
behind them, a decimal literal is longer. -/
theorem ruled_number : Ruled head rest (number rest) := by
  simp only [number]
  split
  case h_1 digit behind point =>
    split
    case isTrue fraction =>
      exact ruled_decimal opening shape point fraction
    case isFalse plain =>
      apply ruled_integer opening shape
      intro size within admits
      obtain ⟨-, other, later, found, fraction⟩ := reach_decimal opening within admits
      rw [point] at found
      cases found
      exact plain fraction
  case h_2 elsewhere =>
    apply ruled_integer opening shape
    intro size within admits
    obtain ⟨-, digit, behind, found, -⟩ := reach_decimal opening within admits
    exact elsewhere digit behind found

end Number

theorem ruled_digits (digit : head.isDigit = true) : Ruled head rest (number rest) := by
  apply ruled_number (Or.inr digit)
  have shape : oneOrMore Char.isDigit
      (unsigned (head :: rest.take (run Char.isDigit rest))) = true := by
    rw [unsigned_cons (ne_minus_of_isDigit digit), oneOrMore_iff]
    constructor
    · exact List.cons_ne_nil _ _
    · intro character member
      cases List.mem_cons.mp member with
      | inl same => rw [same, digit]
      | inr inside => exact accept_of_mem_take_run inside
  exact shape

theorem ruled_negative {next : Char} (digit : next.isDigit = true) :
    Ruled '-' (next :: rest) (number (next :: rest)) := by
  apply ruled_number (Or.inl rfl)
  have shape : oneOrMore Char.isDigit
      ((next :: rest).take (run Char.isDigit (next :: rest))) = true := by
    rw [oneOrMore_iff]
    constructor
    · simp [run_cons, digit]
    · intro character member
      exact accept_of_mem_take_run member
  exact shape

/-- A sign without a digit behind it is in front of no number. -/
theorem ruled_minus (plain : ∀ next ∈ rest.head?, next.isDigit = false) :
    Ruled '-' rest (token (.symbol .minus) 0) := by
  have nonnumeric : ∀ size digit more, rest.take size = digit :: more → digit.isDigit ≠ true := by
    intro size digit more taken numeric
    have next : digit ∈ rest.head? := by
      cases rest with
      | nil => simp at taken
      | cons next behind =>
          cases size with
          | zero => cases taken
          | succ size =>
              cases taken
              rfl
    rw [plain digit next] at numeric
    cases numeric
  apply ruled_wins (by decide) (by decide)
  apply Wins.of_reach
  · exact matches_symbol.mpr ⟨⟨rest, rfl⟩, rfl⟩
  · intro other size opened within admits
    obtain rfl | rfl | rfl := opens_numeric (Or.inl rfl) opened
    · obtain ⟨digit, more, taken, numeric⟩ := head_of_integer admits
      exact absurd numeric (nonnumeric size digit more taken)
    · obtain ⟨digit, more, taken, numeric⟩ := head_of_decimal admits
      exact absurd numeric (nonnumeric size digit more taken)
    · have spelled := matches_symbol.mp (matches_cons.mpr ⟨within, admits⟩)
      exact ⟨Nat.le_of_eq (Nat.succ.inj spelled.2), fun _ => Or.inl rfl⟩

/-! ## Exclamation marks and dots -/

theorem ruled_notEqual : Ruled '!' ('=' :: rest) (token (.symbol .notEqual) 1) :=
  Ruled.token (no_comment (by decide)) (Munches.notEqual ⟨rest, rfl⟩)

theorem reach_info (within : size ≤ rest.length)
    (admits : Token.Kind.info.admits ('!' :: rest.take size) = true) :
    size = run isInfoChar rest + 1 ∧ ∃ behind,
      rest.drop (run isInfoChar rest) = '!' :: behind := by
  have shape : Shape.info ('!' :: rest.take size) = true := admits
  obtain ⟨body, whole, inside⟩ := info_iff.mp shape
  injection whole with _ taken
  have mark : ∀ character ∈ ['!'].head?, isInfoChar character = false := by
    intro character next
    cases next
    rfl
  obtain ⟨reached, length, behind⟩ :=
    run_of_take within taken (List.cons_ne_nil _ _) inside mark
  constructor
  · rw [length, reached]
    rfl
  · exact ⟨rest.drop size, behind⟩

theorem opens_exclamation (plain : ∀ behind, rest ≠ '=' :: behind)
    (opened : kind.opens '!' = true) (within : size ≤ rest.length)
    (admits : kind.admits ('!' :: rest.take size) = true) : kind = .info := by
  cases kind with
  | info => rfl
  | symbol mark =>
      obtain ⟨spelled, -⟩ := matches_symbol.mp (matches_cons.mpr ⟨within, admits⟩)
      obtain ⟨behind, whole⟩ := spelled
      cases mark
      all_goals cases opened
      injection whole with _ whole
      exact absurd whole.symm (plain behind)
  | _ => cases opened

theorem ruled_info (plain : ∀ behind, rest ≠ '=' :: behind) : Ruled '!' rest (info rest) := by
  simp only [info]
  split
  case h_1 behind mark =>
    apply Ruled.token (no_comment (by decide))
    apply Munches.longest
    · intro unequal
      obtain ⟨behind, whole⟩ := unequal
      injection whole with _ whole
      exact plain behind whole.symm
    apply Wins.of_reach
    · have length := congrArg List.length mark
      simp only [List.length_drop, List.length_cons] at length
      apply matches_cons.mpr
      constructor
      · omega
      · have shape : Shape.info ('!' :: rest.take (run isInfoChar rest + 1)) = true := by
          refine info_iff.mpr ⟨rest.take (run isInfoChar rest), ?_, ?_⟩
          · rw [List.take_add, mark]
            rfl
          · intro character member
            exact accept_of_mem_take_run member
        exact shape
    · intro other size opened within admits
      cases opens_exclamation plain opened within admits
      exact ⟨Nat.le_of_eq (reach_info within admits).1, fun _ => Or.inl rfl⟩
  case h_2 unclosed =>
    apply Ruled.illegal (by decide)
    apply no_match
    intro other size opened within admits
    cases opens_exclamation plain opened within admits
    obtain ⟨-, behind, mark⟩ := reach_info within admits
    exact unclosed behind mark

theorem opens_dot (opened : kind.opens '.' = true) : kind = .symbol .dots := by
  cases kind with
  | symbol mark => cases mark <;> first | rfl | cases opened
  | _ => cases opened

theorem ruled_ellipsis (missing : ∀ length, ¬Comment ('.' :: '.' :: rest) length) :
    Ruled '.' ('.' :: rest) (token (.symbol .dots) 1) := by
  apply Ruled.token missing
  apply Munches.longest
  · intro unequal
    obtain ⟨behind, whole⟩ := unequal
    cases whole
  apply Wins.of_reach
  · exact matches_symbol.mpr ⟨⟨rest, rfl⟩, rfl⟩
  · intro other size opened within admits
    cases opens_dot opened
    obtain ⟨-, length⟩ := matches_symbol.mp (matches_cons.mpr ⟨within, admits⟩)
    exact ⟨Nat.le_of_eq (Nat.succ.inj length), fun _ => Or.inl rfl⟩

theorem ruled_dots : Ruled '.' rest (dots rest) := by
  unfold dots
  split
  case h_1 body =>
    split
    case h_1 place found =>
      exact Ruled.comment (comment_of_lastEllipsis? found)
    case h_2 missing =>
      exact ruled_ellipsis fun _ => no_comment_of_lastEllipsis? missing
  case h_2 behind short =>
    apply ruled_ellipsis
    intro length comment
    obtain ⟨later, whole⟩ := comment.1
    cases whole
    exact short _ rfl
  case h_3 single =>
    apply Ruled.illegal (by decide)
    intro other length matching
    cases opens_dot matching.opens
    obtain ⟨spelled, -⟩ := matches_symbol.mp matching
    obtain ⟨behind, whole⟩ := spelled
    cases whole
    exact single _ rfl

/-! ## Words -/

theorem oneOrMore_take_iff {accept : Char → Bool} (within : size ≤ rest.length) :
    oneOrMore accept (rest.take size) = true ↔ 0 < size ∧ size ≤ run accept rest := by
  rw [← all_take_iff within]
  simp only [oneOrMore, Bool.and_eq_true]
  constructor
  · intro found
    refine ⟨Nat.pos_of_ne_zero ?_, found.2⟩
    intro zero
    subst zero
    cases found.1
  · intro found
    refine ⟨?_, found.2⟩
    have nonempty : rest.take size ≠ [] := by
      intro empty
      have length := congrArg List.length empty
      rw [List.length_take, Nat.min_eq_left within] at length
      exact Nat.ne_of_gt found.1 length
    simpa using nonempty

theorem opens_underscore (opened : kind.opens '_' = true) : kind = .rangeName := by
  cases kind with
  | rangeName => rfl
  | symbol mark => cases mark <;> cases opened
  | _ => cases opened

theorem reach_rangeName (within : size ≤ rest.length) :
    Token.Kind.rangeName.admits ('_' :: rest.take size) = true ↔
      0 < size ∧ size ≤ run isWordChar rest :=
  oneOrMore_take_iff within

theorem ruled_underscored : Ruled '_' rest (underscored rest) := by
  unfold underscored
  split
  case h_1 none =>
    apply Ruled.illegal (by decide)
    apply no_match
    intro other size opened within admits
    cases opens_underscore opened
    have reach := (reach_rangeName within).mp admits
    omega
  case h_2 more found =>
    apply ruled_wins (by decide) (by decide)
    apply Wins.of_reach
    · have within := run_le isWordChar rest
      rw [found] at within
      apply matches_cons.mpr
      exact ⟨within, (reach_rangeName within).mpr ⟨Nat.succ_pos more, Nat.le_of_eq found.symm⟩⟩
    · intro other size opened within admits
      cases opens_underscore opened
      have reach := (reach_rangeName within).mp admits
      rw [found] at reach
      exact ⟨reach.2, fun _ => Or.inl rfl⟩

theorem reach_ident (lower : head.isLower = true) (within : size ≤ rest.length) :
    Token.Kind.ident.admits (head :: rest.take size) = true ↔
      0 < size ∧ size ≤ run isWordChar rest := by
  rw [← oneOrMore_take_iff within]
  simp [Token.Kind.admits, Shape.ident, lower]

theorem ident_of_lower (lower : head.isLower = true) (opened : kind.opens head = true)
    {text : List Char} (admits : kind.admits text = true) :
    Token.Kind.ident.admits text = true := by
  cases Token.Kind.opens_of_isLower lower opened with
  | inl reserved =>
      obtain ⟨word, rfl⟩ := reserved
      rw [beq_iff_eq.mp admits]
      exact ident_keyword word
  | inr same =>
      subst same
      exact admits

theorem admits_ofWord {text : List Char} (shape : Shape.ident text = true) :
    (Token.Kind.ofWord (String.ofList text)).admits text = true := by
  unfold Token.Kind.ofWord
  split
  case h_1 reserved found =>
    rw [Keyword.ofText?_eq_some_iff] at found
    simp [Token.Kind.admits, found]
  · exact shape

theorem ofWord_preferred {text : List Char} (lower : head.isLower = true)
    (opened : kind.opens head = true) (admits : kind.admits text = true) :
    kind = .ofWord (String.ofList text) ∨
      (Token.Kind.ofWord (String.ofList text)).beats kind = true := by
  cases Token.Kind.opens_of_isLower lower opened with
  | inl reserved =>
      obtain ⟨word, rfl⟩ := reserved
      have spelled : text = word.text.toList := beq_iff_eq.mp admits
      simp [spelled, Token.Kind.ofWord, Keyword.ofText?_text]
  | inr same =>
      subst same
      unfold Token.Kind.ofWord
      split
      · exact Or.inr rfl
      · exact Or.inl rfl

theorem ruled_word (lower : head.isLower = true) : Ruled head rest (Extent.word head rest) := by
  have word := isWordChar_of_isLower lower
  unfold Extent.word
  split
  case h_1 none =>
    apply Ruled.illegal
    · exact not_isBlank_of_isWordChar word
    apply no_match
    intro other size opened within admits
    have reach := (reach_ident lower within).mp (ident_of_lower lower opened admits)
    omega
  case h_2 more found =>
    apply ruled_wins (ne_of_isWordChar word rfl) (ne_of_isWordChar word rfl)
    have within := run_le isWordChar rest
    rw [found] at within
    have shape := (reach_ident lower within).mpr ⟨Nat.succ_pos more, Nat.le_of_eq found.symm⟩
    apply Wins.of_reach
    · exact matches_cons.mpr ⟨within, admits_ofWord shape⟩
    · intro other size opened within admits
      have reach := (reach_ident lower within).mp (ident_of_lower lower opened admits)
      rw [found] at reach
      constructor
      · exact reach.2
      · intro same
        subst same
        exact ofWord_preferred lower opened admits

/-! ## Capitals -/

/-- Capitals have to be used up before the digits of a coordinate begin. -/
theorem coordinate_take_iff {text : List Char} (upper : 0 < run Char.isUpper text)
    (within : size ≤ text.length) :
    Shape.coordinate (text.take size) = true ↔
      run Char.isUpper text ≤ 2 ∧ run Char.isUpper text < size ∧
        size ≤ run Char.isUpper text +
          min (run Char.isDigit (text.drop (run Char.isUpper text))) 3 := by
  rw [coordinate_iff]
  constructor
  · intro found
    obtain ⟨capitals, digits, taken, upper, few, numeric, short⟩ := found
    obtain ⟨digit, more, whole, first⟩ := head_of_oneOrMore numeric
    have outside : ∀ character ∈ digits.head?, character.isUpper = false := by
      intro character next
      rw [whole] at next
      cases next
      exact not_isUpper_of_isDigit first
    have nonempty : digits ≠ [] := (oneOrMore_iff.mp numeric).1
    obtain ⟨reached, length, behind⟩ :=
      run_of_take within taken nonempty (oneOrMore_iff.mp upper).2 outside
    have fits : digits.length ≤ run Char.isDigit (text.drop (run Char.isUpper text)) := by
      apply le_run
      · simp [behind]
      · rw [behind, List.take_left]
        exact (oneOrMore_iff.mp numeric).2
    have positive := List.length_pos_iff.mpr nonempty
    omega
  · intro found
    obtain ⟨few, longer, reach⟩ := found
    obtain ⟨count, rfl⟩ := Nat.exists_eq_add_of_lt longer
    have rests : count + 1 ≤ (text.drop (run Char.isUpper text)).length := by
      rw [List.length_drop]
      omega
    refine ⟨_, _, by rw [Nat.add_assoc, List.take_add], ?_, ?_, ?_, ?_⟩
    · exact (oneOrMore_take_iff (run_le _ text)).mpr ⟨upper, Nat.le_refl _⟩
    · rw [List.length_take]
      omega
    · apply (oneOrMore_take_iff rests).mpr
      omega
    · rw [List.length_take]
      omega

section Capitals

variable (upper : head.isUpper = true)

theorem reach_sheetName (within : size ≤ rest.length) :
    Token.Kind.sheetName.admits (head :: rest.take size) = true ↔
      size < run Char.isUpper (head :: rest) := by
  have reach : oneOrMore Char.isUpper ((head :: rest).take (size + 1)) = true ↔
      0 < size + 1 ∧ size + 1 ≤ run Char.isUpper (head :: rest) :=
    oneOrMore_take_iff (Nat.succ_le_succ within)
  constructor
  · intro admits
    exact (reach.mp admits).2
  · intro inside
    exact reach.mpr ⟨Nat.succ_pos size, inside⟩

include upper

theorem run_isUpper_pos : 0 < run Char.isUpper (head :: rest) := by
  rw [run_cons, upper]
  exact Nat.succ_pos _

theorem reach_funcName (within : size ≤ rest.length) :
    Token.Kind.funcName.admits (head :: rest.take size) = true ↔ size ≤ run isFuncChar rest := by
  rw [← all_take_iff within]
  simp [Token.Kind.admits, Shape.funcName, upper]

theorem reach_coordinate (within : size ≤ rest.length) :
    Token.Kind.coordinate.admits (head :: rest.take size) = true ↔
      run Char.isUpper (head :: rest) ≤ 2 ∧ run Char.isUpper (head :: rest) < size + 1 ∧
        size + 1 ≤ run Char.isUpper (head :: rest) +
          min (run Char.isDigit ((head :: rest).drop (run Char.isUpper (head :: rest)))) 3 :=
  coordinate_take_iff (run_isUpper_pos upper) (Nat.succ_le_succ within)

theorem reach_capitals (opened : kind.opens head = true) (within : size ≤ rest.length)
    (admits : kind.admits (head :: rest.take size) = true) :
    kind = .coordinate ∧ run Char.isUpper (head :: rest) ≤ 2 ∧
        run Char.isUpper (head :: rest) < size + 1 ∧
        size + 1 ≤ run Char.isUpper (head :: rest) +
          min (run Char.isDigit ((head :: rest).drop (run Char.isUpper (head :: rest)))) 3 ∨
      kind = .sheetName ∧ size < run Char.isUpper (head :: rest) ∨
      kind = .funcName ∧ size ≤ run isFuncChar rest := by
  obtain rfl | rfl | rfl := Token.Kind.opens_of_isUpper upper opened
  · exact Or.inl ⟨rfl, (reach_coordinate upper within).mp admits⟩
  · exact Or.inr (Or.inl ⟨rfl, (reach_sheetName within).mp admits⟩)
  · exact Or.inr (Or.inr ⟨rfl, (reach_funcName upper within).mp admits⟩)

/-- Of the longest text of each form, the longest is taken. -/
theorem ruled_capitalised : Ruled head rest (capitalised head rest) := by
  have word := isWordChar_of_isUpper upper
  have dot : head ≠ '.' := ne_of_isWordChar word rfl
  have mark : head ≠ '!' := ne_of_isWordChar word rfl
  have reach {kind size} := @reach_capitals head rest kind size upper
  have coordinates {size} := @reach_coordinate head rest size upper
  have sheets {size} := @reach_sheetName head rest size
  have capitalsPositive := @run_isUpper_pos head rest upper
  have capitalsWithin := run_le Char.isUpper (head :: rest)
  have funcWithin := run_le isFuncChar rest
  have digitsWithin :=
    run_le Char.isDigit ((head :: rest).drop (run Char.isUpper (head :: rest)))
  simp only [List.length_drop, List.length_cons] at capitalsWithin digitsWithin
  simp only [capitalised]
  generalize run Char.isDigit _ = digits at *
  generalize run Char.isUpper (head :: rest) = capitals at *
  generalize length : (if capitals ≤ 2 ∧ 0 < digits then capitals + min digits 3 else 0) =
    coordinate
  have numbered : capitals ≤ 2 ∧ 0 < digits ∧ coordinate = capitals + min digits 3 ∨
      ¬(capitals ≤ 2 ∧ 0 < digits) ∧ coordinate = 0 := by
    split at length <;> omega
  split
  · apply ruled_wins dot mark
    apply Wins.of_reach
    · apply matches_cons.mpr
      constructor
      · omega
      · apply (coordinates _).mpr <;> omega
    · intro other size opened within admits
      obtain ⟨rfl, bound⟩ | ⟨rfl, bound⟩ | ⟨rfl, bound⟩ := reach opened within admits
      · exact ⟨by omega, fun _ => Or.inl rfl⟩
      · exact ⟨by omega, fun _ => Or.inr rfl⟩
      · exact ⟨by omega, fun _ => Or.inr rfl⟩
  split
  · apply ruled_wins dot mark
    apply Wins.of_reach
    · apply matches_cons.mpr
      constructor
      · omega
      · apply (sheets _).mpr <;> omega
    · intro other size opened within admits
      obtain ⟨rfl, bound⟩ | ⟨rfl, bound⟩ | ⟨rfl, bound⟩ := reach opened within admits
      · omega
      · exact ⟨by omega, fun _ => Or.inl rfl⟩
      · exact ⟨by omega, fun _ => Or.inr rfl⟩
  · apply ruled_wins dot mark
    apply Wins.of_reach
    · apply matches_cons.mpr
      constructor
      · omega
      · apply (reach_funcName upper _).mpr <;> omega
    · intro other size opened within admits
      obtain ⟨rfl, bound⟩ | ⟨rfl, bound⟩ | ⟨rfl, bound⟩ := reach opened within admits
      · exact ⟨by omega, fun same => by omega⟩
      · exact ⟨by omega, fun same => by omega⟩
      · exact ⟨by omega, fun _ => Or.inl rfl⟩

end Capitals

end Extent

end SheetLang
