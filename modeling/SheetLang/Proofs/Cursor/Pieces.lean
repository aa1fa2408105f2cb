import Mathlib.Data.List.TakeWhile
import SheetLang.Proofs.Cursor.Passing
import SheetLang.Proofs.Lexeme.Adequacy

/-!
# Pieces of a source

What a cursor finds behind the first character of a piece is what the extent of the lexeme
says, and the cursor stops where the lexeme ends.  Comments and words in capitals reach as
many bytes as their characters have.
-/

namespace SheetLang.Scan

open Reader (byteSize)

variable {cursor : Cursor} {head : Char} {passed text : List Char} {accept : Char → Bool}

/-! ## What is found -/

/-- Behind its first character a scan comes to what an extent says.  Where no lexeme starts,
it may have passed over characters before it reports the first. -/
inductive Finds (scan : Scan Piece) (cursor : Cursor) (head : Char) : Option Extent → Prop where
  | token {kind : Token.Kind} {more : Nat} {passed : List Char} :
      passed <+: cursor.left → passed.length = more →
      Passes scan cursor (.ok (some ⟨kind, String.ofList (head :: passed), cursor.line⟩))
        (cursor.past passed) →
      Finds scan cursor head (Extent.token kind more)
  | skip {more : Nat} {passed : List Char} :
      passed <+: cursor.left → passed.length = more →
      Passes scan cursor (.ok none)
        ((cursor.past passed).down ((head :: passed).count '\n')) →
      Finds scan cursor head (Extent.skip more)
  | illegal {passed : List Char} : passed <+: cursor.left →
      Passes scan cursor (.error (.lexical head cursor.line)) (cursor.past passed) →
      Finds scan cursor head none

theorem passes_token (holds : cursor.Holds text) (kind : Token.Kind) :
    Passes (token kind) cursor (.ok (some ⟨kind, String.ofList text, cursor.line⟩)) cursor :=
  .bind (passes_here cursor) (.bind (passes_require holds.between?_eq _) (.pure _ _))

theorem passes_illegal (character : Char) (cursor : Cursor) :
    Passes (illegal character) cursor (.error (.lexical character cursor.line)) cursor :=
  .bind (passes_here cursor) (.pure _ _)

theorem finds_token (holds : cursor.Holds [head]) (kind : Token.Kind) :
    Finds (token kind) cursor head (Extent.token kind 0) :=
  .token List.nil_prefix rfl (passes_token holds kind)

theorem finds_illegal (head : Char) (cursor : Cursor) :
    Finds (illegal head) cursor head none :=
  .illegal List.nil_prefix (passes_illegal head cursor)

/-- A run of characters other than line breaks. -/
theorem passes_run (holds : cursor.Holds text) {run : Char → Bool}
    (same : ∀ character, (character != '\n' && accept character) = run character) :
    Passes (advanceWhile accept) cursor () (cursor.past (cursor.left.takeWhile run)) := by
  rw [← funext same]
  exact passes_advanceWhile holds accept

theorem and_eq_self (refused : accept '\n' = false) (character : Char) :
    (character != '\n' && accept character) = accept character := by
  by_cases same : character = '\n'
  · rw [same, refused, Bool.and_false]
  · rw [bne_iff_ne.mpr same, Bool.true_and]

theorem left_past_takeWhile (accept : Char → Bool) :
    (cursor.past (cursor.left.takeWhile accept)).left =
      cursor.left.drop (Extent.run accept cursor.left) :=
  rfl

theorem passes_mark {mark : Char} {rest : List Char} (holds : cursor.Holds text)
    (left : cursor.left = mark :: rest) :
    Passes (advanceIf (· == mark)) cursor (some mark) (cursor.past [mark]) :=
  passes_advanceIf holds left (beq_self_eq_true mark)

theorem passes_mark_none {mark : Char} (missing : ∀ rest, cursor.left ≠ mark :: rest) :
    Passes (advanceIf (· == mark)) cursor none cursor := by
  apply passes_advanceIf_none
  intro character first
  apply beq_eq_false_iff_ne.mpr
  rintro rfl
  obtain ⟨rest, left⟩ := List.head?_eq_some_iff.mp first
  exact missing rest left

/-! ## Symbols -/

theorem finds_withEquals (holds : cursor.Holds [head]) (long short : Symbol) :
    Finds (withEquals long short) cursor head (Extent.withEquals long short cursor.left) := by
  unfold Extent.withEquals
  split
  case h_1 rest left =>
    have ahead : ['='] <+: cursor.left := ⟨rest, left.symm⟩
    refine .token ahead rfl (.bind (passes_mark holds left) ?_)
    exact passes_token (holds.past ahead) _
  case h_2 plain =>
    exact .token List.nil_prefix rfl (.bind (passes_mark_none plain) (passes_token holds _))

/-! ## Numbers -/

theorem finds_number (holds : cursor.Holds [head]) :
    Finds number cursor head (Extent.number cursor.left) := by
  have run : Passes (advanceWhile Char.isDigit) cursor ()
      (cursor.past (cursor.left.takeWhile Char.isDigit)) := passes_run holds (and_eq_self rfl)
  have digits : cursor.left.takeWhile Char.isDigit <+: cursor.left := List.takeWhile_prefix _
  have held := holds.past digits
  unfold Extent.number
  dsimp only
  rw [← left_past_takeWhile]
  split
  case h_1 digit rest left =>
    split
    case isTrue fraction =>
      have point : ['.'] <+: (cursor.past (cursor.left.takeWhile Char.isDigit)).left :=
        ⟨digit :: rest, left.symm⟩
      have behind := left_past_cons left
      have last : [digit] <+:
          ((cursor.past (cursor.left.takeWhile Char.isDigit)).past ['.']).left :=
        ⟨rest, behind.symm⟩
      have whole := Cursor.ahead_append digits (Cursor.ahead_append point last)
      refine .token whole ?_ (.bind run (.bind (passes_here _) ?_))
      · simp [Extent.run]
      · simp only [left, if_pos fraction]
        refine .bind (passes_advance held left) ?_
        refine .bind (passes_advance (held.past point) behind) ?_
        rw [Cursor.past_past, Cursor.past_past]
        exact passes_token (holds.past whole) .decimal
    case isFalse other =>
      refine .token digits rfl (.bind run (.bind (passes_here _) ?_))
      simp only [left, if_neg other]
      exact passes_token held .integer
  case h_2 plain =>
    refine .token digits rfl (.bind run (.bind (passes_here _) ?_))
    split
    case h_1 digit rest left =>
      exact absurd left (plain digit rest)
    · exact passes_token held .integer

/-! ## Info strings -/

theorem finds_info (holds : cursor.Holds ['!']) :
    Finds info cursor '!' (Extent.info cursor.left) := by
  have run : Passes (advanceWhile (· != '!')) cursor ()
      (cursor.past (cursor.left.takeWhile Shape.isInfoChar)) :=
    passes_run holds fun _ => Bool.and_comm _ _
  have body : cursor.left.takeWhile Shape.isInfoChar <+: cursor.left := List.takeWhile_prefix _
  have held := holds.past body
  unfold Extent.info
  dsimp only
  rw [← left_past_takeWhile]
  split
  case h_1 rest left =>
    have mark : ['!'] <+: (cursor.past (cursor.left.takeWhile Shape.isInfoChar)).left :=
      ⟨rest, left.symm⟩
    have whole := Cursor.ahead_append body mark
    refine .token whole ?_ (.bind run (.bind (passes_mark held left) ?_))
    · simp [Extent.run]
    · rw [Cursor.past_past]
      exact passes_token (holds.past whole) .info
  case h_2 unclosed =>
    exact .illegal body (.bind run (.bind (passes_mark_none unclosed) (passes_illegal _ _)))

/-! ## Dots -/

/-- A comment behind its first two dots, in characters and in bytes. -/
theorem take_ellipsis {line : List Char} {place : Nat}
    (found : Extent.lastEllipsis? line = some place) :
    (line.take (place + 3)).length = place + 3 ∧
      byteSize ('.' :: line.take (place + 3)) = 1 + byteSize (line.take place) + 3 := by
  have ellipsis := (ellipsis_of_lastEllipsis? found).1
  have last : (line.drop place).take 3 = ['.', '.', '.'] :=
    (List.prefix_iff_eq_take.mp ellipsis).symm
  constructor
  · apply List.length_take_of_le
    have size := ellipsis.length_le
    simp only [List.length_cons, List.length_nil, List.length_drop] at size
    omega
  · rw [byteSize_cons, List.take_add, last, byteSize_append, Nat.add_assoc]
    rfl

theorem passes_skip_offset (holds : cursor.Holds text) {target : Nat}
    (ahead : passed <+: cursor.left) (reach : target = cursor.offset + byteSize passed) :
    Passes (skip (fun cursor => some cursor.offset) target) cursor () (cursor.past passed) := by
  rw [reach]
  exact passes_skip holds ahead fun _ _ => rfl

theorem passes_commentEnd? (holds : cursor.Holds text) {body : List Char}
    (left : cursor.left = '.' :: body) :
    Passes commentEnd? cursor ((ellipsisOffset? (body.takeWhile (· != '\n'))).map fun close =>
      cursor.offset + 1 + close + 3) cursor := by
  have rest := holds.inStep.left
  have line : between? (String.ofList body) (byteSize [])
      (byteSize [] + lineEnd body) = some (String.ofList (body.takeWhile (· != '\n'))) := by
    apply between?_of_append
    rw [String.toList_ofList, List.nil_append, List.takeWhile_append_dropWhile]
  rw [byteSize_nil, Nat.zero_add] at line
  refine .bind (passes_here cursor) (.bind (passes_require rest cursor) ?_)
  simp only [left, String.toList_ofList]
  refine .bind (passes_require line cursor) ?_
  rw [String.toList_ofList]
  exact .pure _ _

theorem passes_commentEnd?_none (holds : cursor.Holds text)
    (single : ∀ body, cursor.left ≠ '.' :: body) :
    Passes commentEnd? cursor none cursor := by
  refine .bind (passes_here cursor) (.bind (passes_require holds.inStep.left cursor) ?_)
  rw [String.toList_ofList]
  split
  case h_1 body left =>
    exact absurd left (single body)
  · exact .pure none cursor

theorem finds_dots (holds : cursor.Holds ['.']) :
    Finds dots cursor '.' (Extent.dots cursor.left) := by
  unfold Extent.dots
  split
  case h_1 body left =>
    have second : ['.'] <+: cursor.left := ⟨'.' :: body, left.symm⟩
    have held := holds.past second
    have behind := left_past_cons left
    have start := passes_mark holds left
    have target := passes_commentEnd? held behind
    have line : body.takeWhile (· != '\n') <+: body := List.takeWhile_prefix _
    have outside : '\n' ∉ body.takeWhile (· != '\n') := by
      intro inside
      simpa using List.mem_takeWhile_imp inside
    generalize body.takeWhile (· != '\n') = first at target line outside ⊢
    split
    case h_1 place found =>
      obtain ⟨length, width⟩ := take_ellipsis found
      have comment : '.' :: first.take (place + 3) <+: (cursor.past ['.']).left := by
        rw [behind]
        exact List.cons_prefix_cons.mpr ⟨rfl, (List.take_prefix _ _).trans line⟩
      have breaks : ('.' :: (['.'] ++ '.' :: first.take (place + 3))).count '\n' = 0 := by
        apply List.count_eq_zero.mpr
        have beyond : '\n' ∉ first.take (place + 3) := fun inside =>
          outside (List.mem_of_mem_take inside)
        simp [beyond]
      rw [ellipsisOffset?, found] at target
      refine .skip (Cursor.ahead_append second comment) ?_ (.bind start (.bind target ?_))
      · simp only [List.length_append, List.length_cons, List.length_nil, length]
        omega
      · rw [breaks, Cursor.down_zero, ← Cursor.past_past]
        refine .bind (passes_skip_offset held comment ?_) (.pure _ _)
        rw [width, ← Nat.add_assoc, ← Nat.add_assoc]
    case h_2 missing =>
      refine .token second rfl (.bind start (.bind target ?_))
      rw [ellipsisOffset?, missing]
      exact passes_token held _
  case h_2 rest other left =>
    have second : ['.'] <+: cursor.left := ⟨rest, left.symm⟩
    have held := holds.past second
    refine .token second rfl (.bind (passes_mark holds left) ?_)
    refine .bind (passes_commentEnd?_none held ?_) (passes_token held _)
    rw [left_past_cons left]
    rintro body rfl
    exact other body rfl
  case h_3 missing =>
    exact .illegal List.nil_prefix (.bind (passes_mark_none missing) (passes_illegal _ _))

/-! ## Words -/

theorem isNarrow_isDigit : IsNarrow Char.isDigit := by
  intro character digit
  have bounds := Bool.and_eq_true_iff.mp digit
  exact Char.utf8Size_eq_one_iff.mpr (UInt32.le_trans (of_decide_eq_true bounds.2) (by decide))

theorem isNarrow_isUpper : IsNarrow Char.isUpper := by
  intro character upper
  have bounds : 'A'.val ≤ character.val ∧ character.val ≤ 'Z'.val := of_decide_eq_true upper
  exact Char.utf8Size_eq_one_iff.mpr (UInt32.le_trans bounds.2 (by decide))

theorem isNarrow_isLower : IsNarrow Char.isLower := by
  intro character lower
  have bounds := Bool.and_eq_true_iff.mp lower
  exact Char.utf8Size_eq_one_iff.mpr (UInt32.le_trans (of_decide_eq_true bounds.2) (by decide))

theorem isNarrow_isFuncChar : IsNarrow Shape.isFuncChar := by
  intro character accepted
  simp only [Shape.isFuncChar, Bool.or_eq_true, beq_iff_eq] at accepted
  rcases accepted with (lower | digit) | rfl
  · exact isNarrow_isLower character lower
  · exact isNarrow_isDigit character digit
  · rfl

/-- With a head of one byte, a word has more than one byte exactly if it goes on. -/
theorem byteSize_lt_two_iff (narrow : head.utf8Size = 1) :
    byteSize (head :: text) < 2 ↔ text = [] := by
  cases text with
  | nil => simp [narrow]
  | cons next rest =>
      have positive := next.utf8Size_pos
      simp [narrow]
      omega

theorem exists_run (holds : cursor.Holds text) (accept : Char → Bool)
    (refused : accept '\n' = false) :
    ∃ passed, passed <+: cursor.left ∧ Extent.run accept cursor.left = passed.length ∧
      Passes (advanceWhile accept) cursor () (cursor.past passed) :=
  ⟨cursor.left.takeWhile accept, List.takeWhile_prefix _, rfl,
    passes_run holds (and_eq_self refused)⟩

theorem finds_word (holds : cursor.Holds [head]) (narrow : head.utf8Size = 1) :
    Finds word cursor head (Extent.word head cursor.left) := by
  obtain ⟨passed, ahead, length, run⟩ := exists_run holds Shape.isWordChar rfl
  have held := holds.past ahead
  have long := @byteSize_lt_two_iff head passed narrow
  rw [Extent.word, length]
  cases passed with
  | nil =>
      refine .illegal ahead (.bind run (.bind (passes_here _)
        (.bind (passes_require held.between?_eq _) ?_)))
      rw [utf8ByteSize_ofList, List.append_nil, if_pos (long.mpr rfl), String.toList_ofList]
      exact passes_illegal head _
  | cons next rest =>
      have word : head :: cursor.left.take (rest.length + 1) = head :: next :: rest :=
        congrArg _ (List.prefix_iff_eq_take.mp ahead).symm
      have whole : ¬byteSize ([head] ++ next :: rest) < 2 := fun short => nomatch long.mp short
      rw [List.length_cons]
      dsimp only
      rw [word]
      refine .token ahead rfl (.bind run (.bind (passes_here _)
        (.bind (passes_require held.between?_eq _) ?_)))
      rw [utf8ByteSize_ofList, if_neg whole]
      exact passes_token held _

theorem finds_underscored (holds : cursor.Holds ['_']) :
    Finds underscored cursor '_' (Extent.underscored cursor.left) := by
  obtain ⟨passed, ahead, length, run⟩ := exists_run holds Shape.isWordChar rfl
  have held := holds.past ahead
  have long := @byteSize_lt_two_iff '_' passed rfl
  rw [Extent.underscored, length]
  cases passed with
  | nil =>
      refine .illegal ahead (.bind run (.bind (passes_here _)
        (.bind (passes_require held.width?_eq _) ?_)))
      exact passes_illegal '_' _
  | cons next rest =>
      have whole : ¬byteSize (['_'] ++ next :: rest) < 2 := fun short => nomatch long.mp short
      refine .token ahead rfl (.bind run (.bind (passes_here _)
        (.bind (passes_require held.width?_eq _) ?_)))
      rw [if_neg whole]
      exact passes_token held _

/-! ## Words in capitals -/

theorem Finds.mono {scan other : Scan Piece} {extent : Option Extent}
    (passes : ∀ value after, Passes scan cursor value after → Passes other cursor value after)
    (finds : Finds scan cursor head extent) : Finds other cursor head extent := by
  cases finds with
  | token ahead length found => exact .token ahead length (passes _ _ found)
  | skip ahead length found => exact .skip ahead length (passes _ _ found)
  | illegal ahead found => exact .illegal ahead (passes _ _ found)

/-- A token of characters that have one byte each. -/
theorem finds_width (holds : cursor.Holds [head]) (kind : Token.Kind) {width : Nat}
    (positive : 0 < width) (within : width ≤ (head :: cursor.left).length)
    (narrow : ∀ character ∈ (head :: cursor.left).take width, character.utf8Size = 1) :
    Finds (skip Cursor.width? width >>= fun _ => token kind) cursor head
      (Extent.token kind (width - 1)) := by
  obtain ⟨more, rfl⟩ := Nat.exists_eq_add_of_lt positive
  have ahead : cursor.left.take more <+: cursor.left := List.take_prefix _ _
  have length : (cursor.left.take more).length = more := by
    apply List.length_take_of_le
    simpa using within
  have size := byteSize_eq_length narrow
  rw [Nat.zero_add, List.take_succ_cons, List.length_cons, length] at size
  have skipped : Passes (skip Cursor.width? (0 + more + 1)) cursor ()
      (cursor.past (cursor.left.take more)) := by
    rw [Nat.zero_add, ← size]
    apply passes_skip holds ahead
    intro front inside
    exact (holds.past (inside.trans ahead)).width?_eq
  refine .token ahead ?_ (skipped.bind (passes_token (holds.past ahead) kind))
  rw [length, Nat.zero_add, Nat.add_sub_cancel]

theorem longest_eq {coordinate sheet func : Nat} (positive : 0 < sheet) :
    longest [(.coordinate, coordinate), (.sheetName, sheet), (.funcName, func)] =
      if sheet ≤ coordinate ∧ func ≤ coordinate then (.coordinate, coordinate)
      else if func ≤ sheet then (.sheetName, sheet) else (.funcName, func) := by
  simp only [longest, List.foldl_cons, List.foldl_nil]
  grind

theorem passes_countBehind (narrow : IsNarrow accept) (front back : List Char)
    (cursor : Cursor) :
    Passes (countBehind accept (String.ofList (front ++ back)) (byteSize front)) cursor
      (Extent.run accept back) cursor :=
  .bind (passes_note (isValid_of_append String.toList_ofList))
    (passes_require (countBehind?_of_append narrow front back) cursor)

theorem passes_capitalised (holds : cursor.Holds [head]) (upper : head.isUpper = true)
    {coordinate sheet func digits : Nat} {value : Piece} {after : Cursor}
    (capitals : sheet = Extent.run Char.isUpper (head :: cursor.left))
    (small : func = 1 + Extent.run Shape.isFuncChar cursor.left)
    (figures : digits = Extent.run Char.isDigit ((head :: cursor.left).drop sheet))
    (both : coordinate = if sheet ≤ 2 ∧ 0 < digits then sheet + min digits 3 else 0)
    (passes : Passes (skip Cursor.width?
        (longest [(.coordinate, coordinate), (.sheetName, sheet), (.funcName, func)]).2 >>= fun _ =>
      token (longest [(.coordinate, coordinate), (.sheetName, sheet), (.funcName, func)]).1)
      cursor value after) :
    Passes capitalised cursor value after := by
  have one : byteSize [head] = 1 := isNarrow_isUpper head upper
  have word : byteSize ((head :: cursor.left).take sheet) = sheet := by
    rw [capitals, byteSize_eq_length fun _ => isNarrow_isUpper.of_mem_take_run,
      List.length_take_of_le (Extent.run_le _ _)]
  have first := passes_countBehind isNarrow_isUpper [] (head :: cursor.left) cursor
  have second := passes_countBehind isNarrow_isFuncChar [head] cursor.left cursor
  have third := passes_countBehind isNarrow_isDigit ((head :: cursor.left).take sheet)
    ((head :: cursor.left).drop sheet) cursor
  rw [one] at second
  rw [word, List.take_append_drop, ← figures] at third
  refine .bind (passes_here cursor) (.bind (passes_require holds.between?_start cursor) ?_)
  refine .bind (capitals ▸ first) (.bind second (.bind third ?_))
  rw [← small, ← both]
  exact passes

theorem finds_coordinate (holds : cursor.Holds [head]) {sheet digits : Nat}
    (capitals : sheet = Extent.run Char.isUpper (head :: cursor.left))
    (figures : digits = Extent.run Char.isDigit ((head :: cursor.left).drop sheet))
    (positive : 0 < sheet) :
    Finds (skip Cursor.width? (sheet + min digits 3) >>= fun _ => token .coordinate) cursor head
      (Extent.token .coordinate (sheet + min digits 3 - 1)) := by
  have front : sheet ≤ (head :: cursor.left).length := capitals ▸ Extent.run_le _ _
  have behind : digits ≤ (head :: cursor.left).length - sheet := by
    rw [figures, ← List.length_drop]
    exact Extent.run_le _ _
  refine finds_width holds .coordinate (by omega) (by omega) fun character member => ?_
  rw [List.take_add] at member
  rcases List.mem_append.mp member with capital | digit
  · rw [capitals] at capital
    exact isNarrow_isUpper.of_mem_take_run capital
  · have figure : character ∈ ((head :: cursor.left).drop sheet).take digits :=
      List.take_subset_take_left _ (Nat.min_le_left digits 3) digit
    rw [figures] at figure
    exact isNarrow_isDigit.of_mem_take_run figure

theorem finds_sheetName (holds : cursor.Holds [head]) {sheet : Nat}
    (capitals : sheet = Extent.run Char.isUpper (head :: cursor.left)) (positive : 0 < sheet) :
    Finds (skip Cursor.width? sheet >>= fun _ => token .sheetName) cursor head
      (Extent.token .sheetName (sheet - 1)) := by
  subst capitals
  exact finds_width holds .sheetName positive (Extent.run_le _ _) fun _ =>
    isNarrow_isUpper.of_mem_take_run

theorem finds_funcName (holds : cursor.Holds [head]) (upper : head.isUpper = true) {func : Nat}
    (small : func = 1 + Extent.run Shape.isFuncChar cursor.left) :
    Finds (skip Cursor.width? func >>= fun _ => token .funcName) cursor head
      (Extent.token .funcName (func - 1)) := by
  rw [Nat.add_comm] at small
  subst small
  refine finds_width holds .funcName (Nat.succ_pos _) (Nat.succ_le_succ (Extent.run_le _ _)) ?_
  rw [List.take_succ_cons]
  exact List.forall_mem_cons.mpr
    ⟨isNarrow_isUpper head upper, fun _ => isNarrow_isFuncChar.of_mem_take_run⟩

theorem finds_capitalised (holds : cursor.Holds [head]) (upper : head.isUpper = true) :
    Finds capitalised cursor head (Extent.capitalised head cursor.left) := by
  have passes := @passes_capitalised cursor head holds upper
  unfold Extent.capitalised
  dsimp only
  generalize capitals : Extent.run Char.isUpper (head :: cursor.left) = sheet
  generalize small : 1 + Extent.run Shape.isFuncChar cursor.left = func
  generalize figures : Extent.run Char.isDigit ((head :: cursor.left).drop sheet) = digits
  generalize both : (if sheet ≤ 2 ∧ 0 < digits then sheet + min digits 3 else 0) = coordinate
  replace passes := fun value after =>
    @passes coordinate sheet func digits value after capitals.symm small.symm figures.symm both.symm
  have positive : 0 < sheet := by
    rw [← capitals, Extent.run_cons, if_pos upper]
    exact Nat.succ_pos _
  rw [longest_eq positive] at passes
  split
  case isTrue reach =>
    rw [if_pos reach] at passes
    by_cases mixed : sheet ≤ 2 ∧ 0 < digits
    · rw [if_pos mixed] at both
      subst both
      exact .mono passes (finds_coordinate holds capitals.symm figures.symm positive)
    · rw [if_neg mixed] at both
      omega
  split
  case isFalse.isTrue less reach =>
    rw [if_neg less, if_pos reach] at passes
    exact .mono passes (finds_sheetName holds capitals.symm positive)
  case isFalse.isFalse less reach =>
    rw [if_neg less, if_neg reach] at passes
    exact .mono passes (finds_funcName holds upper small.symm)

/-! ## Any piece -/

theorem finds_newline (holds : cursor.Holds ['\n']) :
    Finds (behind '\n') cursor '\n' (Extent.skip 0) :=
  .skip List.nil_prefix rfl
    (.bind (passes_here cursor) (.bind (passes_moveTo rfl (holds.down 1)) (.pure _ _)))

theorem finds_exclamation (holds : cursor.Holds ['!']) :
    Finds (behind '!') cursor '!' (Extent.of? '!' cursor.left) := by
  simp only [Extent.of?]
  split
  case h_1 rest left =>
    have ahead : ['='] <+: cursor.left := ⟨rest, left.symm⟩
    exact .token ahead rfl (.bind (passes_mark holds left) (passes_token (holds.past ahead) _))
  case h_2 plain =>
    exact .mono (fun _ _ passes => .bind (passes_mark_none plain) passes) (finds_info holds)

theorem finds_minus (holds : cursor.Holds ['-']) :
    Finds (behind '-') cursor '-' (Extent.of? '-' cursor.left) := by
  simp only [Extent.of?]
  split
  case h_1 next rest left =>
    split
    case isTrue digit =>
      refine .mono (fun _ _ passes => .bind (passes_here cursor) ?_) (finds_number holds)
      simp only [left, if_pos digit]
      exact passes
    case isFalse other =>
      refine .mono (fun _ _ passes => .bind (passes_here cursor) ?_) (finds_token holds _)
      simp only [left, if_neg other]
      exact passes
  case h_2 left =>
    refine .mono (fun _ _ passes => .bind (passes_here cursor) ?_) (finds_token holds _)
    rw [left]
    exact passes

theorem finds_behind (holds : cursor.Holds [head]) :
    Finds (behind head) cursor head (Extent.of? head cursor.left) := by
  unfold behind
  split
  -- blanks
  case h_1 | h_2 => exact .skip List.nil_prefix rfl (.pure _ _)
  case h_3 => exact finds_newline holds
  case h_18 | h_19 | h_20 => exact finds_withEquals holds _ _
  -- an exclamation mark, a dot, a minus and an underscore
  case h_21 => exact finds_exclamation holds
  case h_22 => exact finds_dots holds
  case h_23 => exact finds_minus holds
  case h_24 => exact finds_underscored holds
  -- letters, digits and characters that begin nothing
  case h_25 =>
    have other : Extent.of? head cursor.left =
        if head.isDigit then Extent.number cursor.left
        else if head.isLower then Extent.word head cursor.left
        else if head.isUpper then Extent.capitalised head cursor.left
        else none := by
      simp only [Extent.of?]
    rw [other]
    split
    · exact finds_number holds
    split
    case isFalse.isTrue lower =>
      exact finds_word holds (isNarrow_isLower head lower)
    split
    case isFalse.isFalse.isTrue upper =>
      exact finds_capitalised holds upper
    · exact finds_illegal head cursor
  -- what is left are symbols of one character
  all_goals exact finds_token holds _

end SheetLang.Scan
