import Mathlib.Data.List.TakeWhile
import SheetLang.Lexeme.Uncommented
import SheetLang.Proofs.TokenStream.Partition

/-!
# Sources without comments

A comment takes all dots of its line that could end one, so nothing in front of it can
become a comment with what is behind it.  Therefore a space in the place of each comment
leaves all other lexemes as they are.
-/

namespace SheetLang

variable {text front rest : List Char} {lexeme : Lexeme} {length : Nat}

/-! ## The first line of a text -/

theorem newline_notMem_firstLine (text : List Char) : '\n' ∉ firstLine text := by
  intro member
  simpa using List.mem_takeWhile_imp member

theorem prefix_firstLine (opened : front <+: text) (outside : '\n' ∉ front) :
    front <+: firstLine text := by
  obtain ⟨behind, rfl⟩ := opened
  have inside : ∀ character ∈ front, (character != '\n') = true := by
    intro character member
    simpa using ne_of_mem_of_not_mem member outside
  rw [firstLine, List.takeWhile_append_of_pos inside]
  exact List.prefix_append _ _

/-! ## Where comments end -/

theorem Comment.length_le (comment : Comment text length) (opened : front <+: text)
    (ends : ['.', '.', '.'] <:+ front) (outside : '\n' ∉ front) : front.length ≤ length := by
  by_cases enough : 6 ≤ front.length
  · apply comment.2.2
    have same : text.take front.length = front := (List.prefix_iff_eq_take.mp opened).symm
    exact ⟨enough, opened.length_le, same.symm ▸ ends, same.symm ▸ outside⟩
  · have long := comment.2.1.1
    omega

section

variable (comment : Comment (front ++ rest) front.length)

include comment

theorem Comment.newline_notMem : '\n' ∉ front := by
  have outside := comment.2.1.2.2.2
  rwa [List.take_left] at outside

theorem Comment.last {other : List Char} (opened : other <+: front ++ firstLine rest)
    (ends : ['.', '.', '.'] <:+ other) : other.length ≤ front.length := by
  refine comment.length_le (opened.trans ?_) ends fun member => ?_
  · exact (List.prefix_append_right_inj front).mpr (List.takeWhile_prefix _)
  · cases List.mem_append.mp (opened.subset member) with
    | inl inside => exact comment.newline_notMem inside
    | inr behind => exact newline_notMem_firstLine rest behind

theorem Comment.bare_behind : ¬['.', '.', '.'] <:+: firstLine rest := by
  intro inside
  obtain ⟨other, ends, onLine⟩ := List.infix_iff_suffix_prefix.mp inside
  have short := comment.last ((List.prefix_append_right_inj front).mpr onLine)
    (ends.trans (List.suffix_append front other))
  have long := ends.length_le
  simp only [List.length_append, List.length_cons, List.length_nil] at short long
  omega

end

theorem Stands.comment_of_isComment (stands : Stands text lexeme)
    (isComment : lexeme.isComment = true) : Comment text lexeme.text.length := by
  cases stands with
  | @blank character rest blank =>
      have dot : character = '.' := by simpa [Lexeme.isComment] using isComment
      rw [dot] at blank
      exact absurd blank (by decide)
  | comment comment => rwa [Lexeme.text, List.length_take_of_le comment.2.1.2.1]
  | token | illegal => cases isComment

theorem Comment.isComment_gap (comment : Comment text length) :
    (Lexeme.gap (text.take length)).isComment = true := by
  obtain ⟨behind, whole⟩ := comment.isComment.begins
  simp [Lexeme.isComment, ← whole]

theorem exists_comment_iff (begins : ['.', '.', '.'] <+: text) :
    (∃ length, Comment text length) ↔ ['.', '.', '.'] <:+: firstLine (text.drop 3) := by
  obtain ⟨body, rfl⟩ := begins
  constructor
  · rintro ⟨length, -, closes, -⟩
    obtain ⟨place, -, ellipsis⟩ := closes_iff.mp closes
    exact ellipsis.isInfix.trans (List.drop_suffix place _).isInfix
  · rintro ⟨passed, later, line⟩
    have closes : Closes (['.', '.', '.'] ++ body) (passed.length + 6) := by
      refine closes_iff.mpr ⟨passed.length, rfl, later, ?_⟩
      change _ = (firstLine (List.drop 3 (['.', '.', '.'] ++ body))).drop passed.length
      rw [← line, List.append_assoc, List.drop_left]
    exact exists_comment_of_closes (List.prefix_append _ body) closes

/-- Where three dots begin no comment, two of them are a symbol. -/
theorem Stands.eq_dots (stands : Stands text lexeme) (begins : ['.', '.', '.'] <+: text)
    (other : lexeme.isComment = false) : lexeme = .token (.symbol .dots) ['.', '.'] := by
  obtain ⟨body, rfl⟩ := begins
  cases stands with
  | blank blank => exact absurd blank (by decide)
  | comment comment =>
      rw [comment.isComment_gap] at other
      cases other
  | token missing munches =>
      cases Extent.opens_dot munches.matches.opens
      obtain ⟨-, rfl⟩ := matches_symbol.mp munches.matches
      rfl
  | illegal printed unmatched =>
      have two : Symbol.dots.text.toList <+: ['.', '.', '.'] ++ body := ⟨'.' :: body, rfl⟩
      exact absurd (matches_symbol.mpr ⟨two, rfl⟩) (unmatched _ _)

theorem Stands.isComment_iff (stands : Stands text lexeme) (begins : ['.', '.', '.'] <+: text) :
    lexeme.isComment = true ↔ ['.', '.', '.'] <:+: firstLine (text.drop 3) := by
  rw [← exists_comment_iff begins]
  constructor
  · intro isComment
    exact ⟨_, stands.comment_of_isComment isComment⟩
  · rintro ⟨length, comment⟩
    rw [stands.unique (.comment comment)]
    exact comment.isComment_gap

/-! ## A space in the place of one comment -/

/-- In front of a space, nothing becomes a comment that goes on behind it, unless there are
three dots. -/
theorem Tight.space (bare : ¬['.', '.', '.'] <:+: firstLine rest) (front : List Char) :
    Tight front (' ' :: rest) := by
  refine .of_isBlank (Or.inl rfl) fun length closes => ?_
  apply Nat.le_of_not_lt
  intro beyond
  obtain ⟨past, rfl⟩ := Nat.exists_eq_add_of_lt beyond
  obtain ⟨-, -, ends, outside⟩ := closes
  rw [Nat.add_assoc, List.take_length_add_append, List.take_succ_cons] at ends outside
  have behind : ['.', '.', '.'] <:+ rest.take past := suffix_of_notMem (by decide) ends
  have onLine : rest.take past <+: firstLine rest := by
    apply prefix_firstLine (List.take_prefix past rest)
    intro member
    simp [member] at outside
  exact bare (behind.isInfix.trans onLine.isInfix)

namespace Lexeme

variable {before after : List Lexeme}

theorem cut_space (found : cut text = before ++ lexeme :: after)
    (isComment : lexeme.isComment = true) :
    cut (before.flatMap Lexeme.text ++ ' ' :: after.flatMap Lexeme.text) =
      before ++ .gap [' '] :: after := by
  have legal := legal_of_cut found
  have earlier := cut_flatMap_text found legal
  obtain ⟨stands, later⟩ := stands_of_cut found
  have bare := (stands.comment_of_isComment isComment).bare_behind
  rw [cut_append (by rwa [earlier]) fun _ other _ _ => .space bare _, earlier,
    cut_of_stands (.blank (Or.inl rfl))]
  exact congrArg (fun lexemes => before ++ Lexeme.gap [' '] :: lexemes) later

/-! ## A space in the place of every comment -/

@[simp] theorem isComment_space : (gap [' ']).isComment = false :=
  rfl

@[simp] theorem uncommented_space : (gap [' ']).uncommented = gap [' '] :=
  rfl

theorem uncommented_of_isComment (isComment : lexeme.isComment = true) :
    lexeme.uncommented = .gap [' '] :=
  if_pos isComment

theorem uncommented_of_not_isComment (other : lexeme.isComment = false) :
    lexeme.uncommented = lexeme :=
  if_neg (by simp [other])

theorem cut_uncommented (text : List Char) :
    cut (((cut text).map uncommented).flatMap Lexeme.text) = (cut text).map uncommented := by
  generalize comments : (cut text).countP Lexeme.isComment = count
  induction count generalizing text with
  | zero =>
      have same : ∀ lexeme ∈ cut text, lexeme.uncommented = lexeme := by
        intro lexeme member
        apply uncommented_of_not_isComment
        simpa using List.countP_eq_zero.mp comments lexeme member
      rw [List.map_congr_left same, List.map_id', flatMap_text_cut]
  | succ count induction =>
      have some : 0 < (cut text).countP Lexeme.isComment := by omega
      obtain ⟨lexeme, member, isComment⟩ := List.countP_pos_iff.mp some
      obtain ⟨before, after, found⟩ := List.append_of_mem member
      have replaced := cut_space found isComment
      have others : (before ++ .gap [' '] :: after).map uncommented =
          (cut text).map uncommented := by
        rw [found]
        simp [uncommented_of_isComment isComment]
      have fewer : (before ++ .gap [' '] :: after).countP Lexeme.isComment = count := by
        rw [found] at comments
        simp only [List.countP_append, List.countP_cons, isComment, isComment_space, ↓reduceIte,
          Bool.false_eq_true] at comments ⊢
        omega
      have known := induction _ (replaced ▸ fewer)
      rwa [replaced, others] at known

end Lexeme

namespace TokenStream

variable {lexemes : List Lexeme}

/-- Comments have no line breaks, so no token moves to another line without them. -/
theorem ofLexemes_uncommented (line : Nat)
    (oneLine : ∀ lexeme ∈ lexemes, lexeme.isComment = true → '\n' ∉ lexeme.text) :
    ofLexemes line (lexemes.map Lexeme.uncommented) = ofLexemes line lexemes := by
  induction lexemes generalizing line with
  | nil => rfl
  | cons lexeme later induction =>
      obtain ⟨first, others⟩ := List.forall_mem_cons.mp oneLine
      have behind (line : Nat) := induction line others
      rw [List.map_cons]
      by_cases isComment : lexeme.isComment = true
      · rw [Lexeme.uncommented_of_isComment isComment]
        cases lexeme with
        | gap text =>
            have none : text.count '\n' = 0 := List.count_eq_zero.mpr (first isComment)
            simp only [ofLexemes, behind, none]
            rfl
        | token | illegal => cases isComment
      · rw [Lexeme.uncommented_of_not_isComment (Bool.eq_false_iff.mpr isComment)]
        cases lexeme <;> simp only [ofLexemes, behind]

theorem ofSource_withoutComments (source : String) :
    ofSource (Lexeme.withoutComments source) = ofSource source := by
  rw [ofSource, ofSource, Lexeme.withoutComments, String.toList_ofList, Lexeme.cut_uncommented]
  apply ofLexemes_uncommented
  intro lexeme member isComment
  obtain ⟨before, after, found⟩ := List.append_of_mem member
  exact ((Lexeme.stands_of_cut found).1.comment_of_isComment isComment).newline_notMem

/-- Between two comments, a line ends. -/
theorem newline_mem_of_comments {before between later : List Lexeme} {other : Lexeme}
    (found : Lexeme.cut text = before ++ lexeme :: (between ++ other :: later))
    (isComment : lexeme.isComment = true) (otherIsComment : other.isComment = true) :
    '\n' ∈ between.flatMap Lexeme.text := by
  obtain ⟨stands, behind⟩ := Lexeme.stands_of_cut found
  have bare := (stands.comment_of_isComment isComment).bare_behind
  obtain ⟨otherStands, -⟩ := Lexeme.stands_of_cut behind
  have second := otherStands.comment_of_isComment otherIsComment
  have shape := second.isComment
  rw [List.take_left] at shape
  apply Classical.byContradiction
  intro outside
  have onLine : between.flatMap Lexeme.text ++ other.text <+:
      firstLine ((between ++ other :: later).flatMap Lexeme.text) := by
    apply prefix_firstLine
    · rw [List.flatMap_append, List.flatMap_cons, ← List.append_assoc]
      exact List.prefix_append _ _
    · rw [List.mem_append, not_or]
      exact ⟨outside, shape.oneLine⟩
  have ends : ['.', '.', '.'] <:+ between.flatMap Lexeme.text ++ other.text :=
    shape.ends.trans (List.suffix_append _ other.text)
  exact bare (ends.isInfix.trans onLine.isInfix)

/-- With a space in the place of each comment, a source has the same tokens on the same
lines, or the same fault.  A comment ends at the last three dots of its line, so no line has
two; three dots without others behind them on the line are not passed over. -/
theorem tokenize_withoutComments (source : String) :
    (Reader.ofSource (Lexeme.withoutComments source)).tokenize.1 =
        (Reader.ofSource source).tokenize.1 ∧
      ∀ before lexeme after, Lexeme.cut source.toList = before ++ lexeme :: after →
        (lexeme.isComment = true → IsComment lexeme.text ∧
          (∀ front, front <+: lexeme.text ++ firstLine (after.flatMap Lexeme.text) →
            ['.', '.', '.'] <:+ front → front.length ≤ lexeme.text.length) ∧
          ¬['.', '.', '.'] <:+: firstLine (after.flatMap Lexeme.text) ∧
          ∀ between other later, after = between ++ other :: later →
            other.isComment = true → '\n' ∈ between.flatMap Lexeme.text) ∧
        (['.', '.', '.'] <+: lexeme.text ++ after.flatMap Lexeme.text →
          ¬['.', '.', '.'] <:+:
            firstLine ((lexeme.text ++ after.flatMap Lexeme.text).drop 3) →
          lexeme = .token (.symbol .dots) ['.', '.']) := by
  have read (text : String) : (Reader.ofSource text).tokenize.1 = (ofSource text).complete := rfl
  refine ⟨by rw [read, read, ofSource_withoutComments], ?_⟩
  intro before lexeme after found
  have stands := (Lexeme.stands_of_cut found).1
  constructor
  · intro isComment
    have comment := stands.comment_of_isComment isComment
    refine ⟨?_, fun front => comment.last, comment.bare_behind, ?_⟩
    · have shape := comment.isComment
      rwa [List.take_left] at shape
    · rintro between other later rfl
      exact newline_mem_of_comments found isComment
  · intro begins bare
    refine stands.eq_dots begins (Bool.eq_false_iff.mpr fun isComment => bare ?_)
    exact (stands.isComment_iff begins).mp isComment

/-- A comment with an accent and a dot too many, four dots that are none, and a comment on
the last line. -/
theorem tokenize_withoutComments_dots :
    (Reader.ofSource (Lexeme.withoutComments "xs ...é.... y1\n....\n...z...")).tokenize.1 =
        .ok [⟨.ident, "xs", 1⟩, ⟨.ident, "y1", 1⟩, ⟨.symbol .dots, "..", 2⟩,
          ⟨.symbol .dots, "..", 2⟩] ∧
      (IsComment "...é....".toList ∧ ¬['.', '.', '.'] <:+: " y1".toList ∧
        '\n' ∈ " y1\n....\n".toList) ∧
      Lexeme.token (.symbol .dots) "..".toList = .token (.symbol .dots) ['.', '.'] := by
  have read : (Reader.ofSource "xs ...é.... y1\n....\n...z...").tokenize.1 =
      .ok [⟨.ident, "xs", 1⟩, ⟨.ident, "y1", 1⟩, ⟨.symbol .dots, "..", 2⟩,
        ⟨.symbol .dots, "..", 2⟩] := by
    decide
  have found : Lexeme.cut "xs ...é.... y1\n....\n...z...".toList =
      [.token .ident "xs".toList, .gap [' ']] ++ .gap "...é....".toList ::
        ([.gap [' '], .token .ident "y1".toList, .gap ['\n'],
          .token (.symbol .dots) "..".toList, .token (.symbol .dots) "..".toList,
          .gap ['\n']] ++ .gap "...z...".toList :: []) := by
    decide
  have row : Lexeme.cut "xs ...é.... y1\n....\n...z...".toList =
      [.token .ident "xs".toList, .gap [' '], .gap "...é....".toList, .gap [' '],
        .token .ident "y1".toList, .gap ['\n']] ++ .token (.symbol .dots) "..".toList ::
        [.token (.symbol .dots) "..".toList, .gap ['\n'], .gap "...z...".toList] := by
    decide
  obtain ⟨same, lexemes⟩ := tokenize_withoutComments "xs ...é.... y1\n....\n...z..."
  obtain ⟨shape, -, bare, between⟩ := (lexemes _ _ _ found).1 rfl
  refine ⟨same.trans read, ⟨shape, bare, between _ _ _ rfl rfl⟩, ?_⟩
  exact (lexemes _ _ _ row).2 (by decide) (by decide)

end TokenStream

end SheetLang
