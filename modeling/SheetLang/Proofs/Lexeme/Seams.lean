import SheetLang.Proofs.Lexeme.Fronts
import SheetLang.Proofs.Lexeme.Legibility

/-!
# Where two texts meet

The lexemes of a text stay the same with another one behind it, if no token and no comment
goes on from the one into the other.  Info strings need not be looked at: they end with a
mark that they do not have before.
-/

namespace SheetLang

variable {front back text rest word : List Char} {kind : Token.Kind} {length : Nat}
  {lexeme : Lexeme}

/-! ## Marks between two texts -/

/-- The front of a text has the mark behind a part of it, unless it ends in that part. -/
theorem le_length_of_notMem {mark : Char} (outside : mark ∉ (text ++ mark :: rest).take length) :
    length ≤ text.length := by
  apply Nat.le_of_not_lt
  intro beyond
  obtain ⟨past, rfl⟩ := Nat.exists_eq_add_of_lt beyond
  rw [Nat.add_assoc, List.take_length_add_append, List.take_succ_cons] at outside
  exact outside (by simp)

/-- What a text ends with is behind all marks that it does not have. -/
theorem suffix_of_notMem {mark : Char} (outside : mark ∉ word)
    (ends : word <:+ text ++ mark :: rest) : word <:+ rest := by
  cases List.suffix_or_suffix_of_suffix ends (List.suffix_append text (mark :: rest)) with
  | inl inside =>
      cases List.suffix_cons_iff.mp inside with
      | inl same => exact absurd (same ▸ List.mem_cons_self) outside
      | inr behind => exact behind
  | inr around => exact absurd (around.subset List.mem_cons_self) outside

/-! ## Tight texts -/

/-- No token goes on from one text into the other, info strings apart, and no comment
does. -/
structure Tight (front back : List Char) : Prop where
  matching : ∀ kind length, kind ≠ .info → Matches (front ++ back) kind length →
    length ≤ front.length
  closing : ∀ length, ['.', '.', '.'] <+: front ++ back → Closes (front ++ back) length →
    length ≤ front.length

/-- In front of a blank, only comments have to be looked at. -/
theorem Tight.of_isBlank {blank : Char} (isBlank : IsBlank blank)
    (closing : ∀ length, Closes (front ++ blank :: rest) length → length ≤ front.length) :
    Tight front (blank :: rest) where
  matching _ _ plain matching := le_length_of_notMem fun inside =>
    not_isBlank_of_mem matching.2.2 plain inside isBlank
  closing length _ closes := closing length closes

namespace Tight

variable (tight : Tight front back)

include tight

theorem matches_of_append (plain : kind ≠ .info) (matching : Matches (front ++ back) kind length) :
    Matches front kind length :=
  (matches_append_iff (tight.matching kind length plain matching)).mp matching

theorem comment_of_append (comment : Comment (front ++ back) length) : Comment front length :=
  comment.of_append (tight.closing length comment.1 comment.2.1)

theorem comment_append (comment : Comment front length) : Comment (front ++ back) length := by
  obtain ⟨begins, closes, longest⟩ := comment
  have opened : ['.', '.', '.'] <+: front ++ back := begins.trans (List.prefix_append front back)
  refine ⟨opened, closes.append, ?_⟩
  intro other further
  have within := tight.closing other opened further
  exact longest other ((closes_append_iff within).mp further)

theorem notEqual_of_append (unequal : ['!', '='] <+: front ++ back) : ['!', '='] <+: front := by
  have matching : Matches (front ++ back) (.symbol .notEqual) 2 := matches_symbol.mpr ⟨unequal, rfl⟩
  exact (matches_symbol.mp (tight.matches_of_append (by simp) matching)).1

/-- Info strings are found at the same place, and other tokens are not longer. -/
theorem wins_append (plain : ¬['!', '='] <+: front) (wins : Wins front kind length) :
    Wins (front ++ back) kind length := by
  have info {other : Token.Kind} {size : Nat} (same : other = .info)
      (matching : Matches (front ++ back) other size) : kind = .info ∧ size = length := by
    subst same
    have mine : Matches (front ++ back) kind length := wins.matching.append
    obtain rfl | rfl := opens_exclamation_iff.mp (matching.opens_of_info mine)
    · exact ⟨rfl, matching.info_length mine⟩
    · exact absurd (matches_symbol.mp wins.matching).1 plain
  refine ⟨wins.matching.append, ?_, ?_⟩
  · intro other size matching
    by_cases same : other = .info
    · exact Nat.le_of_eq (info same matching).2
    · exact wins.longest other size (tight.matches_of_append same matching)
  · intro other matching
    by_cases same : other = .info
    · exact Or.inl (same.trans (info same matching).1.symm)
    · exact wins.preferred other (tight.matches_of_append same matching)

theorem munches_append (munches : Munches front kind length) :
    Munches (front ++ back) kind length := by
  cases munches with
  | notEqual unequal => exact .notEqual (unequal.trans (List.prefix_append front back))
  | longest plain wins =>
      refine .longest (fun unequal => plain ?_) (tight.wins_append plain wins)
      exact tight.notEqual_of_append unequal

/-- A lexeme stands where it stands also in front of the other text. -/
theorem stands_append (stands : Stands front lexeme) (legal : lexeme.illegal? = none) :
    Stands (front ++ back) lexeme := by
  cases stands with
  | blank isBlank => exact .blank isBlank
  | @comment _ length comment =>
      have within : length ≤ front.length := comment.2.1.2.1
      rw [← List.take_append_of_le_length within]
      exact .comment (tight.comment_append comment)
  | @token _ kind length missing munches =>
      have within : length ≤ front.length := munches.matches.2.1
      rw [← List.take_append_of_le_length within]
      refine .token (fun size comment => missing size ?_) (tight.munches_append munches)
      exact tight.comment_of_append comment
  | illegal => cases legal

end Tight

/-! ## Cutting -/

theorem Stands.eq_cons_of_illegal {character : Char} {tail : List Char}
    (stands : Stands text (.illegal character tail)) : text = character :: tail := by
  cases stands with
  | illegal => rfl

namespace Lexeme

variable {before after : List Lexeme}

theorem stands_of_cut (found : cut text = before ++ lexeme :: after) :
    Stands (lexeme.text ++ after.flatMap Lexeme.text) lexeme ∧
      cut (after.flatMap Lexeme.text) = after := by
  obtain ⟨stands, whole, behind⟩ := cut_eq_cons (cut_drop found)
  exact ⟨whole ▸ stands, behind⟩

/-- Nothing is cut behind a character at which no lexeme starts. -/
theorem legal_of_cut (found : cut text = before ++ lexeme :: after) :
    ∀ earlier ∈ before, earlier.illegal? = none := by
  intro earlier member
  obtain ⟨first, between, rfl⟩ := List.append_of_mem member
  cases earlier with
  | gap | token => rfl
  | illegal character tail =>
      rw [List.append_assoc, List.cons_append] at found
      have stands := (stands_iff_of_cut found).mpr rfl
      have later := cut_drop found
      rw [cut_of_stands stands, stands.eq_cons_of_illegal] at later
      simp [Lexeme.text, cut, cutAfter] at later

/-- Cutting does not look past a tight place. -/
theorem cut_append (legal : ∀ lexeme ∈ cut front, lexeme.illegal? = none)
    (tight : ∀ passed later, cut front = passed ++ later → later ≠ [] →
      Tight (later.flatMap Lexeme.text) back) :
    cut (front ++ back) = cut front ++ cut back := by
  generalize found : cut front = lexemes at legal tight
  induction lexemes generalizing front with
  | nil =>
      have empty := flatMap_text_cut front
      rw [found] at empty
      rw [← empty]
      rfl
  | cons lexeme later induction =>
      obtain ⟨first, others⟩ := List.forall_mem_cons.mp legal
      obtain ⟨stands, whole, behind⟩ := cut_eq_cons found
      have here : Tight front back := by
        rw [← whole]
        exact tight [] (lexeme :: later) rfl (List.cons_ne_nil lexeme later)
      have further := induction behind others fun passed rest split =>
        tight (lexeme :: passed) rest (congrArg _ split)
      rw [cut_of_stands (here.stands_append stands first), ← whole, List.append_assoc,
        List.drop_left, further, List.cons_append]

end Lexeme

end SheetLang
