import SheetLang.Proofs.Lexeme.Adequacy

/-!
# Fronts of texts

What the rules say of the front of a text does not depend on the text behind it, as long
as they stay within the front.  So the lexemes in front of a place where a lexeme begins
are those of the text up to there, although numbers and comments look further.
-/

namespace SheetLang

variable {front back text : List Char} {kind : Token.Kind} {length : Nat} {lexeme : Lexeme}

/-! ## Rules -/

theorem matches_append_iff (within : length ≤ front.length) :
    Matches (front ++ back) kind length ↔ Matches front kind length := by
  have reaches := @Nat.le_add_right_of_le _ _ back.length within
  simp [Matches, List.take_append_of_le_length within, within, reaches]

theorem Matches.append (matching : Matches front kind length) :
    Matches (front ++ back) kind length :=
  (matches_append_iff matching.2.1).mpr matching

theorem closes_append_iff (within : length ≤ front.length) :
    Closes (front ++ back) length ↔ Closes front length := by
  have reaches := @Nat.le_add_right_of_le _ _ back.length within
  simp [Closes, List.take_append_of_le_length within, within, reaches]

theorem Closes.append (closes : Closes front length) : Closes (front ++ back) length :=
  (closes_append_iff closes.2.1).mpr closes

/-- Where some comment could be, there is a longest one. -/
theorem exists_comment_of_closes (begins : ['.', '.', '.'] <+: text) (closes : Closes text length) :
    ∃ longest, Comment text longest := by
  obtain ⟨body, rfl⟩ := begins
  obtain ⟨place, -, ellipsis⟩ := closes_iff.mp closes
  cases found : Extent.lastEllipsis? (body.takeWhile (· != '\n')) with
  | none => exact absurd ellipsis (no_ellipsis_of_lastEllipsis? found place)
  | some last => exact ⟨last + 6, comment_of_lastEllipsis? found⟩

theorem Comment.of_append (comment : Comment (front ++ back) length)
    (within : length ≤ front.length) : Comment front length := by
  obtain ⟨begins, closes, longest⟩ := comment
  have long : 3 ≤ front.length := by
    have enough := closes.1
    omega
  refine ⟨?_, (closes_append_iff within).mp closes, ?_⟩
  · exact List.prefix_of_prefix_length_le begins (List.prefix_append front back) long
  · intro other closesOther
    exact longest other closesOther.append

theorem not_comment_of_append (missing : ∀ length, ¬Comment (front ++ back) length) :
    ¬Comment front length := by
  intro comment
  obtain ⟨begins, closes, -⟩ := comment
  obtain ⟨longest, found⟩ :=
    exists_comment_of_closes (begins.trans (List.prefix_append front back)) closes.append
  exact missing longest found

theorem Munches.of_append (munches : Munches (front ++ back) kind length)
    (within : length ≤ front.length) : Munches front kind length := by
  cases munches with
  | notEqual unequal =>
      exact .notEqual (List.prefix_of_prefix_length_le unequal (List.prefix_append _ _) within)
  | longest plain wins =>
      refine .longest (fun unequal => plain ?_) ⟨?_, ?_, ?_⟩
      · exact unequal.trans (List.prefix_append front back)
      · exact (matches_append_iff within).mp wins.matching
      · intro other size matching
        exact wins.longest other size matching.append
      · intro other matching
        exact wins.preferred other matching.append

theorem Stands.of_append (stands : Stands (front ++ back) lexeme) (legal : lexeme.illegal? = none)
    (within : lexeme.text.length ≤ front.length) : Stands front lexeme := by
  generalize whole : front ++ back = text at stands
  cases stands with
  | blank blank =>
      cases front with
      | nil => cases within
      | cons head front =>
          cases whole
          exact .blank blank
  | @comment _ length comment =>
      have short : length ≤ front.length := by
        simpa [Lexeme.text, Nat.min_eq_left comment.2.1.2.1] using within
      subst whole
      rw [List.take_append_of_le_length short]
      exact .comment (comment.of_append short)
  | @token _ kind length missing munches =>
      have short : length ≤ front.length := by
        simpa [Lexeme.text, Nat.min_eq_left munches.matches.2.1] using within
      subst whole
      rw [List.take_append_of_le_length short]
      exact .token (fun _ => not_comment_of_append missing) (munches.of_append short)
  | illegal => cases legal

/-! ## Cutting -/

namespace Lexeme

variable {before after later : List Lexeme}

/-- The first lexeme stands at the front, and the others are those of the text behind. -/
theorem cut_eq_cons (found : cut text = lexeme :: later) :
    Stands text lexeme ∧ lexeme.text ++ later.flatMap Lexeme.text = text ∧
      cut (later.flatMap Lexeme.text) = later := by
  have stands : Stands text lexeme :=
    (@stands_iff_of_cut text lexeme [] later lexeme found).mpr rfl
  have whole : lexeme.text ++ later.flatMap Lexeme.text = text := by
    rw [← List.flatMap_cons, ← found, flatMap_text_cut]
  have behind : cut (later.flatMap Lexeme.text) = later := by
    simpa [← whole] using @cut_drop text [lexeme] later found
  exact ⟨stands, whole, behind⟩

/-- The lexemes in front of others are those of their own text. -/
theorem cut_flatMap_text (found : cut text = before ++ after)
    (legal : ∀ lexeme ∈ before, lexeme.illegal? = none) :
    cut (before.flatMap Lexeme.text) = before := by
  induction before generalizing text with
  | nil => rfl
  | cons lexeme before induction =>
      obtain ⟨first, others⟩ := List.forall_mem_cons.mp legal
      rw [List.cons_append] at found
      obtain ⟨stands, whole, behind⟩ := cut_eq_cons found
      rw [← whole, List.flatMap_append, ← List.append_assoc] at stands
      have within : lexeme.text.length ≤ (lexeme.text ++ before.flatMap Lexeme.text).length := by
        rw [List.length_append]
        exact Nat.le_add_right _ _
      rw [List.flatMap_cons, cut_of_stands (stands.of_append first within), List.drop_left,
        induction behind others]

end Lexeme

end SheetLang
