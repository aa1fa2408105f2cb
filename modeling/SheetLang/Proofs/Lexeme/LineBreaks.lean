import Mathlib.Algebra.Ring.Nat
import SheetLang.Proofs.Lexeme.Seams

/-!
# Texts in front of line breaks

Neither a token nor a comment has a line break in it.  So the rules for a text do not
depend on what comes behind a line break, and cutting does not, either: the lexemes of
two texts with a line break between them are those of the one, the line break, and those
of the other.
-/

namespace SheetLang

open Shape

variable {text rest : List Char} {kind : Token.Kind} {length : Nat} {lexeme : Lexeme}

/-! ## Rules -/

theorem newline_notMem_of_admits (admits : kind.admits text = true) : '\n' ∉ text := by
  intro member
  by_cases info : kind = .info
  · subst info
    have shape : Shape.info text = true := admits
    obtain ⟨body, rfl, inside⟩ := info_iff.mp shape
    have between : '\n' ∈ body := by simpa using member
    cases inside '\n' between
  · exact not_isBlank_of_mem admits info member (Or.inr (Or.inr rfl))

theorem matches_append_newline_iff :
    Matches (text ++ '\n' :: rest) kind length ↔ Matches text kind length := by
  constructor
  · intro matching
    have within := le_length_of_notMem (newline_notMem_of_admits matching.2.2)
    exact (matches_append_iff within).mp matching
  · exact Matches.append

theorem Tight.newline (text rest : List Char) : Tight text ('\n' :: rest) :=
  .of_isBlank (Or.inr (Or.inr rfl)) fun _ closes => le_length_of_notMem closes.2.2.2

/-- A lexeme stands where it stands also in front of a line break. -/
theorem Stands.append_newline (stands : Stands text lexeme) (legal : lexeme.illegal? = none) :
    Stands (text ++ '\n' :: rest) lexeme :=
  (Tight.newline text rest).stands_append stands legal

/-- Where no lexeme starts, none starts with a line break further on, either. -/
theorem Stands.illegal_append_newline {character : Char} {tail : List Char}
    (stands : Stands text (.illegal character tail)) :
    Stands (text ++ '\n' :: rest) (.illegal character (tail ++ '\n' :: rest)) := by
  cases stands with
  | illegal visible unmatched =>
      refine .illegal visible fun kind length matching => unmatched kind length ?_
      exact matches_append_newline_iff.mp matching

/-! ## Cutting -/

namespace Lexeme

variable {before after : List Lexeme}

theorem cut_front_append_newline (found : cut text = before ++ after)
    (legal : ∀ lexeme ∈ before, lexeme.illegal? = none) (rest : List Char) :
    cut (text ++ '\n' :: rest) = before ++ cut (after.flatMap Lexeme.text ++ '\n' :: rest) := by
  induction before generalizing text with
  | nil =>
      rw [List.nil_append] at found
      rw [List.nil_append, ← found, flatMap_text_cut]
  | cons lexeme before induction =>
      obtain ⟨first, others⟩ := List.forall_mem_cons.mp legal
      obtain ⟨stands, whole, behind⟩ := cut_eq_cons found
      rw [cut_of_stands (stands.append_newline first), ← whole, List.append_assoc,
        List.drop_left, induction behind others]
      rfl

theorem cut_append_newline (legal : ∀ lexeme ∈ cut text, lexeme.illegal? = none)
    (rest : List Char) :
    cut (text ++ '\n' :: rest) = cut text ++ .gap ['\n'] :: cut rest := by
  rw [cut_append legal fun _ later _ _ => .newline _ rest]
  exact congrArg _ (cut_of_stands (.blank (Or.inr (Or.inr rfl))))

/-- Where no lexeme starts, a line break further on does not help. -/
theorem cut_append_newline_of_illegal {character : Char} {tail : List Char}
    (found : cut text = before ++ .illegal character tail :: after)
    (legal : ∀ lexeme ∈ before, lexeme.illegal? = none) (rest : List Char) :
    ∃ more, cut (text ++ '\n' :: rest) = before ++ [.illegal character more] := by
  have stands := (stands_iff_of_cut found).mpr rfl
  have whole := flatMap_text_cut text
  rw [found, List.flatMap_append] at whole
  rw [← whole, List.drop_left] at stands
  refine ⟨tail ++ '\n' :: rest, ?_⟩
  rw [cut_front_append_newline found legal, cut_of_stands stands.illegal_append_newline,
    stands.eq_cons_of_illegal]
  simp [Lexeme.text, cut, cutAfter]

/-- The line breaks of a lexeme are those of its text. -/
theorem lineBreaks_of_stands (stands : Stands text lexeme) (legal : lexeme.illegal? = none) :
    lexeme.lineBreaks = lexeme.text.count '\n' := by
  cases stands with
  | blank | comment => rfl
  | token missing munches =>
      have outside := newline_notMem_of_admits munches.matches.2.2
      exact (List.count_eq_zero.mpr outside).symm
  | illegal => cases legal

theorem sum_lineBreaks_cut (legal : ∀ lexeme ∈ cut text, lexeme.illegal? = none) :
    ((cut text).map lineBreaks).sum = text.count '\n' := by
  have counted : ∀ lexeme ∈ cut text, lexeme.lineBreaks = lexeme.text.count '\n' := by
    intro lexeme member
    obtain ⟨before, after, found⟩ := List.append_of_mem member
    exact lineBreaks_of_stands ((stands_iff_of_cut found).mpr rfl) (legal lexeme member)
  calc
    ((cut text).map lineBreaks).sum =
        ((cut text).map fun lexeme => lexeme.text.count '\n').sum := by
      rw [List.map_congr_left counted]
    _ = ((cut text).flatMap Lexeme.text).count '\n' := List.count_flatMap.symm
    _ = text.count '\n' := by rw [flatMap_text_cut]

theorem sum_lineBreaks_front {before after : List Lexeme} (found : cut text = before ++ after)
    (legal : ∀ lexeme ∈ before, lexeme.illegal? = none) :
    (before.map lineBreaks).sum = (before.flatMap Lexeme.text).count '\n' := by
  have own := cut_flatMap_text found legal
  rw [← sum_lineBreaks_cut (by rwa [own]), own]

end Lexeme

end SheetLang
