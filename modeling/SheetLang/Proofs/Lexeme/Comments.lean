import SheetLang.Lexeme.Rules
import SheetLang.Proofs.Lexeme.Runs

/-!
# Comments

The search for the last three dots of a line finds a comment where there is one, and
the longest.
-/

namespace SheetLang

open Extent

variable {text body : List Char} {place length : Nat}

theorem no_ellipsis_of_lastEllipsis? (missing : lastEllipsis? text = none) (other : Nat) :
    ¬['.', '.', '.'] <+: text.drop other := by
  induction text generalizing other with
  | nil => simp
  | cons head rest induction =>
      unfold lastEllipsis? at missing
      split at missing
      · cases missing
      case h_2 later =>
        split at missing
        · cases missing
        case h_2 elsewhere =>
          cases other with
          | zero =>
              intro ellipsis
              obtain ⟨behind, whole⟩ := ellipsis
              cases whole
              exact elsewhere behind rfl rfl
          | succ other => exact induction later other

theorem ellipsis_of_lastEllipsis? (found : lastEllipsis? text = some place) :
    ['.', '.', '.'] <+: text.drop place ∧
      ∀ other, ['.', '.', '.'] <+: text.drop other → other ≤ place := by
  induction text generalizing place with
  | nil => cases found
  | cons head rest induction =>
      unfold lastEllipsis? at found
      split at found
      case h_1 later =>
        cases found
        obtain ⟨ellipsis, last⟩ := induction later
        constructor
        · exact ellipsis
        · intro other starts
          cases other with
          | zero => exact Nat.zero_le _
          | succ other => exact Nat.succ_le_succ (last other starts)
      case h_2 later =>
        split at found
        case h_1 behind =>
          cases found
          constructor
          · exact ⟨behind, rfl⟩
          · intro other starts
            cases other with
            | zero => exact Nat.le_refl 0
            | succ other => exact absurd starts (no_ellipsis_of_lastEllipsis? later other)
        · cases found

/-- Behind the first three dots, a comment may end where three dots end before the
line does. -/
theorem closes_iff :
    Closes ('.' :: '.' :: '.' :: body) length ↔
      ∃ place, length = place + 6 ∧
        ['.', '.', '.'] <+: (body.takeWhile (· != '\n')).drop place := by
  constructor
  · intro closes
    obtain ⟨long, within, ends, line⟩ := closes
    obtain ⟨place, rfl⟩ := Nat.exists_eq_add_of_le' long
    simp only [List.length_cons] at within
    rw [show place + 6 = place + 3 + 1 + 1 + 1 from rfl] at ends line
    simp only [List.take_succ_cons] at ends line
    have inside : place + 3 ≤ run (· != '\n') body := by
      apply le_run (by omega)
      intro character member
      have other : character ≠ '\n' := by
        intro same
        rw [same] at member
        exact line (by simp [member])
      simpa using other
    have ending := List.suffix_iff_eq_drop.mp ends
    simp only [List.length_cons, List.length_nil, List.length_take,
      Nat.min_eq_left (show place + 3 ≤ body.length by omega)] at ending
    rw [show place + 3 + 1 + 1 + 1 - (0 + 1 + 1 + 1) = place + 1 + 1 + 1 by omega] at ending
    simp only [List.drop_succ_cons] at ending
    refine ⟨place, rfl, ?_⟩
    rw [ending, take_of_le_run inside, List.drop_take]
    exact List.take_prefix _ _
  · intro found
    obtain ⟨place, rfl, starts⟩ := found
    have size := starts.length_le
    have short := run_le (· != '\n') body
    have reaches : place + 3 ≤ run (· != '\n') body := by
      simp only [List.length_drop, List.length_cons, List.length_nil] at size
      unfold run
      omega
    have taken : ('.' :: '.' :: '.' :: body).take (place + 6) =
        '.' :: '.' :: '.' :: (body.takeWhile (· != '\n')).take (place + 3) := by
      rw [← take_of_le_run reaches]
      rfl
    have ending := List.prefix_iff_eq_take.mp starts
    constructor
    · exact Nat.le_add_left 6 place
    constructor
    · simp only [List.length_cons]
      omega
    rw [taken]
    constructor
    · have suffix := List.drop_suffix place ((body.takeWhile (· != '\n')).take (place + 3))
      rw [List.drop_take, Nat.add_sub_cancel_left] at suffix
      rw [ending]
      exact suffix.trans (List.suffix_append ['.', '.', '.'] _)
    · intro member
      have inside : '\n' ∈ body.takeWhile (· != '\n') :=
        List.mem_of_mem_take (by simpa using member)
      rw [← take_run] at inside
      cases accept_of_mem_take_run inside

/-- No dots begin a comment where their line has no later three. -/
theorem no_comment_of_lastEllipsis?
    (missing : lastEllipsis? (body.takeWhile (· != '\n')) = none) :
    ¬Comment ('.' :: '.' :: '.' :: body) length := by
  intro comment
  obtain ⟨-, closes, -⟩ := comment
  obtain ⟨place, -, starts⟩ := closes_iff.mp closes
  exact no_ellipsis_of_lastEllipsis? missing place starts

theorem comment_of_lastEllipsis?
    (found : lastEllipsis? (body.takeWhile (· != '\n')) = some place) :
    Comment ('.' :: '.' :: '.' :: body) (place + 6) := by
  obtain ⟨starts, last⟩ := ellipsis_of_lastEllipsis? found
  constructor
  · exact ⟨body, rfl⟩
  constructor
  · exact closes_iff.mpr ⟨place, rfl, starts⟩
  · intro other closes
    obtain ⟨later, rfl, ellipsis⟩ := closes_iff.mp closes
    exact Nat.add_le_add_right (last later ellipsis) 6

end SheetLang
