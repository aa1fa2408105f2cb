import SheetLang.Lexeme

/-!
# Runs of characters

A run is as long as the characters of a text are accepted.  It is split off the front
of the text exactly where the characters before are accepted and the next one is not.
-/

namespace SheetLang.Extent

variable {accept : Char → Bool} {text front back : List Char}

theorem run_le (accept : Char → Bool) (text : List Char) : run accept text ≤ text.length :=
  (List.takeWhile_prefix accept).length_le

theorem take_run (accept : Char → Bool) (text : List Char) :
    text.take (run accept text) = text.takeWhile accept :=
  (List.prefix_iff_eq_take.mp (List.takeWhile_prefix accept)).symm

theorem take_of_le_run {length : Nat} (within : length ≤ run accept text) :
    text.take length = (text.takeWhile accept).take length := by
  rw [← take_run, List.take_take, Nat.min_eq_left within]

theorem accept_of_mem_take_run {character : Char}
    (member : character ∈ text.take (run accept text)) : accept character = true := by
  rw [take_run] at member
  have inside : (text.takeWhile accept).all accept = true := List.all_takeWhile
  exact List.all_eq_true.mp inside character member

@[simp] theorem run_nil (accept : Char → Bool) : run accept [] = 0 := rfl

theorem run_cons (accept : Char → Bool) (head : Char) (rest : List Char) :
    run accept (head :: rest) = if accept head then run accept rest + 1 else 0 := by
  unfold run
  rw [List.takeWhile_cons]
  split
  · rfl
  · rfl

theorem run_append (inside : ∀ character ∈ front, accept character = true)
    (outside : ∀ character ∈ back.head?, accept character = false) :
    run accept (front ++ back) = front.length := by
  induction front with
  | nil =>
      cases back with
      | nil => rfl
      | cons head rest =>
          rw [List.nil_append, run_cons, outside head rfl]
          rfl
  | cons head rest induction =>
      rw [List.cons_append, run_cons, inside head List.mem_cons_self]
      have later := induction fun character member =>
        inside character (List.mem_cons_of_mem _ member)
      simpa using later

theorem takeWhile_append (inside : ∀ character ∈ front, accept character = true)
    (outside : ∀ character ∈ back.head?, accept character = false) :
    (front ++ back).takeWhile accept = front := by
  rw [← take_run, run_append inside outside, List.take_left]

theorem dropWhile_append (inside : ∀ character ∈ front, accept character = true)
    (outside : ∀ character ∈ back.head?, accept character = false) :
    (front ++ back).dropWhile accept = back := by
  have whole : (front ++ back).takeWhile accept ++ (front ++ back).dropWhile accept =
      front ++ back := List.takeWhile_append_dropWhile
  rw [takeWhile_append inside outside] at whole
  exact List.append_cancel_left whole

theorem le_run {length : Nat} (within : length ≤ text.length)
    (inside : ∀ character ∈ text.take length, accept character = true) :
    length ≤ run accept text := by
  induction text generalizing length with
  | nil => exact within
  | cons head rest induction =>
      cases length with
      | zero => exact Nat.zero_le _
      | succ length =>
          rw [List.take_succ_cons] at inside
          rw [run_cons, inside head List.mem_cons_self]
          apply Nat.succ_le_succ
          apply induction (Nat.le_of_succ_le_succ within)
          intro character member
          exact inside character (List.mem_cons_of_mem _ member)

theorem all_take_iff {length : Nat} (within : length ≤ text.length) :
    (text.take length).all accept = true ↔ length ≤ run accept text := by
  constructor
  · intro inside
    exact le_run within (List.all_eq_true.mp inside)
  · intro reach
    apply List.all_eq_true.mpr
    intro character member
    exact accept_of_mem_take_run (List.take_subset_take_left text reach member)

theorem run_of_take {length : Nat} (within : length ≤ text.length)
    (taken : text.take length = front ++ back) (nonempty : back ≠ [])
    (inside : ∀ character ∈ front, accept character = true)
    (outside : ∀ character ∈ back.head?, accept character = false) :
    run accept text = front.length ∧ length = front.length + back.length ∧
      text.drop (run accept text) = back ++ text.drop length := by
  have whole : text = front ++ (back ++ text.drop length) := by
    rw [← List.append_assoc, ← taken, List.take_append_drop]
  have reached : run accept text = front.length := by
    rw [whole]
    apply run_append inside
    obtain ⟨next, later, rfl⟩ := List.exists_cons_of_ne_nil nonempty
    exact outside
  constructor
  · exact reached
  constructor
  · have size := congrArg List.length taken
    rw [List.length_take, Nat.min_eq_left within, List.length_append] at size
    exact size
  · have behind := congrArg (List.drop front.length) whole
    rw [List.drop_left] at behind
    rw [reached]
    exact behind

end SheetLang.Extent
