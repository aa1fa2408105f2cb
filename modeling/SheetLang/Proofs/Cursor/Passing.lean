import SheetLang.Cursor.InStep
import SheetLang.Proofs.Cursor.Bytes

/-!
# Passing over characters

A scan is followed from one cursor to the next.  `Holds` is the invariant: the source is
what stands in front of the piece, the piece so far and the characters that are left, and the
cursor counts the bytes of the first two.  `Passes` says that a scan does not break off, with
notes that are all in order; it is put together along the steps of a scan, and of a loop
along its rounds.
-/

namespace SheetLang

open Reader (byteSize)

variable {cursor middle after : Cursor} {text more front rest : List Char} {character : Char}
  {α β : Type}

/-! ## Cursors -/

namespace Cursor

/-- The cursor has passed over this text since the start of the piece. -/
def Holds (cursor : Cursor) (text : List Char) : Prop :=
  ∃ front, cursor.source.toList = front ++ text ++ cursor.left ∧
    cursor.start = byteSize front ∧ cursor.offset = byteSize front + byteSize text

@[simp] theorem left_past (cursor : Cursor) (text : List Char) :
    (cursor.past text).left = cursor.left.drop text.length := rfl

theorem left_past_of_append (left : cursor.left = text ++ rest) :
    (cursor.past text).left = rest := by
  rw [left_past, left, List.drop_left]

theorem past_past (cursor : Cursor) (text more : List Char) :
    (cursor.past text).past more = cursor.past (text ++ more) := by
  simp [past, Nat.add_assoc]

theorem ahead_append (ahead : text <+: cursor.left) (behind : more <+: (cursor.past text).left) :
    text ++ more <+: cursor.left := by
  obtain ⟨rest, left⟩ := ahead
  rw [left_past, ← left, List.drop_left] at behind
  rw [← left]
  exact (List.prefix_append_right_inj text).mpr behind

@[simp] theorem down_zero (cursor : Cursor) : cursor.down 0 = cursor := rfl

theorem holds_ofSource (source : String) : (ofSource source).Holds [] :=
  ⟨[], rfl, rfl, rfl⟩

namespace Holds

theorem past (holds : cursor.Holds text) (ahead : more <+: cursor.left) :
    (cursor.past more).Holds (text ++ more) := by
  obtain ⟨front, whole, started, counted⟩ := holds
  refine ⟨front, ?_, started, ?_⟩
  · obtain ⟨behind, ahead⟩ := ahead
    simp [Cursor.past, whole, ← ahead]
  · rw [byteSize_append, ← Nat.add_assoc, ← counted]
    rfl

theorem begun (holds : cursor.Holds text) : cursor.begun.Holds [] := by
  obtain ⟨front, whole, -, counted⟩ := holds
  refine ⟨front ++ text, ?_, ?_, ?_⟩
  · rw [List.append_nil]
    exact whole
  · rw [byteSize_append]
    exact counted
  · rw [byteSize_append]
    exact counted

theorem down (holds : cursor.Holds text) (lines : Nat) : (cursor.down lines).Holds text :=
  holds

theorem stopped (holds : cursor.Holds text) : cursor.stopped.Holds text :=
  holds

theorem inStep (holds : cursor.Holds text) : cursor.InStep cursor.source := by
  obtain ⟨front, whole, started, counted⟩ := holds
  rw [← byteSize_append] at counted
  refine ⟨rfl, ?_, ?_, ?_, ?_, ?_⟩
  · rw [started, counted, byteSize_append]
    exact Nat.le_add_right _ _
  · rw [counted, ← byteSize_toList, whole, byteSize_append (front ++ text)]
    exact Nat.le_add_right _ _
  · rw [started]
    exact isValid_of_append (whole.trans (List.append_assoc front text cursor.left))
  · rw [counted]
    exact isValid_of_append whole
  · rw [counted]
    exact between?_of_suffix whole

theorem between?_eq (holds : cursor.Holds text) :
    between? cursor.source cursor.start cursor.offset = some (String.ofList text) := by
  obtain ⟨front, whole, started, counted⟩ := holds
  rw [started, counted]
  exact between?_of_append whole

theorem between?_start (holds : cursor.Holds text) :
    between? cursor.source cursor.start cursor.source.utf8ByteSize =
      some (String.ofList (text ++ cursor.left)) := by
  obtain ⟨front, whole, started, -⟩ := holds
  rw [started]
  exact between?_of_suffix (whole.trans (List.append_assoc front text cursor.left))

theorem width?_eq (holds : cursor.Holds text) : cursor.width? = some (byteSize text) := by
  obtain ⟨front, -, started, counted⟩ := holds
  rw [Cursor.width?, started, counted, if_pos (Nat.le_add_right _ _), Nat.add_sub_cancel_left]

end Holds

end Cursor

namespace Scan

variable {scan : Scan α} {next : α → Scan β} {value : α} {result : β}

/-! ## Steps -/

/-- A scan leads from one cursor to another and gives a value, and all the notes that it
takes are in order. -/
structure Passes (scan : Scan α) (before : Cursor) (value : α) (after : Cursor) : Prop where
  source : after.source = before.source
  run : ∀ notes, ∃ more, scan ⟨before, notes⟩ = some (value, ⟨after, notes ++ more⟩) ∧
    ∀ note ∈ more, note.Sound before.source

theorem bind_eq (scan : Scan α) (next : α → Scan β) (way : Way) :
    (scan >>= next) way = (scan way).bind fun result => next result.1 result.2 :=
  rfl

namespace Passes

theorem pure (value : α) (cursor : Cursor) : Passes (pure value) cursor value cursor := by
  refine ⟨rfl, fun notes => ⟨[], ?_, ?_⟩⟩
  · rw [List.append_nil]
    rfl
  · intro note member
    cases member

theorem bind (first : Passes scan cursor value middle)
    (second : Passes (next value) middle result after) :
    Passes (scan >>= next) cursor result after := by
  refine ⟨second.source.trans first.source, fun notes => ?_⟩
  obtain ⟨more, one, sound⟩ := first.run notes
  obtain ⟨others, two, later⟩ := second.run (notes ++ more)
  refine ⟨more ++ others, ?_, ?_⟩
  · rw [bind_eq, one, Option.bind_some, two, List.append_assoc]
  · intro note member
    rcases List.mem_append.mp member with here | behind
    · exact sound note here
    · rw [← first.source]
      exact later note behind

end Passes

theorem passes_here (cursor : Cursor) : Passes here cursor cursor cursor := by
  refine ⟨rfl, fun notes => ⟨[], ?_, ?_⟩⟩
  · rw [List.append_nil]
    rfl
  · intro note member
    cases member

theorem passes_note {taken : Note} (sound : taken.Sound cursor.source) :
    Passes (note taken) cursor () cursor :=
  ⟨rfl, fun _ => ⟨[taken], rfl, by simpa using sound⟩⟩

theorem passes_moveTo (source : after.source = cursor.source) (holds : after.Holds text) :
    Passes (moveTo after) cursor () after := by
  have sound : (Note.point after).Sound cursor.source := source ▸ holds.inStep
  exact ⟨source, fun _ => ⟨[.point after], rfl, by simpa using sound⟩⟩

theorem passes_require {found : Option α} (present : found = some value) (cursor : Cursor) :
    Passes (require found) cursor value cursor := by
  subst present
  refine ⟨rfl, fun notes => ⟨[], ?_, ?_⟩⟩
  · rw [List.append_nil]
    rfl
  · intro note member
    cases member

/-! ## Single characters -/

theorem passes_advance (holds : cursor.Holds text) (left : cursor.left = character :: rest) :
    Passes advance cursor (some character) (cursor.past [character]) := by
  have ahead : [character] <+: cursor.left := ⟨rest, left.symm⟩
  refine .bind (passes_here cursor) ?_
  rw [left]
  exact .bind (passes_moveTo rfl (holds.past ahead)) (.pure _ _)

theorem passes_advanceIf {accept : Char → Bool} (holds : cursor.Holds text)
    (left : cursor.left = character :: rest) (accepted : accept character = true) :
    Passes (advanceIf accept) cursor (some character) (cursor.past [character]) := by
  refine .bind (passes_here cursor) ?_
  rw [left]
  dsimp only
  rw [if_pos accepted]
  exact passes_advance holds left

theorem passes_advanceIf_none {accept : Char → Bool}
    (refused : ∀ character ∈ cursor.left.head?, accept character = false) :
    Passes (advanceIf accept) cursor none cursor := by
  refine .bind (passes_here cursor) ?_
  cases left : cursor.left with
  | nil => exact .pure none cursor
  | cons character rest =>
      rw [left] at refused
      dsimp only
      rw [refused character rfl, if_neg Bool.false_ne_true]
      exact .pure none cursor

/-! ## Loops -/

/-- A loop comes to its end through rounds of which every one but the last passes over a
character. -/
inductive Loops (round : β → Scan (ForInStep β)) : Cursor → β → β → Cursor → Prop where
  | done {before after : Cursor} {state result : β} :
      Passes (round state) before (.done result) after → Loops round before state result after
  | yield {before middle after : Cursor} {state next result : β} :
      Passes (round state) before (.yield next) middle →
      middle.left.length < before.left.length → Loops round middle next result after →
      Loops round before state result after

variable {round : β → Scan (ForInStep β)} {state : β}

theorem Loops.passes_rounds (loops : Loops round cursor state result after) {bound : Nat}
    (enough : cursor.left.length < bound) :
    Passes (rounds round bound state) cursor result after := by
  induction loops generalizing bound with
  | done last =>
      obtain ⟨bound, rfl⟩ := Nat.exists_eq_add_of_lt enough
      exact .bind last (.pure _ _)
  | yield first shorter _ induction =>
      obtain ⟨bound, rfl⟩ := Nat.exists_eq_add_of_lt enough
      refine .bind first (induction ?_)
      omega

/-- A loop that gets on does not break off. -/
theorem Loops.passes (loops : Loops round cursor state result after) :
    Passes (loop round state) cursor result after :=
  .bind (passes_here cursor) (loops.passes_rounds (Nat.lt_succ_self _))

theorem length_left_past (left : cursor.left = text ++ rest) (some : text ≠ []) :
    (cursor.past text).left.length < cursor.left.length := by
  rw [Cursor.left_past_of_append left, left, List.length_append]
  exact Nat.lt_add_of_pos_left (List.length_pos_iff.mpr some)

theorem left_past_cons (left : cursor.left = character :: rest) :
    (cursor.past [character]).left = rest :=
  Cursor.left_past_of_append left

/-- All the characters of a run are passed over, and the one behind it is not. -/
theorem passes_advanceWhile (holds : cursor.Holds text) (accept : Char → Bool) :
    Passes (advanceWhile accept) cursor ()
      (cursor.past (cursor.left.takeWhile fun character =>
        character != '\n' && accept character)) := by
  apply Loops.passes
  generalize left : cursor.left = rest
  induction rest generalizing cursor text with
  | nil =>
      refine .done (.bind (passes_advanceIf_none ?_) (.pure _ _))
      rw [left]
      intro character member
      cases member
  | cons character rest induction =>
      cases accepted : character != '\n' && accept character with
      | true =>
          have ahead : [character] <+: cursor.left := ⟨rest, left.symm⟩
          have later := induction (holds.past ahead) (left_past_cons left)
          rw [Cursor.past_past] at later
          rw [List.takeWhile_cons, accepted]
          exact .yield (.bind (passes_advanceIf holds left accepted) (.pure _ _))
            (length_left_past left (List.cons_ne_nil _ _)) later
      | false =>
          rw [List.takeWhile_cons, accepted]
          refine .done (.bind (passes_advanceIf_none ?_) (.pure _ _))
          rw [left]
          intro other same
          cases same
          exact accepted

theorem loops_approach {count : Cursor → Option Nat} {base : Nat} (holds : cursor.Holds text)
    (ahead : more <+: cursor.left)
    (counts : ∀ front, front <+: more → count (cursor.past front) = some (base + byteSize front)) :
    Loops (fun _ => approach count (base + byteSize more)) cursor () () (cursor.past more) := by
  generalize whole : base + byteSize more = target
  induction more generalizing cursor text base with
  | nil =>
      have here := counts [] (List.prefix_refl [])
      refine .done (.bind (passes_here cursor) (.bind (passes_require here cursor) ?_))
      rw [whole, if_neg (Nat.lt_irrefl target)]
      exact .pure _ _
  | cons character more induction =>
      obtain ⟨behind, left⟩ := ahead
      have here := counts [] List.nil_prefix
      have short : base + byteSize [] < target := by
        have positive := character.utf8Size_pos
        rw [← whole, byteSize_cons, byteSize_nil]
        omega
      have passed : [character] <+: cursor.left := ⟨more ++ behind, left⟩
      have shorter : (cursor.past [character]).left.length < cursor.left.length :=
        length_left_past left.symm (List.cons_ne_nil _ _)
      have further : ∀ front, front <+: more →
          count ((cursor.past [character]).past front) =
            some (base + character.utf8Size + byteSize front) := by
        intro front inside
        rw [Cursor.past_past, Nat.add_assoc, ← byteSize_cons]
        exact counts _ (List.cons_prefix_cons.mpr ⟨rfl, inside⟩)
      have later := induction (holds.past passed)
        ⟨behind, (left_past_cons left.symm).symm⟩ further
        (by rw [← whole, byteSize_cons, Nat.add_assoc])
      rw [Cursor.past_past] at later
      refine .yield (.bind (passes_here cursor) (.bind (passes_require here cursor) ?_))
        shorter later
      rw [if_pos short]
      exact .bind (passes_advance holds left.symm) (.pure _ _)

/-- A loop that is to go on to a number of bytes ends there, if they are the bytes of
characters that are left. -/
theorem passes_skip {count : Cursor → Option Nat} {base : Nat} (holds : cursor.Holds text)
    (ahead : more <+: cursor.left)
    (counts : ∀ front, front <+: more → count (cursor.past front) = some (base + byteSize front)) :
    Passes (skip count (base + byteSize more)) cursor () (cursor.past more) := by
  have last := counts more (List.prefix_refl more)
  refine .bind (loops_approach holds ahead counts).passes ?_
  exact .bind (passes_here _) (.bind (passes_require last _) (passes_note rfl))

/-- Behind such a loop the count of bytes is the target, and the cursor is in step. -/
theorem skip_reaches {count : Cursor → Option Nat} {base : Nat} (holds : cursor.Holds text)
    (ahead : more <+: cursor.left)
    (counts : ∀ front, front <+: more → count (cursor.past front) = some (base + byteSize front))
    (notes : List Note) :
    ∃ way, skip count (base + byteSize more) ⟨cursor, notes⟩ = some ((), way) ∧
      count way.cursor = some (base + byteSize more) ∧ way.cursor.InStep cursor.source := by
  obtain ⟨_, run, -⟩ := (passes_skip holds ahead counts).run notes
  exact ⟨_, run, counts more (List.prefix_refl more), (holds.past ahead).inStep⟩

end Scan

end SheetLang
