import SheetLang.Proofs.Cursor.Pieces
import SheetLang.Proofs.Parser.Calls

/-!
# Cursors answer as readers do

A cursor follows a reader of lexemes through every sequence of calls.  It never breaks off,
and every note on its way is in order, so that its two ways of keeping the place agree
wherever it comes.
-/

namespace SheetLang

open Reader (byteSize)

variable {cursor middle after : Cursor} {reader : Reader} {head : Char}
  {rest passed text : List Char}

/-- What a lexeme on a line comes to. -/
def Lexeme.found (line : Nat) : Lexeme → Scan.Piece
  | gap _ => .ok none
  | token kind text => .ok (some ⟨kind, String.ofList text, line⟩)
  | illegal character _ => .error (.lexical character line)

/-- A cursor that is in step is where a reader is. -/
structure Cursor.Follows (cursor : Cursor) (reader : Reader) : Prop where
  holds : ∃ text, cursor.Holds text
  agrees : cursor.Agrees reader

/-- What is left to a reader that is followed are lexemes of a text. -/
theorem Cursor.Follows.exists_cut (follows : cursor.Follows reader) :
    ∃ text, reader.pending = Lexeme.cut text := by
  rw [follows.agrees.pending]
  split
  · exact ⟨[], rfl⟩
  · exact ⟨cursor.left, rfl⟩

/-- A reader that has an item left is followed by a cursor that found no fault and has characters
left. -/
theorem Cursor.Follows.open_of_next {item : Except Fault Token} (follows : cursor.Follows reader)
    (found : reader.next.1 = some item) : cursor.failed = false ∧ cursor.left ≠ [] := by
  have some : reader.pending ≠ [] := by
    intro none
    rw [Reader.next, none, Reader.nextFrom] at found
    cases found
  rw [follows.agrees.pending] at some
  constructor
  · cases failed : cursor.failed with
    | false => rfl
    | true =>
        rw [failed] at some
        exact absurd rfl some
  · intro none
    rw [none] at some
    exact some (by split <;> rfl)

theorem Cursor.follows_ofSource (source : String) :
    (Cursor.ofSource source).Follows (.ofSource source) :=
  ⟨⟨[], holds_ofSource source⟩, rfl, rfl, fun _ => rfl, rfl⟩

namespace Reader

/-- Behind a fault there is nothing left to pass over. -/
theorem finishFrom_of_error {fault : Fault} (text : List Char) :
    ∀ line start offset, (nextFrom line start offset (Lexeme.cut text)).1 = some (.error fault) →
      finishFrom line start offset (Lexeme.cut text) =
        (nextFrom line start offset (Lexeme.cut text)).2 := by
  apply Lexeme.cut_induction (motive := fun lexemes => ∀ line start offset,
    (nextFrom line start offset lexemes).1 = some (.error fault) →
      finishFrom line start offset lexemes = (nextFrom line start offset lexemes).2)
  case empty =>
    intro line start offset read
    cases read
  case gap =>
    intro gap later induction line start offset read
    exact induction _ _ _ read
  case token =>
    intro kind word later induction line start offset read
    cases read
  case illegal =>
    intro character tail line start offset read
    rfl

theorem finish_of_error {fault : Fault} (cut : reader.pending = Lexeme.cut text)
    (read : reader.next.1 = some (.error fault)) : reader.finish = reader.next.2 := by
  rw [next, cut] at read ⊢
  rw [finish, cut]
  exact finishFrom_of_error text _ _ _ read

theorem finish_of_none (ended : reader.next.1 = none) : reader.finish = reader.next.2 := by
  have read : reader.next.2.pending = [] := reader.pending_next (by simp [ended])
  rw [← finish_next (by simp [ended]), finish_of_pending read]

end Reader

namespace Scan

/-! ## Pieces -/

theorem passes_piece_of_behind (holds : cursor.Holds []) (left : cursor.left = head :: rest)
    (ahead : passed <+: rest) {found : Piece} {lines : Nat}
    (scan : Passes (behind head) (cursor.past [head]) found
      (((cursor.past [head]).past passed).down lines)) :
    Passes piece cursor found ((cursor.past (head :: passed)).down lines) := by
  obtain ⟨later, rfl⟩ := ahead
  rw [Cursor.past_past] at scan
  have whole : cursor.left = head :: passed ++ later := left
  have behind : (cursor.past (head :: passed)).left = later := Cursor.left_past_of_append whole
  have progress : (Note.piece cursor ((cursor.past (head :: passed)).down lines)).Sound
      cursor.source :=
    ⟨head :: passed, List.cons_ne_nil _ _, whole.trans (congrArg _ behind.symm)⟩
  exact .bind (passes_here cursor) (.bind (passes_advance holds left)
    (.bind scan (.bind (passes_here _) (.bind (passes_note progress) (.pure _ _)))))

/-- A piece is what its lexeme comes to, and is read to its end unless nothing starts there. -/
theorem passes_piece (holds : cursor.Holds []) (left : cursor.left = head :: rest) :
    ∃ passed, passed <+: rest ∧
      ((Lexeme.first head rest).1.illegal? = none →
        head :: passed = (Lexeme.first head rest).1.text) ∧
      Passes piece cursor ((Lexeme.first head rest).1.found cursor.line)
        ((cursor.past (head :: passed)).down (Lexeme.first head rest).1.lineBreaks) := by
  have next : [head] <+: cursor.left := ⟨rest, left.symm⟩
  have finds := finds_behind (holds.past next)
  rw [left_past_cons left] at finds
  unfold Lexeme.first
  generalize Extent.of? head rest = extent at finds
  cases finds with
  | @token kind _ passed ahead length scan =>
      subst length
      rw [left_past_cons left] at ahead
      have word := List.prefix_iff_eq_take.mp ahead
      refine ⟨passed, ahead, fun _ => congrArg (head :: ·) word, ?_⟩
      dsimp only [Extent.token]
      rw [← word]
      exact passes_piece_of_behind holds left ahead scan
  | @skip _ passed ahead length scan =>
      subst length
      rw [left_past_cons left] at ahead
      have word := List.prefix_iff_eq_take.mp ahead
      refine ⟨passed, ahead, fun _ => congrArg (head :: ·) word, ?_⟩
      dsimp only [Extent.skip]
      rw [← word]
      exact passes_piece_of_behind holds left ahead scan
  | illegal ahead scan =>
      rw [left_past_cons left] at ahead
      exact ⟨_, ahead, nofun, passes_piece_of_behind holds left ahead scan⟩

/-! ## Items -/

theorem passes_nextRound (holds : cursor.Holds text) (left : cursor.left = head :: rest)
    {found : Piece} {round : ForInStep (Option (Except Fault Token))}
    (read : Passes piece cursor.begun found middle)
    (settled : Passes (settle found) middle round after) :
    Passes nextRound cursor round after := by
  refine .bind (passes_here cursor) ?_
  rw [left]
  exact .bind (passes_here cursor) (.bind (passes_moveTo rfl holds.begun) (read.bind settled))

/-- Gaps are passed over in rounds up to the next item, and every round takes characters.  The
induction is on the number of characters that are left: behind a gap there are fewer. -/
theorem loops_next (holds : cursor.Holds text) (sound : cursor.failed = false) :
    let read := Reader.nextFrom cursor.line cursor.start cursor.offset (Lexeme.cut cursor.left)
    ∃ after, Loops (fun _ => nextRound) cursor none read.1 after ∧ after.Follows read.2 ∧
      after.left.length ≤ cursor.left.length ∧
      (cursor.left ≠ [] → after.left.length < cursor.left.length) := by
  induction size : cursor.left.length using Nat.strongRecOn generalizing cursor text with
  | ind size induction =>
      subst size
      cases left : cursor.left with
      | nil =>
          refine ⟨cursor, .done (.bind (passes_here cursor) ?_),
            ⟨⟨text, holds⟩, rfl, rfl, fun _ => rfl, ?_⟩, ?_, absurd rfl⟩
          · rw [left]
            exact .pure _ _
          · rw [sound, left]
            rfl
          · rw [left]
      | cons head rest =>
          obtain ⟨passed, ahead, whole, scan⟩ := passes_piece holds.begun left
          have split : cursor.left =
              (Lexeme.first head rest).1.text ++ rest.drop (Lexeme.first head rest).2 := by
            rw [left, Lexeme.text_first, List.cons_append, List.take_append_drop]
          have word : head :: passed <+: cursor.begun.left := by
            change head :: passed <+: cursor.left
            rw [left]
            exact List.cons_prefix_cons.mpr ⟨rfl, ahead⟩
          have held := holds.begun.past word
          have shorter : (cursor.past (head :: passed)).left.length < cursor.left.length := by
            obtain ⟨later, all⟩ := word
            exact length_left_past all.symm (List.cons_ne_nil _ _)
          rw [Lexeme.cut_cons]
          generalize Lexeme.first head rest = found at *
          obtain ⟨lexeme, more⟩ := found
          have behind (legal : lexeme.illegal? = none) :
              (cursor.past (head :: passed)).left = rest.drop more := by
            rw [whole legal]
            exact Cursor.left_past_of_append split
          dsimp only at *
          cases lexeme with
          | gap gap =>
              obtain rfl : head :: passed = gap := whole rfl
              obtain ⟨after, loops, follows, less, -⟩ :=
                induction _ shorter (held.down ((head :: passed).count '\n')) sound rfl
              have fewer := Nat.lt_of_le_of_lt less shorter
              rw [← behind rfl, ← left]
              exact ⟨after, .yield (passes_nextRound holds left scan (.pure _ _)) shorter loops,
                follows, fewer.le, fun _ => fewer⟩
          | token kind word =>
              obtain rfl : head :: passed = word := whole rfl
              rw [← behind rfl, ← left]
              refine ⟨_, .done (passes_nextRound holds left scan (.pure _ _)),
                ⟨⟨_, held⟩, rfl, rfl, fun _ => rfl, ?_⟩, shorter.le, fun _ => shorter⟩
              exact (if_neg (sound ▸ Bool.false_ne_true)).symm
          | illegal character tail =>
              rw [← left]
              refine ⟨_, .done (passes_nextRound holds left scan ?_),
                ⟨⟨_, held.stopped⟩, rfl, rfl, nofun, rfl⟩, shorter.le, fun _ => shorter⟩
              exact .bind (passes_here _) (.bind (passes_moveTo rfl held.stopped) (.pure _ _))

/-- The next item is that of the reader, and asking for it takes characters as long as there
are some and no fault was found. -/
theorem passes_next (follows : cursor.Follows reader) :
    ∃ after, Passes next cursor reader.next.1 after ∧ after.Follows reader.next.2 ∧
      after.left.length ≤ cursor.left.length ∧
      (cursor.failed = false → cursor.left ≠ [] → after.left.length < cursor.left.length) := by
  obtain ⟨⟨text, holds⟩, agrees⟩ := follows
  have pending := agrees.pending
  cases failed : cursor.failed with
  | true =>
      rw [failed, if_pos rfl] at pending
      have ended : reader.next = (none, reader) := by
        rw [Reader.next, pending, Reader.nextFrom, ← pending]
      rw [ended]
      refine ⟨cursor, .bind (passes_here cursor) ?_, ⟨⟨text, holds⟩, agrees⟩, Nat.le_refl _, nofun⟩
      rw [failed]
      exact .pure _ _
  | false =>
      rw [failed, if_neg Bool.false_ne_true] at pending
      obtain ⟨after, loops, follows, less, takes⟩ := loops_next holds failed
      rw [Reader.next, pending, ← agrees.line, ← agrees.start, ← agrees.offset failed]
      refine ⟨after, .bind (passes_here cursor) ?_, follows, less, fun _ => takes⟩
      rw [failed]
      exact loops.passes

/-! ## Calls -/

theorem loops_tokenize (follows : cursor.Follows reader) (read : List Token) :
    ∃ after, Loops tokenizeRound cursor (.ok read)
        (TokenStream.complete ⟨read ++ reader.stream.tokens, reader.stream.fault⟩) after ∧
      after.Follows reader.finish := by
  induction size : cursor.left.length using Nat.strongRecOn generalizing cursor reader read with
  | ind size induction =>
      subst size
      obtain ⟨middle, scan, later, -, takes⟩ := passes_next follows
      have stream := reader.stream_eq_next
      cases found : reader.next.1 with
      | none =>
          have next : reader.next = (none, reader.next.2) := Prod.ext found rfl
          rw [found] at scan
          rw [next] at stream
          rw [stream, Reader.finish_of_none found, List.append_nil]
          exact ⟨middle, .done (scan.bind (.pure _ _)), later⟩
      | some item =>
          have next : reader.next = (some item, reader.next.2) := Prod.ext found rfl
          rw [found] at scan
          rw [next] at stream
          cases item with
          | ok token =>
              obtain ⟨sound, some⟩ := follows.open_of_next found
              have shorter := takes sound some
              obtain ⟨after, loops, last⟩ := induction _ shorter later (read ++ [token]) rfl
              rw [Reader.finish_next (by simp [found])] at last
              rw [List.append_assoc, List.singleton_append] at loops
              rw [stream]
              exact ⟨after, .yield (scan.bind (.pure _ _)) shorter loops, last⟩
          | error fault =>
              obtain ⟨text, cut⟩ := follows.exists_cut
              rw [stream, Reader.finish_of_error cut found]
              exact ⟨middle, .done (scan.bind (.pure _ _)), later⟩

/-- A call is answered as by the reader. -/
theorem passes_answer (follows : cursor.Follows reader) (call : Reader.Call) :
    ∃ after, Passes (answer call) cursor (reader.answer call).1 after ∧
      after.Follows (reader.answer call).2 := by
  cases call with
  | next =>
      obtain ⟨after, scan, later, -⟩ := passes_next follows
      exact ⟨after, scan.bind (.pure _ _), later⟩
  | line =>
      refine ⟨cursor, .bind (passes_here cursor) ?_, follows⟩
      rw [follows.agrees.line]
      exact .pure _ _
  | tokenize =>
      obtain ⟨after, loops, later⟩ := loops_tokenize follows []
      exact ⟨after, loops.passes.bind (.pure _ _), later⟩

/-- So are calls one after the other. -/
theorem passes_answers (follows : cursor.Follows reader) (calls : List Reader.Call) :
    ∃ after, Passes (answers calls) cursor (reader.answers calls) after ∧
      after.Follows (reader.after calls) := by
  induction calls generalizing cursor reader with
  | nil => exact ⟨cursor, .pure _ _, follows⟩
  | cons call calls induction =>
      obtain ⟨middle, first, later⟩ := passes_answer follows call
      obtain ⟨after, others, last⟩ := induction later
      exact ⟨after, first.bind (others.bind (.pure _ _)), last⟩

end Scan

end SheetLang
