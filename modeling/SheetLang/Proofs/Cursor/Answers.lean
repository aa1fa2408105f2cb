import SheetLang.Proofs.Cursor.Calls
import SheetLang.Parser.Statement

/-!
# Answers and what becomes of them

A source has at most as many items as characters, each of them comes with one answer only,
and the text within the marks of an info string can be cut out of it.
-/

namespace SheetLang

open Reader (byteSize)

variable {reader : Reader} {token : Token}

/-! ## Items -/

theorem Lexeme.length_cutAfter_le (passed : Nat) (text : List Char) :
    (cutAfter passed text).length ≤ text.length := by
  induction text generalizing passed with
  | nil => cases passed <;> exact Nat.le_refl _
  | cons head rest induction =>
      cases passed with
      | zero => exact Nat.succ_le_succ (induction _)
      | succ passed => exact Nat.le_succ_of_le (induction passed)

theorem TokenStream.length_items_le (line : Nat) (lexemes : List Lexeme) :
    (ofLexemes line lexemes).items.length ≤ lexemes.length := by
  induction lexemes generalizing line with
  | nil => exact Nat.le_refl _
  | cons lexeme later induction =>
      cases lexeme with
      | gap text => exact Nat.le_succ_of_le (induction _)
      | token kind text => exact Nat.succ_le_succ (induction line)
      | illegal character rest => exact Nat.succ_le_succ (Nat.zero_le _)

/-- A source has at most as many items as characters. -/
theorem TokenStream.length_items_ofSource_le (source : String) :
    (ofSource source).items.length ≤ source.length := by
  calc
    (ofSource source).items.length
    _ ≤ (Lexeme.cut source.toList).length := length_items_le 1 _
    _ ≤ source.toList.length := Lexeme.length_cutAfter_le 0 _
    _ = source.length := String.length_toList

namespace Reader

theorem sublist_items_complete (stream : TokenStream) :
    (Answer.tokens stream.complete).items.Sublist stream.items := by
  obtain ⟨tokens, fault⟩ := stream
  cases fault with
  | none => exact List.sublist_append_left _ _
  | some fault => exact List.sublist_append_right _ _

/-- What comes with an answer is not left behind it. -/
theorem sublist_items_answer (reader : Reader) (call : Call) :
    ((reader.answer call).1.items ++ (reader.answer call).2.stream.items).Sublist
      reader.stream.items := by
  rw [items_answer]
  cases call with
  | next =>
      rw [answer_next]
      generalize reader.stream.items = items
      cases items with
      | nil => exact .refl _
      | cons item later => exact .refl _
  | line => exact .refl _
  | tokenize =>
      rw [answer_tokenize, left, if_pos (List.mem_singleton_self _), List.append_nil]
      exact sublist_items_complete _

/-- Every item comes with one answer at most. -/
theorem sublist_items_answers (reader : Reader) (calls : List Call) :
    ((reader.answers calls).flatMap Answer.items).Sublist reader.stream.items := by
  induction calls generalizing reader with
  | nil => exact List.nil_sublist _
  | cons call calls induction =>
      have later := induction (reader.answer call).2
      calc
        ((reader.answers (call :: calls)).flatMap Answer.items).Sublist
          ((reader.answer call).1.items ++ (reader.answer call).2.stream.items) :=
            List.Sublist.append_left later _
        List.Sublist _ reader.stream.items := sublist_items_answer reader call

/-- After as many requests as a source has characters, nothing is left. -/
theorem next_after_replicate (source : String) (calls : List Call) :
    ((ofSource source).after (calls ++ .replicate source.length .next)).next.1 = none := by
  rw [next_eq_head?, items_after, left]
  split
  · rfl
  · rw [List.head?_drop, List.getElem?_eq_none]
    rw [List.count_append, List.count_replicate_self]
    exact (TokenStream.length_items_ofSource_le source).trans (Nat.le_add_left _ _)

end Reader

/-! ## Info strings -/

/-- The text of an info string without its first and its last byte is what the parser takes
from it. -/
theorem between?_info {source : String} (member : token ∈ (TokenStream.ofSource source).tokens)
    (kind : token.kind = .info) :
    ∃ content, between? token.text 1 (token.text.utf8ByteSize - 1) = some content ∧
      ∀ rest, Parser.optionalInfo (token :: rest) = .ok (some content, rest) := by
  have admits := (TokenStream.legible_of_mem member).1
  obtain ⟨_, text, line⟩ := token
  subst kind
  obtain ⟨body, whole, -⟩ := Shape.info_iff.mp admits
  have apart : text.toList = ['!'] ++ body ++ ['!'] := whole
  have size : text.utf8ByteSize - 1 = byteSize ['!'] + byteSize body := by
    rw [← byteSize_toList, apart, byteSize_append, byteSize_append]
    exact Nat.add_sub_cancel _ _
  refine ⟨String.ofList body, ?_, fun rest => ?_⟩
  · dsimp only
    rw [size]
    exact between?_of_append apart
  · have inside : (text.toList.drop 1).dropLast = body := by
      rw [whole, List.cons_append, List.drop_one, List.tail_cons, List.dropLast_concat]
    simp [-bind_pure_comp, Parser.optionalInfo, ← inside]

/-! ## Any calls -/

/-- Behind any calls, asking for the next item takes at least one character, as long as there
are some and no fault was found. -/
theorem Scan.next_takes (source : String) (calls : List Reader.Call) :
    ∃ way later,
      Scan.answers calls (.ofSource source) =
        some ((Reader.ofSource source).answers calls, way) ∧
      Scan.next way = some (((Reader.ofSource source).after calls).next.1, later) ∧
      later.cursor.left.length ≤ way.cursor.left.length ∧
      (way.cursor.failed = false → way.cursor.left ≠ [] →
        later.cursor.left.length < way.cursor.left.length) := by
  obtain ⟨middle, passes, follows⟩ := passes_answers (Cursor.follows_ofSource source) calls
  obtain ⟨more, run, -⟩ := passes.run [.point (.ofSource source)]
  obtain ⟨after, step, -, less, takes⟩ := passes_next follows
  obtain ⟨_, next, -⟩ := step.run ([.point (.ofSource source)] ++ more)
  exact ⟨_, _, run, next, less, takes⟩

/-- A cursor answers all calls as the reader of lexemes does.  It does not break off, so that
no text is cut within a character or beyond its end and every loop ends; the two ways of
keeping the place agree wherever it comes; loops that go on to a number of bytes end there;
and every piece that is read takes a character.  There are at most as many items as
characters, and of every info string the parser takes the text within the marks. -/
theorem Scan.answers_inStep (source : String) (calls : List Reader.Call) :
    (∃ way, Scan.answers calls (.ofSource source) =
          some ((Reader.ofSource source).answers calls, way) ∧
        way.cursor.InStep source ∧
        way.cursor.Agrees ((Reader.ofSource source).after calls) ∧
        ∀ note ∈ way.notes, note.Sound source) ∧
      (((Reader.ofSource source).answers calls).flatMap Reader.Answer.items).length ≤
          source.length ∧
      ((Reader.ofSource source).after
          (calls ++ .replicate source.length .next)).next.1 = none ∧
      ∀ token ∈ (TokenStream.ofSource source).tokens, token.kind = .info →
        ∃ content, between? token.text 1 (token.text.utf8ByteSize - 1) = some content ∧
          ∀ rest, Parser.optionalInfo (token :: rest) = .ok (some content, rest) := by
  refine ⟨?_, ?_, Reader.next_after_replicate source calls, fun _ => between?_info⟩
  · obtain ⟨after, passes, ⟨_, holds⟩, agrees⟩ :=
      passes_answers (Cursor.follows_ofSource source) calls
    obtain ⟨more, run, sound⟩ := passes.run [.point (.ofSource source)]
    refine ⟨_, run, ?_, agrees, ?_⟩
    · rw [← show after.source = source from passes.source]
      exact holds.inStep
    · intro note member
      rcases List.mem_cons.mp member with rfl | later
      · exact (Cursor.holds_ofSource source).inStep
      · exact sound note later
  · exact (Reader.sublist_items_answers _ calls).length_le.trans
      (TokenStream.length_items_ofSource_le source)

/-- A comment and an info string with a letter of two bytes, and a name in capitals. -/
theorem Scan.answers_inStep_accents :
    (∃ way, Scan.answers [.next, .line, .tokenize] (.ofSource "... é ...\nAB12 !é!") =
          some ([.item (some (.ok ⟨.coordinate, "AB12", 2⟩)), .line 2,
            .tokens (.ok [⟨.info, "!é!", 2⟩])], way) ∧
        ∀ note ∈ way.notes, note.Sound "... é ...\nAB12 !é!") ∧
      ∃ content, between? "!é!" 1 3 = some content ∧
        ∀ rest, Parser.optionalInfo (⟨.info, "!é!", 2⟩ :: rest) = .ok (some content, rest) := by
  obtain ⟨⟨way, run, -, -, sound⟩, -, -, info⟩ :=
    answers_inStep "... é ...\nAB12 !é!" [.next, .line, .tokenize]
  exact ⟨⟨way, run, sound⟩, info ⟨.info, "!é!", 2⟩ (by decide) rfl⟩

end SheetLang
