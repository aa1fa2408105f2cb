import SheetLang.Proofs.Lexeme.Fronts
import SheetLang.Proofs.TokenStream.Layout
import SheetLang.Proofs.TokenStream.LineBreaks
import SheetLang.TokenStream.Partition

/-!
# Sources are partitioned by their tokens

Where every lexeme is a gap or a token, the tokens partition the source, and every line
is the number of line breaks passed so far.  A source with a fault is partitioned up to
the character at fault, as it would be if it ended there.
-/

namespace SheetLang

variable {text passed gap rest : List Char} {tokens : List Token} {line : Nat}

/-! ## Gaps -/

theorem IsGap.append (before : IsGap gap) (behind : IsGap rest) : IsGap (gap ++ rest) := by
  induction before with
  | empty => exact behind
  | blank blank _ induction => exact .blank blank induction
  | comment comment _ induction =>
      rw [List.append_assoc]
      exact .comment comment induction

theorem Comment.isComment {length : Nat} (comment : Comment text length) :
    IsComment (text.take length) := by
  obtain ⟨begins, ⟨enough, within, ends, oneLine⟩, -⟩ := comment
  have size : (text.take length).length = length := List.length_take_of_le within
  refine ⟨size.symm ▸ enough, ?_, ends, oneLine⟩
  refine List.prefix_of_prefix_length_le begins (List.take_prefix length text) ?_
  rw [size]
  exact Nat.le_trans (by decide) enough

theorem Stands.isGap (stands : Stands text (.gap gap)) : IsGap gap := by
  cases stands with
  | blank blank => exact .blank blank .empty
  | comment comment =>
      have only := IsGap.comment comment.isComment .empty
      rwa [List.append_nil] at only

theorem Stands.newline_notMem {kind : Token.Kind} {word : List Char}
    (stands : Stands text (.token kind word)) : '\n' ∉ word := by
  cases stands with
  | token _ munches => exact newline_notMem_of_admits munches.matches.2.2

/-! ## Lines -/

theorem lineBehind_append (passed text : List Char) :
    lineBehind (passed ++ text) = lineBehind passed + text.count '\n' := by
  rw [lineBehind, List.count_append, ← Nat.add_assoc, lineBehind]

theorem lineBehind_append_of_notMem (outside : '\n' ∉ text) :
    lineBehind (passed ++ text) = lineBehind passed := by
  rw [lineBehind_append, List.count_eq_zero.mpr outside, Nat.add_zero]

namespace TokenStream

/-! ## Sources without a fault -/

theorem Partition.skip (isGap : IsGap gap) (partition : Partition (passed ++ gap) tokens text) :
    Partition passed tokens (gap ++ text) := by
  generalize before : passed ++ gap = all at partition
  cases partition with
  | gap later => exact .gap (isGap.append later)
  | @token _ between _ token tokens later outside line others =>
      subst before
      rw [← List.append_assoc, ← List.append_assoc]
      refine .token (isGap.append later) outside ?_ ?_
      · rw [line, List.append_assoc]
      · rwa [← List.append_assoc passed]

theorem Partition.front {kind : Token.Kind} {word : List Char} (outside : '\n' ∉ word)
    (partition : Partition (passed ++ word) tokens text) :
    Partition passed (⟨kind, String.ofList word, lineBehind passed⟩ :: tokens) (word ++ text) := by
  have first : Partition passed (⟨kind, String.ofList word, lineBehind passed⟩ :: tokens)
      ([] ++ (String.ofList word).toList ++ text) := by
    refine .token .empty ?_ ?_ ?_
    · rwa [String.toList_ofList]
    · rw [List.append_nil]
    · rwa [List.append_nil, String.toList_ofList]
  rwa [List.nil_append, String.toList_ofList] at first

theorem partition_ofLexemes {lexemes : List Lexeme} (found : Lexeme.cut text = lexemes)
    (legal : ∀ lexeme ∈ lexemes, lexeme.illegal? = none) (passed : List Char) :
    Partition passed (ofLexemes (lineBehind passed) lexemes).tokens text := by
  induction lexemes generalizing text passed with
  | nil =>
      have empty := Lexeme.flatMap_text_cut text
      rw [found] at empty
      exact .gap (empty ▸ .empty)
  | cons lexeme later induction =>
      obtain ⟨first, others⟩ := List.forall_mem_cons.mp legal
      obtain ⟨stands, whole, behind⟩ := Lexeme.cut_eq_cons found
      have below := induction behind others (passed ++ lexeme.text)
      rw [← whole]
      cases lexeme with
      | gap gap =>
          rw [lineBehind_append] at below
          exact below.skip stands.isGap
      | token kind word =>
          have outside : '\n' ∉ word := stands.newline_notMem
          rw [Lexeme.text, lineBehind_append_of_notMem outside] at below
          exact below.front outside
      | illegal character tail => cases first

theorem partition_ofSource {source : String} (sound : (ofSource source).fault = none) :
    Partition [] (ofSource source).tokens source.toList :=
  partition_ofLexemes rfl (fault_ofLexemes_eq_none_iff.mp sound) []

/-! ## Sources with a fault -/

/-- A source with a fault has the tokens of the text in front of it. -/
theorem exists_front_of_fault {source : String} {fault : Fault}
    (faulty : (ofSource source).fault = some fault) :
    ∃ front character back, source.toList = front ++ character :: back ∧
      fault = .lexical character (lineBehind front) ∧
      ofSource (String.ofList front) = ⟨(ofSource source).tokens, none⟩ := by
  obtain ⟨before, character, tail, after, split, legal⟩ := exists_illegal_of_fault faulty
  have lexemes := Lexeme.cut_flatMap_text split legal
  have breaks := Lexeme.sum_lineBreaks_front split legal
  have stream : ofSource source =
      ⟨(ofLexemes 1 before).tokens,
        some (.lexical character (lineBehind (before.flatMap Lexeme.text)))⟩ := by
    rw [ofSource, split, ofLexemes_append legal, breaks]
    simp [ofLexemes, lineBehind]
  refine ⟨before.flatMap Lexeme.text, character, tail ++ after.flatMap Lexeme.text, ?_, ?_, ?_⟩
  · have whole := Lexeme.flatMap_text_cut source.toList
    rw [split, List.flatMap_append, List.flatMap_cons] at whole
    exact whole.symm
  · rw [stream] at faulty
    exact (Option.some.inj faulty).symm
  · rw [stream, ofSource, String.toList_ofList, lexemes, ← fault_ofLexemes_eq_none_iff.mpr legal]

end TokenStream

/-! ## Items in turn -/

namespace Reader

open TokenStream

variable {reader : Reader}

theorem next_eq_head? (reader : Reader) : reader.next.1 = reader.stream.items.head? := by
  rw [stream_eq_next]
  obtain ⟨item, after⟩ := reader.next
  cases item with
  | none => rfl
  | some item => cases item <;> rfl

theorem items_next (reader : Reader) : reader.next.2.stream.items = reader.stream.items.tail := by
  have ended := reader.pending_next
  rw [stream_eq_next reader]
  generalize reader.next = result at ended ⊢
  obtain ⟨item, after⟩ := result
  have empty (pending : after.pending = []) : after.stream.items = [] := by
    rw [stream, pending]
    rfl
  cases item with
  | none => exact empty (ended (by simp))
  | some item =>
      cases item with
      | ok token => rfl
      | error fault => exact empty (ended (by simp))

theorem items_advanced (count : Nat) (reader : Reader) :
    (reader.advanced count).stream.items = reader.stream.items.drop count := by
  induction count generalizing reader with
  | zero => rfl
  | succ count induction =>
      rw [advanced, induction, items_next, List.drop_tail]

theorem next_advanced (count : Nat) (reader : Reader) :
    (reader.advanced count).next.1 = reader.stream.items[count]? := by
  rw [next_eq_head?, items_advanced, List.head?_drop]

/-! ## Lines in turn -/

theorem line_next {item : Except Fault Token} (read : reader.next.1 = some item) :
    reader.next.2.line = itemLine item := by
  obtain ⟨pending, line, start, offset⟩ := reader
  unfold next at read ⊢
  dsimp only at read ⊢
  induction pending generalizing line start offset with
  | nil => cases read
  | cons lexeme later induction =>
      cases lexeme with
      | gap gap => exact induction _ _ _ read
      | token kind word =>
          cases read
          rfl
      | illegal character tail =>
          cases read
          rfl

theorem finish_next (fine : ∀ fault, reader.next.1 ≠ some (.error fault)) :
    reader.next.2.finish = reader.finish := by
  obtain ⟨pending, line, start, offset⟩ := reader
  unfold next at fine ⊢
  unfold finish
  dsimp only at fine ⊢
  induction pending generalizing line start offset with
  | nil => rfl
  | cons lexeme later induction =>
      cases lexeme with
      | gap gap => exact induction _ _ _ fine
      | token kind word => rfl
      | illegal character tail => exact absurd rfl (fine _)

theorem finish_advanced (fine : ∀ fault, .error fault ∉ reader.stream.items) (count : Nat) :
    (reader.advanced count).finish = reader.finish := by
  induction count generalizing reader with
  | zero => rfl
  | succ count induction =>
      rw [advanced, induction, finish_next]
      · intro fault read
        rw [next_eq_head?] at read
        exact fine fault (List.mem_of_mem_head? read)
      · intro fault later
        rw [items_next] at later
        exact fine fault (List.mem_of_mem_tail later)

theorem line_finish (reader : Reader) :
    reader.finish.line = reader.line + (reader.pending.map Lexeme.lineBreaks).sum := by
  obtain ⟨pending, line, start, offset⟩ := reader
  unfold finish
  dsimp only
  induction pending generalizing line start offset with
  | nil => rfl
  | cons lexeme later induction =>
      rw [finishFrom, induction, List.map_cons, List.sum_cons, Nat.add_assoc]

theorem finish_of_pending (read : reader.pending = []) : reader.finish = reader := by
  cases reader
  cases read
  rfl

/-- A reader that has nothing more to deliver is on the last line. -/
theorem line_next_of_none (fine : ∀ fault, .error fault ∉ reader.stream.items) {count : Nat}
    (ended : (reader.advanced count).next.1 = none) :
    (reader.advanced count).next.2.line =
      reader.line + (reader.pending.map Lexeme.lineBreaks).sum := by
  have read : (reader.advanced count).next.2.pending = [] :=
    pending_next _ (by simp [ended])
  have last : (reader.advanced count).next.2.finish = (reader.advanced count).finish :=
    finish_next (by simp [ended])
  rw [← line_finish, ← finish_advanced fine count, ← last, finish_of_pending read]

end Reader

/-- The tokens of a source and gaps around them are the source, or what is in front of the
character at fault, which has the same tokens on its own.  A reader delivers them in this
order, and is on the line of what it delivered last. -/
theorem TokenStream.ofSource_partition (source : String) :
    ((ofSource source).fault = none → Partition [] (ofSource source).tokens source.toList) ∧
    (∀ fault, (ofSource source).fault = some fault →
      ∃ front character back, source.toList = front ++ character :: back ∧
        fault = .lexical character (lineBehind front) ∧
        Partition [] (ofSource source).tokens front ∧
        (Reader.ofSource (String.ofList front)).tokenize.1 = .ok (ofSource source).tokens) ∧
    ∀ count,
      let reader := (Reader.ofSource source).advanced count
      reader.next.1 = (ofSource source).items[count]? ∧
        (∀ item, reader.next.1 = some item → reader.next.2.line = itemLine item) ∧
        (reader.next.1 = none → (ofSource source).fault = none →
          reader.next.2.line = lineBehind source.toList) := by
  refine ⟨partition_ofSource, ?_, ?_⟩
  · intro fault faulty
    obtain ⟨front, character, back, whole, known, stream⟩ := exists_front_of_fault faulty
    refine ⟨front, character, back, whole, known, ?_, tokenize_eq_ok_iff.mpr stream⟩
    have sound : (ofSource (String.ofList front)).fault = none := by rw [stream]
    have partition := partition_ofSource sound
    rwa [stream, String.toList_ofList] at partition
  · intro count reader
    refine ⟨Reader.next_advanced count _, fun item read => Reader.line_next read, ?_⟩
    intro ended sound
    have legal := fault_ofLexemes_eq_none_iff.mp sound
    have stream : (Reader.ofSource source).stream = ofSource source := rfl
    have fine (fault : Fault) : .error fault ∉ (Reader.ofSource source).stream.items := by
      simp [items, stream, sound]
    rw [Reader.line_next_of_none fine ended, lineBehind, ← Lexeme.sum_lineBreaks_cut legal]
    rfl

/-- A letter that only a comment and an info string may have, and the same letter behind
the last line break. -/
theorem TokenStream.ofSource_partition_accents :
    (Partition [] [⟨.ident, "x1", 2⟩, ⟨.info, "!é!", 2⟩] "... é ...\nx1 !é!\n".toList ∧
      ((Reader.ofSource "... é ...\nx1 !é!\n").advanced 2).next.2.line = 3) ∧
    ∃ front back, "... é ...\nx1 !é!\né ...".toList = front ++ 'é' :: back ∧
      lineBehind front = 3 ∧
      (Reader.ofSource (String.ofList front)).tokenize.1 =
        .ok [⟨.ident, "x1", 2⟩, ⟨.info, "!é!", 2⟩] := by
  have stream : ofSource "... é ...\nx1 !é!\n" =
      ⟨[⟨.ident, "x1", 2⟩, ⟨.info, "!é!", 2⟩], none⟩ := by decide
  have faulty : ofSource "... é ...\nx1 !é!\né ..." =
      ⟨[⟨.ident, "x1", 2⟩, ⟨.info, "!é!", 2⟩], some (.lexical 'é' 3)⟩ := by decide
  obtain ⟨partition, -, turns⟩ := ofSource_partition "... é ...\nx1 !é!\n"
  obtain ⟨-, found, -⟩ := ofSource_partition "... é ...\nx1 !é!\né ..."
  rw [stream] at partition turns
  obtain ⟨read, -, last⟩ := turns 2
  refine ⟨⟨partition rfl, last read rfl⟩, ?_⟩
  rw [faulty] at found
  obtain ⟨front, character, back, whole, fault, -, tokenized⟩ := found _ rfl
  obtain ⟨rfl, line⟩ := Fault.lexical.inj fault
  exact ⟨front, back, whole, line.symm, tokenized⟩

end SheetLang
