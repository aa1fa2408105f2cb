import SheetLang.Parser.Calls
import SheetLang.Proofs.Parser.EndMark
import SheetLang.Proofs.TokenStream.Layout
import SheetLang.Proofs.TokenStream.Partition

/-!
# Readers in use

Whatever a reader was asked for before, what it delivers and what the parser makes of it
depends on the items that are left only, and these are those of a source of their own.
-/

namespace SheetLang

/-! ## Items -/

namespace TokenStream

variable {stream other : TokenStream}

theorem complete_eq_error_iff {fault : Fault} :
    stream.complete = .error fault ↔ stream.fault = some fault := by
  obtain ⟨read, last⟩ := stream
  cases last <;> simp [complete]

theorem error_mem_items_iff {fault : Fault} :
    .error fault ∈ stream.items ↔ stream.fault = some fault := by
  simp [items, Option.mem_toList]

theorem complete_of_items {tokens : List Token} (delivers : stream.items = tokens.map .ok) :
    stream.complete = .ok tokens := by
  have sound : stream.fault = none := by
    apply Option.eq_none_iff_forall_ne_some.mpr
    intro fault faulty
    have member := error_mem_items_iff.mpr faulty
    rw [delivers] at member
    simp at member
  rw [items, sound] at delivers
  have same : stream.tokens = tokens := by
    apply List.map_injective_iff.mpr (fun _ _ => Except.ok.inj)
    simpa using delivers
  exact complete_eq_ok_iff.mpr (by rw [← sound, ← same])

theorem eq_of_items_eq (same : stream.items = other.items) : stream = other := by
  obtain ⟨tokens, fault⟩ := other
  cases fault with
  | none => exact complete_eq_ok_iff.mp (complete_of_items (by simpa [items] using same))
  | some fault =>
      have faulty : stream.fault = some fault := by
        rw [← error_mem_items_iff, same, error_mem_items_iff]
      obtain ⟨read, last⟩ := stream
      cases faulty
      have front : read = tokens :=
        List.map_injective_iff.mpr (fun _ _ => Except.ok.inj) (List.append_cancel_right same)
      rw [front]

end TokenStream

namespace Reader

variable {reader later : Reader} {calls : List Call}

/-! ## What calls leave -/

theorem after_cons (reader : Reader) (call : Call) (calls : List Call) :
    reader.after (call :: calls) = (reader.answer call).2.after calls :=
  rfl

theorem after_append (reader : Reader) (calls others : List Call) :
    reader.after (calls ++ others) = (reader.after calls).after others :=
  List.foldl_append

theorem pending_finish (reader : Reader) : reader.finish.pending = [] := by
  obtain ⟨pending, line, start, offset⟩ := reader
  unfold finish
  dsimp only
  induction pending generalizing line start offset with
  | nil => rfl
  | cons lexeme later induction => exact induction _ _ _

theorem stream_of_pending (read : reader.pending = []) : reader.stream = ⟨[], none⟩ := by
  rw [stream, read]
  rfl

theorem items_answer (reader : Reader) (call : Call) :
    (reader.answer call).2.stream.items = left reader.stream.items [call] := by
  cases call with
  | next =>
      rw [answer, items_next]
      simp [left]
  | line => simp [left, answer]
  | tokenize =>
      rw [answer, tokenize, stream_of_pending reader.pending_finish]
      rfl

theorem left_cons (items : List (Except Fault Token)) (call : Call) (calls : List Call) :
    left items (call :: calls) = left (left items [call]) calls := by
  cases call <;> simp [left]

theorem items_after (reader : Reader) (calls : List Call) :
    (reader.after calls).stream.items = left reader.stream.items calls := by
  induction calls generalizing reader with
  | nil => rfl
  | cons call calls induction =>
      rw [after_cons, induction, items_answer, ← left_cons]

/-! ## Going on -/

/-- A reader reads on: its lexemes are used up from the front, and its line does not
decrease. -/
structure Reaches (reader later : Reader) : Prop where
  pending : later.pending <:+ reader.pending
  line : reader.line ≤ later.line

theorem Reaches.refl (reader : Reader) : Reaches reader reader :=
  ⟨List.suffix_refl _, Nat.le_refl _⟩

theorem Reaches.trans {last : Reader} (first : Reaches reader later)
    (second : Reaches later last) : Reaches reader last :=
  ⟨second.pending.trans first.pending, Nat.le_trans first.line second.line⟩

theorem reaches_behind (lexeme : Lexeme) (pending : List Lexeme) (line more : Nat)
    (start offset behindStart behindOffset : Nat) :
    Reaches ⟨lexeme :: pending, line, start, offset⟩
      ⟨pending, line + more, behindStart, behindOffset⟩ :=
  ⟨List.suffix_cons lexeme pending, Nat.le_add_right line more⟩

theorem reaches_next (reader : Reader) : Reaches reader reader.next.2 := by
  obtain ⟨pending, line, start, offset⟩ := reader
  unfold next
  dsimp only
  induction pending generalizing line start offset with
  | nil => exact .refl _
  | cons lexeme later induction =>
      cases lexeme with
      | gap gap => exact (reaches_behind ..).trans (induction _ _ _)
      | token kind word => exact reaches_behind _ _ line 0 ..
      | illegal character tail => exact ⟨List.nil_suffix, Nat.le_refl line⟩

theorem reaches_finish (reader : Reader) : Reaches reader reader.finish := by
  refine ⟨?_, ?_⟩
  · rw [pending_finish]
    exact List.nil_suffix
  · rw [line_finish]
    exact Nat.le_add_right _ _

theorem reaches_answer (reader : Reader) (call : Call) : Reaches reader (reader.answer call).2 := by
  cases call with
  | next => exact reaches_next reader
  | line => exact .refl reader
  | tokenize => exact reaches_finish reader

theorem reaches_after (reader : Reader) (calls : List Call) :
    Reaches reader (reader.after calls) := by
  induction calls generalizing reader with
  | nil => exact .refl reader
  | cons call calls induction => exact (reaches_answer reader call).trans (induction _)

theorem reaches_of_append {before calls : List Call} (front : before <+: calls)
    (reader : Reader) : Reaches (reader.after before) (reader.after calls) := by
  obtain ⟨others, rfl⟩ := front
  rw [after_append]
  exact reaches_after _ others

/-! ## Answers -/

theorem answer_next (reader : Reader) :
    (reader.answer .next).1 = .item reader.stream.items.head? := by
  rw [answer, next_eq_head?]

theorem answer_tokenize (reader : Reader) :
    (reader.answer .tokenize).1 = .tokens reader.stream.complete :=
  rfl

/-- A reader that has used up its lexemes has nothing to deliver. -/
theorem answer_of_pending (read : reader.pending = []) :
    (reader.answer .next).1 = .item none ∧ (reader.answer .tokenize).1 = .tokens (.ok []) := by
  rw [answer_next, answer_tokenize, stream_of_pending read]
  exact ⟨rfl, rfl⟩

theorem pending_answer_of_error {fault : Fault}
    (read : (reader.answer .next).1 = .item (some (.error fault))) :
    (reader.answer .next).2.pending = [] := by
  apply pending_next
  intro token delivered
  simp [answer, delivered] at read

/-! ## Sources of what is left -/

/-- The lexemes of a source that a reader has not used up yet are those of their text. -/
theorem exists_source (source : String) (calls : List Call) :
    ∃ other, TokenStream.ofSource other = ((Reader.ofSource source).after calls).stream := by
  obtain ⟨⟨passed, found⟩, begun⟩ := reaches_after (Reader.ofSource source) calls
  generalize (Reader.ofSource source).after calls = reader at found begun
  have later := Lexeme.cut_drop found.symm
  have own : Lexeme.cut (reader.pending.flatMap Lexeme.text) = reader.pending := by
    conv => lhs; rw [← later, Lexeme.flatMap_text_cut]
    exact later
  have first : 1 + (reader.line - 1) = reader.line := Nat.add_sub_cancel' begun
  refine ⟨String.ofList (List.replicate (reader.line - 1) '\n' ++
    reader.pending.flatMap Lexeme.text), ?_⟩
  rw [TokenStream.ofSource, String.toList_ofList, TokenStream.ofLexemes_cut_breaks, own, first]
  rfl

end Reader

/-! ## Parsers -/

theorem Trace.told_keep (tokens asked : List Token) (parsed : Except Fault Program) :
    Trace.keep.told tokens asked parsed = tokens ++ asked := by
  induction asked generalizing tokens with
  | nil =>
      rw [List.append_nil]
      cases parsed with
      | ok program => exact List.foldl_fixed program.outline.postorder
      | error fault => rfl
  | cons token asked induction =>
      rw [Trace.told_cons, induction]
      exact List.append_assoc tokens [token] asked

/-- What is reported under the mark is on the line of the token that was looked at last. -/
theorem TokenStream.line_of_endMark {source : String} {line : Nat}
    (failure : (ofSource source).parse = .error (.syntactic Fault.endMark line)) :
    line = ((ofSource source).pulled.getLast?.map Token.line).getD 1 := by
  cases cases_of_endMark failure with
  | inl ended =>
      obtain ⟨incomplete, rfl⟩ := ended
      have longest : LongestViable (ofSource source).tokens (ofSource source).tokens.length :=
        ⟨Nat.le_refl _, by simpa using incomplete.viable, fun _ within _ => within⟩
      rw [pulled_eq_take longest (.all incomplete.inRange rfl), List.take_length, lastLine]
  | inr rejects =>
      obtain ⟨count, longest, none, found⟩ := rejects
      obtain ⟨within, -⟩ := List.getElem?_eq_some_iff.mp found
      rw [pulled_eq_take longest (.unexpected none within), List.take_add_one, found]
      simp

/-- A reader answers every call from the items of its source that are left, and the parser
makes of it what it makes of a source that has just these items.  When they end too early,
the line is that of the last token that the parser asked for, if it asked for one. -/
theorem Reader.answer_after (source : String) (calls : List Reader.Call) :
    let items := (TokenStream.ofSource source).items
    let reader := (Reader.ofSource source).after calls
    ((reader.answer .next).1 =
        .item (if .tokenize ∈ calls then none else items[calls.count .next]?) ∧
      (∀ tokens, left items calls = tokens.map .ok →
        (reader.answer .tokenize).1 = .tokens (.ok tokens)) ∧
      (∀ fault, .error fault ∈ left items calls →
        (reader.answer .tokenize).1 = .tokens (.error fault)) ∧
      (∀ before call, before ++ [call] <+: calls →
        (call = .tokenize ∨ ∃ fault, (((Reader.ofSource source).after before).answer call).1 =
          .item (some (.error fault))) →
        left items calls = [] ∧ (reader.answer .next).1 = .item none ∧
          (reader.answer .tokenize).1 = .tokens (.ok [])) ∧
      ∀ before, before <+: calls → ((Reader.ofSource source).after before).line ≤ reader.line) ∧
    (∃ other, (TokenStream.ofSource other).items = left items calls) ∧
    (∀ (State : Type) (trace : Trace State) (state : State),
      (∀ other, (TokenStream.ofSource other).items = left items calls →
        reader.parseTraced trace state = (Reader.ofSource other).parseTraced trace state ∧
          (reader.parseTraced trace state).1 = Program.ofSource other) ∧
      (left items calls = [] →
        reader.parseTraced trace state = (.error (.syntactic Fault.endMark 1), state))) ∧
    ∀ line,
      (reader.parseTraced Trace.keep []).1 = .error (.syntactic Fault.endMark line) →
        line = ((reader.parseTraced Trace.keep []).2.getLast?.map Token.line).getD 1 := by
  intro items reader
  have delivers : reader.stream.items = left items calls := items_after _ calls
  refine ⟨⟨?_, ?_, ?_, ?_, ?_⟩, ?_, ?_, ?_⟩
  · rw [answer_next, delivers, left]
    split
    · rfl
    · rw [List.head?_drop]
  · intro tokens rest
    rw [answer_tokenize, TokenStream.complete_of_items (delivers.trans rest)]
  · intro fault member
    rw [answer_tokenize, TokenStream.complete_eq_error_iff.mpr]
    exact TokenStream.error_mem_items_iff.mp (delivers ▸ member)
  · intro before call front passed
    have used : ((Reader.ofSource source).after (before ++ [call])).pending = [] := by
      rw [after_append]
      obtain rfl | ⟨fault, read⟩ := passed
      · exact pending_finish _
      · cases call with
        | next => exact pending_answer_of_error read
        | line | tokenize => cases read
    have behind := (reaches_of_append front (Reader.ofSource source)).pending
    rw [used, List.suffix_nil] at behind
    refine ⟨?_, answer_of_pending behind⟩
    rw [← delivers, stream_of_pending behind]
    rfl
  · intro before front
    exact (reaches_of_append front _).line
  · obtain ⟨other, same⟩ := exists_source source calls
    exact ⟨other, by rw [same, delivers]⟩
  · intro State trace state
    constructor
    · intro other same
      have stream : reader.stream = TokenStream.ofSource other :=
        TokenStream.eq_of_items_eq (delivers.trans same.symm)
      rw [parseTraced_eq, parseTraced_eq, stream]
      exact ⟨rfl, rfl⟩
    · intro empty
      have stream : reader.stream = ⟨[], none⟩ :=
        TokenStream.eq_of_items_eq (delivers.trans empty)
      rw [parseTraced_eq, stream]
      rfl
  · intro line failure
    obtain ⟨other, same⟩ := exists_source source calls
    rw [parseTraced_eq, ← same] at failure ⊢
    rw [Trace.told_keep]
    exact TokenStream.line_of_endMark failure

/-- Two tokens that are left behind a token without sense, and nothing that is left behind a
fault, with the line of the end in either case. -/
theorem Reader.answer_after_token :
    (((Reader.ofSource "endif\nxs :=\n\n").after [.next]).answer .tokenize).1 =
        .tokens (.ok [⟨.ident, "xs", 2⟩, ⟨.symbol .assign, ":=", 2⟩]) ∧
      (((Reader.ofSource "endif\nxs :=\n\n").after [.next]).parseTraced Trace.keep []).1 =
        Program.ofSource "\nxs :=" ∧
      2 = ((((Reader.ofSource "endif\nxs :=\n\n").after [.next]).parseTraced Trace.keep
        []).2.getLast?.map Token.line).getD 1 ∧
      (((Reader.ofSource "xs\né").after [.next]).answer .tokenize).1 =
        .tokens (.error (.lexical 'é' 2)) ∧
      (((Reader.ofSource "xs\né").after [.next, .next, .line]).answer .tokenize).1 =
        .tokens (.ok []) ∧
      1 ≤ ((Reader.ofSource "xs\né").after [.next, .next, .line]).line ∧
      ((Reader.ofSource "xs\né").after [.next, .next, .line]).parseTraced Trace.keep [] =
        (.error (.syntactic Fault.endMark 1), []) := by
  obtain ⟨⟨-, tokens, -⟩, -, parser, line⟩ := answer_after "endif\nxs :=\n\n" [.next]
  obtain ⟨⟨-, -, fault, -⟩, -⟩ := answer_after "xs\né" [.next]
  obtain ⟨⟨-, -, -, passed, increasing⟩, -, nothing, -⟩ :=
    answer_after "xs\né" [.next, .next, .line]
  have parsed := ((parser _ Trace.keep []).1 "\nxs :=" (by decide)).2
  have ended : Program.ofSource "\nxs :=" = .error (.syntactic Fault.endMark 2) := by
    have stream : TokenStream.ofSource "\nxs :=" =
        ⟨[⟨.ident, "xs", 2⟩, ⟨.symbol .assign, ":=", 2⟩], none⟩ := by
      decide
    rw [Program.ofSource, stream]
    rfl
  obtain ⟨empty, -, finished⟩ := passed [.next] .next (by decide) (.inr ⟨.lexical 'é' 2, rfl⟩)
  refine ⟨tokens _ (by decide), parsed, line 2 (parsed.trans ended), fault _ (by decide),
    finished, increasing [] (by decide), (nothing _ Trace.keep []).2 empty⟩

end SheetLang
