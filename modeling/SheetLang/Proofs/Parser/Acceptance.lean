import SheetLang.Proofs.Parser.ProgramCompleteness
import SheetLang.Proofs.Parser.ProgramSoundness

/-!
# Acceptance

A token list is accepted exactly if it derives from the nonterminal of programs,
and the value of the derivation is the program.  As the parser gives one value
only, the grammar is unambiguous.

The same holds of every phrase within a program: its first tokens and the token
behind them determine where it ends and what it means.
-/

namespace SheetLang

namespace Parser

theorem exists_completes {A : Nonterminal} (phrase : A.isPhrase = true) (bound : Nat) :
    ∃ parser : Parser A.Value, Completes A (bound + 1) parser := by
  have complete := Nested.complete_upTo bound
  cases A with
  | program => exact ⟨_, completes_program complete⟩
  | definition => exact ⟨_, completes_definition complete⟩
  | variableDefinition => exact ⟨_, completes_variableDefinition complete⟩
  | contents => exact ⟨_, completes_sheetContents complete⟩
  | laterRow => exact ⟨_, completes_laterRow complete⟩
  | parameters => exact ⟨_, completes_parameters _⟩
  | parameter => exact ⟨_, completes_parameter _⟩
  | returnType => exact ⟨_, completes_returnType _⟩
  | block => exact ⟨_, completes_block complete⟩
  | statement =>
      exact ⟨_, completes_statement complete (Nat.le_refl _)
        (Completes.mono (completes_block complete) (Nat.le_succ _))⟩
  | call => exact ⟨_, completes_call complete⟩
  | argument => exact ⟨_, completes_argument complete⟩
  | range => exact ⟨_, completes_range complete⟩
  | cell => exact ⟨_, completes_cellRef _⟩
  | comparison => exact ⟨_, completes_comparison complete⟩
  | sum signed =>
      cases signed with
      | true => exact ⟨_, completes_sum complete (completes_operand complete)⟩
      | false => exact ⟨_, completes_sum complete (completes_atom complete)⟩
  | product signed =>
      cases signed with
      | true => exact ⟨_, completes_product complete (completes_operand complete)⟩
      | false => exact ⟨_, completes_product complete (completes_atom complete)⟩
  | operand signed =>
      cases signed with
      | true => exact ⟨_, completes_operand complete⟩
      | false => exact ⟨_, completes_atom complete⟩
  | many item => cases phrase
  | separated item => cases phrase

end Parser

/-- What a parser completes is determined by the tokens where it cannot go on. -/
theorem Completes.determined {A : Nonterminal} {parser : Parser A.Value} {value other : A.Value}
    (completes : Completes A bound parser) (first : Derives A front value)
    (second : Derives A start other) (short : front.length ≤ bound) (fits : start.length ≤ bound)
    (same : front ++ rest = start ++ more) (ends : Ends A rest) (stops : Ends A more) :
    front = start ∧ value = other := by
  have firstRun := completes rest first short ends
  have secondRun := completes more second fits stops
  rw [same, secondRun] at firstRun
  simp only [Except.ok.injEq, Prod.mk.injEq] at firstRun
  obtain ⟨rfl, rfl⟩ := firstRun
  exact ⟨List.append_cancel_right same, rfl⟩

/-- Two phrases at the front of one token list are the same if neither goes on. -/
theorem Derives.determined {A : Nonterminal} {value other : A.Value}
    (phrase : A.isPhrase = true) (first : Derives A front value) (second : Derives A start other)
    (same : front ++ rest = start ++ more) (ends : Ends A rest) (stops : Ends A more) :
    front = start ∧ value = other := by
  obtain ⟨parser, completes⟩ := Parser.exists_completes phrase (front.length + start.length)
  exact completes.determined first second (by omega) (by omega) same ends stops

theorem Program.derives_of_ofTokens (accepted : Program.ofTokens tokens = .ok program) :
    Derives .program tokens program := by
  unfold Program.ofTokens at accepted
  split at accepted
  case h_1 value run =>
    cases accepted
    have reads := Parser.reads_program (Nested.sound_upTo tokens.length)
    obtain ⟨used, split, _, derivation⟩ := reads.accepted run
    rw [List.append_nil] at split
    rwa [split]
  · cases accepted
  · cases accepted

theorem Program.ofTokens_of_derives (derivation : Derives .program tokens program) :
    Program.ofTokens tokens = .ok program := by
  have completes := Parser.completes_program (Nested.complete_upTo tokens.length)
  have run := completes [] derivation (Nat.le_succ _) (ends_nil _)
  rw [List.append_nil] at run
  unfold Program.ofTokens
  rw [run]

theorem TokenStream.parse_eq_ok_iff {stream : TokenStream} :
    stream.parse = .ok program ↔
      Derives .program stream.tokens program ∧ stream.fault = none := by
  unfold TokenStream.parse
  constructor
  · intro parsed
    cases outcome : Program.ofTokens stream.tokens with
    | error rejection =>
        rw [outcome] at parsed
        cases parsed
    | ok found =>
        rw [outcome] at parsed
        cases faulty : stream.fault with
        | some fault =>
            simp only [faulty] at parsed
            cases parsed
        | none =>
            simp only [faulty] at parsed
            cases parsed
            exact ⟨Program.derives_of_ofTokens outcome, rfl⟩
  · intro found
    simp only [Program.ofTokens_of_derives found.1, found.2]

/-- The parser accepts exactly the token lists of the grammar and gives exactly
the value of the derivation; no token list has two values.  In every choice the
token behind a phrase settles how far the phrase reaches and what it is. -/
theorem parse_eq_ok_iff_derives :
    (∀ tokens program, TokenStream.parse ⟨tokens, none⟩ = .ok program ↔
      Derives .program tokens program) ∧
    (∀ tokens program other, Derives .program tokens program → Derives .program tokens other →
      program = other) ∧
    ∀ (A : Nonterminal) (front start rest more : List Token) (value other : A.Value),
      A.isPhrase = true → Derives A front value → Derives A start other →
      front ++ rest = start ++ more → Ends A rest → Ends A more →
      front = start ∧ value = other := by
  refine ⟨fun tokens program => ?_, fun tokens program other derivation another => ?_, ?_⟩
  · constructor
    · intro parsed
      exact (TokenStream.parse_eq_ok_iff.mp parsed).1
    · intro derivation
      exact TokenStream.parse_eq_ok_iff.mpr ⟨derivation, rfl⟩
  · exact (derivation.determined rfl another rfl (ends_nil _) (ends_nil _)).2
  · intro A front start rest more value other phrase first second same ends stops
    exact first.determined phrase second same ends stops

end SheetLang
