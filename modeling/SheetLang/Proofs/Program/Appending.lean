import SheetLang.Proofs.Parser.Acceptance
import SheetLang.Proofs.TokenStream.LineBreaks

/-!
# Programs on top of each other

Statements have no separator, yet a program ends where it ends: nothing that begins a
program goes on with its last statement.  So the statements of a second source are added
to those of a first one.  Definitions cannot be added, as they have to come first; the
first of them is at fault then.
-/

namespace SheetLang

open Grammar

/-! ## Derivations -/

theorem Derives.many_append {A : Nonterminal} {items others : List A.Value}
    (derivation : Derives (.many A) front items) (behind : Derives (.many A) back others) :
    Derives (.many A) (front ++ back) (items ++ others) := by
  induction items generalizing front with
  | nil =>
      cases derivation with
      | manyNil => exact behind
  | cons first items induction =>
      cases derivation with
      | manyCons head tail =>
          rw [List.append_assoc]
          exact .manyCons head (induction tail)

theorem Derives.block_append {statements others : List Statement}
    (derivation : Derives .block front statements) (behind : Derives .block back others) :
    Derives .block (front ++ back) (statements ++ others) := by
  cases derivation with
  | block head tail =>
      cases behind with
      | block second more =>
          rw [List.append_assoc]
          exact .block head (tail.many_append (.manyCons second more))

theorem Derives.program_append {program later : Program}
    (derivation : Derives .program front program) (behind : Derives .program back later)
    (plain : later.definitions = []) :
    Derives .program (front ++ back)
      ⟨program.definitions, program.statements ++ later.statements⟩ := by
  cases derivation with
  | program definitions statements =>
      cases behind with
      | program none others =>
          cases plain
          cases none with
          | manyNil =>
              rw [List.append_assoc]
              exact .program definitions (statements.block_append others)

theorem Derives.program_opens {program : Program}
    (derivation : Derives .program tokens program) (defined : program.definitions ≠ []) :
    Opens .definition tokens := by
  cases derivation with
  | program definitions statements =>
      cases definitions with
      | manyNil => exact absurd rfl defined
      | manyCons first others =>
          rw [List.append_assoc]
          exact (first.opens rfl).append _ fun _ start => start

/-- No program goes on with a definition. -/
theorem ends_program_of_opens (opens : Opens .definition rest) : Ends .program rest := by
  obtain ⟨token, more, rfl, start⟩ := opens
  rw [ends_cons]
  generalize token.kind = kind at start
  cases kind with
  | keyword word => cases word <;> first | rfl | cases start
  | _ => cases start

theorem Program.ofTokens_append_of_ends {token : Token}
    (derivation : Derives .program tokens program) (ends : Ends .program (token :: rest)) :
    Program.ofTokens (tokens ++ token :: rest) = .error (.unexpected (token :: rest)) := by
  have completes := Parser.completes_program (Nested.complete_upTo (tokens ++ token :: rest).length)
  have short : tokens.length ≤ (tokens ++ token :: rest).length + 1 := by
    rw [List.length_append]
    omega
  have run := completes (token :: rest) derivation short ends
  unfold Program.ofTokens
  rw [run]

/-! ## Sources -/

/-- The program of two sources with a line break between them has the statements of both,
unless the second one defines something: then its first token cannot stand behind the
first source. -/
theorem Program.ofSource_append {source later : String} {program more : Program}
    (parsed : Program.ofSource source = .ok program)
    (laterParsed : Program.ofSource later = .ok more) :
    (more.definitions = [] →
      Program.ofSource (source ++ "\n" ++ later) =
        .ok ⟨program.definitions, program.statements ++ more.statements⟩) ∧
    (more.definitions ≠ [] → ∃ first rest,
      (TokenStream.ofSource later).tokens = first :: rest ∧
        Program.ofSource (source ++ "\n" ++ later) =
          .error (.syntactic first.text (first.line + 1 + source.toList.count '\n'))) := by
  obtain ⟨derivation, sound⟩ := TokenStream.parse_eq_ok_iff.mp parsed
  obtain ⟨laterDerivation, laterSound⟩ := TokenStream.parse_eq_ok_iff.mp laterParsed
  have stream := TokenStream.ofSource_append_newline sound laterSound
  have moved := laterDerivation.down (source.toList.count '\n' + 1)
  constructor
  · intro plain
    unfold Program.ofSource
    rw [stream]
    exact TokenStream.parse_eq_ok_iff.mpr ⟨derivation.program_append moved plain, rfl⟩
  · intro defined
    obtain ⟨first, rest, tokens, start⟩ := laterDerivation.program_opens defined
    refine ⟨first, rest, tokens, ?_⟩
    have ends : Ends .program
        ((first :: rest).map (Token.down (source.toList.count '\n' + 1))) :=
      ends_program_of_opens ⟨_, _, rfl, start⟩
    have rejected := Program.ofTokens_append_of_ends derivation ends
    unfold Program.ofSource TokenStream.parse
    rw [stream, tokens, List.map_cons, rejected]
    simp only [TokenStream.faultOf, Token.down]
    rw [Nat.add_right_comm, Nat.add_assoc]

/-- A cell at the end of an assignment does not go on with the current cell, and a range
is not defined behind it. -/
theorem Program.ofSource_append_behind_cell :
    Program.ofSource "yy := SH'A1\n" =
      .ok ⟨[], [.assignScalar "yy" (.cell (.inSheet "SH" "A1"))]⟩ ∧
    Program.ofSource "$ := yy" = .ok ⟨[], [.assignCell .current (.name "yy")]⟩ ∧
    Program.ofSource "\nrange _r return $" =
      .ok ⟨[.variable (.range "_r" none)], [.returnScalar (.cell .current)]⟩ ∧
    Program.ofSource ("yy := SH'A1\n" ++ "\n" ++ "$ := yy") =
      .ok ⟨[], [.assignScalar "yy" (.cell (.inSheet "SH" "A1")),
        .assignCell .current (.name "yy")]⟩ ∧
    Program.ofSource ("yy := SH'A1\n" ++ "\n" ++ "\nrange _r return $") =
      .error (.syntactic "range" 4) := by
  have assigned : TokenStream.ofSource "yy := SH'A1\n" =
      ⟨[⟨.ident, "yy", 1⟩, ⟨.symbol .assign, ":=", 1⟩, ⟨.sheetName, "SH", 1⟩,
        ⟨.symbol .quote, "'", 1⟩, ⟨.coordinate, "A1", 1⟩], none⟩ := by decide
  have written : TokenStream.ofSource "$ := yy" =
      ⟨[⟨.symbol .dollar, "$", 1⟩, ⟨.symbol .assign, ":=", 1⟩, ⟨.ident, "yy", 1⟩], none⟩ := by
    decide
  have defined : TokenStream.ofSource "\nrange _r return $" =
      ⟨[⟨.keyword .range, "range", 2⟩, ⟨.rangeName, "_r", 2⟩, ⟨.keyword .return, "return", 2⟩,
        ⟨.symbol .dollar, "$", 2⟩], none⟩ := by decide
  have first : Program.ofSource "yy := SH'A1\n" =
      .ok ⟨[], [.assignScalar "yy" (.cell (.inSheet "SH" "A1"))]⟩ := by
    rw [Program.ofSource, assigned]
    rfl
  have statement : Program.ofSource "$ := yy" =
      .ok ⟨[], [.assignCell .current (.name "yy")]⟩ := by
    rw [Program.ofSource, written]
    rfl
  have definition : Program.ofSource "\nrange _r return $" =
      .ok ⟨[.variable (.range "_r" none)], [.returnScalar (.cell .current)]⟩ := by
    rw [Program.ofSource, defined]
    rfl
  obtain ⟨opening, rest, tokens, refused⟩ :=
    (Program.ofSource_append first definition).2 (List.cons_ne_nil _ _)
  rw [defined] at tokens
  obtain ⟨rfl, -⟩ := List.cons.inj tokens
  refine ⟨first, statement, definition, (Program.ofSource_append first statement).1 rfl, ?_⟩
  exact refused

end SheetLang
