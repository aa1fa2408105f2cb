import SheetLang.Proofs.Parser.SheetRows

/-!
# Definitions of sheets with rows

A brace closes the contents of a sheet and stands nowhere else.  So the definition of a
sheet ends with the first brace that closes behind the one that opens, and what stands
between them are its rows.  With any statement behind it, it is a program exactly if there
is a way to split the tokens in the braces into rows.
-/

namespace SheetLang

open Grammar

variable {keyword name sign opening closing : Writing} {front start inside behind : List Token}
  {statement : Statement}

/-! ## Braces -/

@[simp] theorem braceless_nil : Braceless [] :=
  List.forall_mem_nil _

@[simp] theorem braceless_cons {token : Token} {tokens : List Token} :
    Braceless (token :: tokens) ↔ token.kind ≠ .symbol .rightBrace ∧ Braceless tokens :=
  List.forall_mem_cons

@[simp] theorem braceless_append {front back : List Token} :
    Braceless (front ++ back) ↔ Braceless front ∧ Braceless back :=
  List.forall_mem_append

/-- Whether no sheet with rows is defined in a phrase. -/
def Nonterminal.isBraceless : Nonterminal → Bool
  | contents | variableDefinition | definition | program => false
  | many item | separated item => item.isBraceless
  | _ => true

theorem Grammar.Info.braceless {tokens : List Token} {info : Option String}
    (announced : Info tokens info) : Braceless tokens := by
  cases announced with
  | absent => exact braceless_nil
  | present => simp

theorem Grammar.braceless_symbols :
    (∀ {symbol operator}, Multiplies symbol operator → symbol ≠ .rightBrace) ∧
    (∀ {symbol operator}, Adds symbol operator → symbol ≠ .rightBrace) ∧
    ∀ {symbol operator}, Compares symbol operator → symbol ≠ .rightBrace := by
  refine ⟨?_, ?_, ?_⟩ <;> rintro symbol operator ⟨⟩ <;> simp

theorem Derives.braceless {A : Nonterminal} {tokens : List Token} {value : A.Value}
    (derivation : Derives A tokens value) (plain : A.isBraceless = true) : Braceless tokens := by
  induction derivation with
  | productCons multiplies _ _ left right =>
      simp [braceless_symbols.1 multiplies, left rfl, right rfl]
  | sumCons adds _ _ left right =>
      simp [braceless_symbols.2.1 adds, left rfl, right rfl]
  | comparisonCons compares _ _ left right =>
      simp [braceless_symbols.2.2 compares, left rfl, right rfl]
  | printSheet announced | printRange announced | printScalar announced =>
      simp_all [Nonterminal.isBraceless, announced.braceless]
  | _ => simp_all [Nonterminal.isBraceless]

theorem append_rightBrace_cases {end₁ end₂ : Writing} {back rest : List Token}
    (plain : Braceless start)
    (same : front ++ mark .rightBrace end₁ :: back = start ++ mark .rightBrace end₂ :: rest) :
    (front = start ∧ back = rest) ∨
      ∃ more, front = start ++ mark .rightBrace end₂ :: more ∧
        rest = more ++ mark .rightBrace end₁ :: back := by
  obtain ⟨more, rfl, tail⟩ | ⟨more, rfl, tail⟩ := List.append_eq_append_iff.mp same
  · cases more with
    | nil => exact .inl ⟨(List.append_nil _).symm, (List.cons.inj tail).2⟩
    | cons token more =>
        obtain ⟨rfl, -⟩ := List.cons.inj tail
        simp at plain
  · cases more with
    | nil => exact .inl ⟨List.append_nil _, (List.cons.inj tail).2.symm⟩
    | cons token more =>
        obtain ⟨rfl, behind⟩ := List.cons.inj tail
        exact .inr ⟨more, rfl, behind⟩

/-! ## The definition in front of a program -/

theorem Derives.program_sheet_cases {tail : List Token} {program : Program}
    (derivation : Derives .program (word .sheet keyword :: ⟨.sheetName, name.1, name.2⟩ ::
      mark .equal sign :: mark .leftBrace opening :: tail) program) :
    ∃ rows closing rest more,
      tail = rows.flatMap SheetRow.tokens ++ mark .rightBrace closing :: rest ∧
      SplitsIntoRows (rows.flatMap SheetRow.tokens) rows ∧ SignedFirstOnly rows ∧
      Derives .program rest more ∧
      program = ⟨.variable (.sheet name.1 (some (.rows (rows.map SheetRow.cells)))) ::
        more.definitions, more.statements⟩ := by
  generalize whole : word .sheet keyword :: _ = tokens at derivation
  cases derivation with
  | program definitions statements =>
      cases definitions with
      | manyNil =>
          obtain ⟨token, more, rfl, start⟩ := statements.opens rfl
          obtain ⟨rfl, -⟩ := List.cons.inj whole
          cases start
      | manyCons first others =>
          have behind := Derives.program others statements
          cases first with
          | function | subroutine => cases whole
          | «variable» definition =>
              cases definition with
              | scalarPlain | scalarValue | rangePlain | rangeValue => cases whole
              | sheetPlain =>
                  simp only [List.cons_append, List.nil_append, List.cons.injEq] at whole
                  obtain ⟨-, -, rest⟩ := whole
                  obtain ⟨token, more, spelled, start⟩ := behind.opens rfl
                  rw [← rest] at spelled
                  obtain ⟨rfl, -⟩ := List.cons.inj spelled
                  cases start
              | sheetValue contents =>
                  cases contents with
                  | size => simp [mark] at whole
                  | @rows ts us opened closed first later head tail =>
                      simp only [List.cons_append, List.append_assoc, List.cons.injEq] at whole
                      obtain ⟨-, named, -, -, rfl⟩ := whole
                      cases named
                      have derived : Derives .contents
                          (mark .leftBrace opened :: (ts ++ us) ++ [mark .rightBrace closed])
                          (.rows (first :: later)) := .rows head tail
                      obtain ⟨rows, split, plain, cells⟩ := Derives.rows_iff.mp derived
                      refine ⟨rows, closed, _, _, ?_, ?_, plain, behind, ?_⟩
                      · rw [split.whole]
                        simp
                      · rw [split.whole]
                        exact split
                      · rw [cells]

theorem sheetLiteral_append :
    sheetLiteral keyword name sign opening closing inside ++ behind =
      word .sheet keyword :: ⟨.sheetName, name.1, name.2⟩ :: mark .equal sign ::
        mark .leftBrace opening :: (inside ++ mark .rightBrace closing :: behind) := by
  simp [sheetLiteral]

theorem SplitsIntoRows.braceless {tokens : List Token} {rows : List SheetRow}
    (split : SplitsIntoRows tokens rows) : Braceless tokens := by
  rw [← split.whole]
  intro token member
  obtain ⟨row, listed, spelled⟩ := List.mem_flatMap.mp member
  exact Derives.braceless (split.written row listed) rfl token spelled

theorem SplitsIntoRows.derives {rows : List SheetRow} (split : SplitsIntoRows inside rows)
    (plain : SignedFirstOnly rows) (followed : Derives .statement behind statement) :
    Derives .program (sheetLiteral keyword name sign opening closing inside ++ behind)
      ⟨[.variable (.sheet name.1 (some (.rows (rows.map SheetRow.cells))))], [statement]⟩ := by
  have contents : Derives .contents
      (mark .leftBrace opening :: inside ++ [mark .rightBrace closing])
      (.rows (rows.map SheetRow.cells)) := Derives.rows_iff.mpr ⟨rows, split, plain, rfl⟩
  have definition : Derives .definition (sheetLiteral keyword name sign opening closing inside)
      (.variable (.sheet name.1 (some (.rows (rows.map SheetRow.cells))))) :=
    .variable (.sheetValue contents)
  have definitions := Derives.manyCons definition .manyNil
  have statements := Derives.block followed .manyNil
  rw [List.append_nil] at definitions statements
  exact .program definitions statements

section

variable {program : Program}
  (derivation : Derives .program
    (sheetLiteral keyword name sign opening closing inside ++ behind) program)

include derivation

/-- Where no brace closes before the last, the sheet has the rows between the braces. -/
theorem Derives.sheetLiteral_cases (plain : Braceless inside)
    (followed : Derives .statement behind statement) :
    ∃ rows, SplitsIntoRows inside rows ∧ SignedFirstOnly rows ∧
      program = ⟨[.variable (.sheet name.1 (some (.rows (rows.map SheetRow.cells))))],
        [statement]⟩ := by
  rw [sheetLiteral_append] at derivation
  obtain ⟨rows, ending, rest, more, tail, split, signs, onward, rfl⟩ :=
    derivation.program_sheet_cases
  obtain ⟨rfl, rfl⟩ | ⟨later, rfl, -⟩ := append_rightBrace_cases split.braceless tail
  case inr => simp at plain
  have alone : Derives .program ([] ++ behind) ⟨[], [statement]⟩ := by
    have statements := Derives.block followed .manyNil
    rw [List.append_nil] at statements
    exact .program .manyNil statements
  obtain ⟨-, rfl⟩ := onward.determined rfl alone rfl (ends_nil _) (ends_nil _)
  exact ⟨rows, split, signs, rfl⟩

/-- A brace that closes before the last one ends a definition, and the last one another. -/
theorem Derives.braceless_of_one_definition (one : program.definitions.length = 1) :
    Braceless inside := by
  rw [sheetLiteral_append] at derivation
  obtain ⟨rows, ending, rest, more, tail, split, -, onward, rfl⟩ :=
    derivation.program_sheet_cases
  have none : more.definitions = [] := by simpa using one
  have plainRest : Braceless rest := by
    cases onward with
    | program definitions statements =>
        cases none
        cases definitions with
        | manyNil => exact statements.braceless rfl
  obtain ⟨rfl, -⟩ | ⟨later, -, rfl⟩ := append_rightBrace_cases split.braceless tail
  · exact split.braceless
  · simp at plainRest

end

/-! ## Acceptance -/

/-- Tokens in braces define a sheet exactly if they can be split into rows, whichever
statement follows.  Its rows are those of the split in which no row but the first opens
with a minus; there is one such split and none has fewer rows.  Two operands side by side
are never in one row. -/
theorem parse_sheetLiteral (keyword name sign opening closing : Writing)
    (inside behind : List Token) (statement : Statement)
    (followed : Derives .statement behind statement) :
    ((∃ program, TokenStream.parse
          ⟨sheetLiteral keyword name sign opening closing inside ++ behind, none⟩ = .ok program ∧
        program.definitions.length = 1) ↔
      ∃ rows, SplitsIntoRows inside rows) ∧
    (Braceless inside → ∀ program, TokenStream.parse
          ⟨sheetLiteral keyword name sign opening closing inside ++ behind, none⟩ = .ok program →
        program.definitions.length = 1) ∧
    ∀ program, TokenStream.parse
          ⟨sheetLiteral keyword name sign opening closing inside ++ behind, none⟩ = .ok program →
        program.definitions.length = 1 →
      ∃ rows, SplitsIntoRows inside rows ∧ SignedFirstOnly rows ∧
        program = ⟨[.variable (.sheet name.1 (some (.rows (rows.map SheetRow.cells))))],
          [statement]⟩ ∧
        (∀ others, SplitsIntoRows inside others → SignedFirstOnly others → others = rows) ∧
        (∀ others, SplitsIntoRows inside others → rows.length ≤ others.length) ∧
        ∀ row ∈ rows, ∀ front token back cells, row.tokens = front ++ token :: back →
          Derives (.separated (.sum true)) front cells →
            Parser.startsAtom token.kind = false := by
  refine ⟨⟨?_, ?_⟩, ?_, ?_⟩
  · rintro ⟨program, parsed, one⟩
    have derivation := (TokenStream.parse_eq_ok_iff.mp parsed).1
    have plain := derivation.braceless_of_one_definition one
    obtain ⟨rows, split, -⟩ := derivation.sheetLiteral_cases plain followed
    exact ⟨rows, split⟩
  · rintro ⟨rows, split⟩
    obtain ⟨merged, again, plain, -⟩ := split.exists_signedFirstOnly
    exact ⟨_, TokenStream.parse_eq_ok_iff.mpr ⟨again.derives plain followed, rfl⟩, rfl⟩
  · intro plain program parsed
    have derivation := (TokenStream.parse_eq_ok_iff.mp parsed).1
    obtain ⟨rows, -, -, rfl⟩ := derivation.sheetLiteral_cases plain followed
    rfl
  · intro program parsed one
    have derivation := (TokenStream.parse_eq_ok_iff.mp parsed).1
    have braceless := derivation.braceless_of_one_definition one
    obtain ⟨rows, split, plain, rfl⟩ := derivation.sheetLiteral_cases braceless followed
    refine ⟨rows, split, plain, rfl, ?_, ?_, ?_⟩
    · intro others other othersPlain
      exact split.unique other plain othersPlain
    · intro others other
      exact split.fewest plain other
    · intro row listed front token back cells whole finished
      exact (split.written row listed).not_startsAtom whole finished

/-- A brace among the tokens may end one sheet where another begins: such tokens are accepted
although they are no rows. -/
theorem parse_sheetLiteral_two_sheets :
    let inside : List Token :=
      [⟨.ident, "aa", 1⟩, mark .rightBrace ("\x7d", 1), word .sheet ("sheet", 1),
        ⟨.sheetName, "SB", 1⟩, mark .equal ("=", 1), mark .leftBrace ("\x7b", 1),
        ⟨.ident, "bb", 1⟩]
    let source := "sheet SS = \x7b aa \x7d sheet SB = \x7b bb \x7d return xx"
    TokenStream.ofSource source =
      ⟨sheetLiteral ("sheet", 1) ("SS", 1) ("=", 1) ("\x7b", 1) ("\x7d", 1) inside ++
        [word .«return» ("return", 1), ⟨.ident, "xx", 1⟩], none⟩ ∧
    Derives .statement [word .«return» ("return", 1), ⟨.ident, "xx", 1⟩]
      (.returnScalar (.name "xx")) ∧
    Program.ofSource source =
      .ok ⟨[.variable (.sheet "SS" (some (.rows [[.name "aa"]]))),
          .variable (.sheet "SB" (some (.rows [[.name "bb"]])))],
        [.returnScalar (.name "xx")]⟩ ∧
    ¬∃ rows, SplitsIntoRows inside rows := by
  intro inside source
  have stream : TokenStream.ofSource source =
      ⟨sheetLiteral ("sheet", 1) ("SS", 1) ("=", 1) ("\x7b", 1) ("\x7d", 1) inside ++
        [word .«return» ("return", 1), ⟨.ident, "xx", 1⟩], none⟩ := by decide
  refine ⟨stream, .returnScalar (.comparisonOne (.sumOne (.productOne .name))), ?_, ?_⟩
  · rw [Program.ofSource, stream]
    rfl
  · rintro ⟨rows, split⟩
    exact split.braceless _ (List.mem_cons_of_mem _ List.mem_cons_self) rfl

/-- Three rows, the second of which opens with a minus, are two. -/
theorem parse_sheetLiteral_three_rows :
    Derives .statement [word .«return» ("return", 1), ⟨.ident, "xx", 1⟩]
      (.returnScalar (.name "xx")) ∧
    SplitsIntoRows
      [⟨.ident, "xx", 1⟩, mark .minus ("-", 1), ⟨.ident, "yy", 1⟩, ⟨.ident, "zz", 1⟩]
      [⟨[⟨.ident, "xx", 1⟩], [.name "xx"]⟩,
        ⟨[mark .minus ("-", 1), ⟨.ident, "yy", 1⟩], [.negate (.name "yy")]⟩,
        ⟨[⟨.ident, "zz", 1⟩], [.name "zz"]⟩] ∧
    TokenStream.parse
        ⟨sheetLiteral ("sheet", 1) ("SS", 1) ("=", 1) ("\x7b", 1) ("\x7d", 1)
            [⟨.ident, "xx", 1⟩, mark .minus ("-", 1), ⟨.ident, "yy", 1⟩, ⟨.ident, "zz", 1⟩] ++
          [word .«return» ("return", 1), ⟨.ident, "xx", 1⟩], none⟩ =
      .ok ⟨[.variable (.sheet "SS" (some (.rows
        [[.binary .minus (.name "xx") (.name "yy")], [.name "zz"]])))],
        [.returnScalar (.name "xx")]⟩ := by
  have operand (signed : Bool) (text : String) :
      Derives (.product signed) [⟨.ident, text, 1⟩] (.name text) := .productOne .name
  have cell (text : String) : SheetRow.Written ⟨[⟨.ident, text, 1⟩], [.name text]⟩ :=
    Derives.separatedOne (.sumOne (operand true text))
  have signed : SheetRow.Written
      ⟨[mark .minus ("-", 1), ⟨.ident, "yy", 1⟩], [.negate (.name "yy")]⟩ :=
    Derives.separatedOne (.sumOne (.productOne (.negate .name)))
  have difference : SheetRow.Written
      ⟨[⟨.ident, "xx", 1⟩] ++ mark .minus ("-", 1) :: [⟨.ident, "yy", 1⟩],
        [.binary .minus (.name "xx") (.name "yy")]⟩ :=
    Derives.separatedOne (.sumCons .minus (operand true "xx") (.sumOne (operand true "yy")))
  have followed : Derives .statement [word .«return» ("return", 1), ⟨.ident, "xx", 1⟩]
      (.returnScalar (.name "xx")) :=
    .returnScalar (.comparisonOne (.sumOne (operand true "xx")))
  have last := splitsIntoRows_singleton.mpr ⟨rfl, cell "zz"⟩
  have three := SplitsIntoRows.of_cons (cell "xx") (.of_cons signed last)
  have two := SplitsIntoRows.of_cons difference last
  refine ⟨followed, three, ?_⟩
  obtain ⟨accepted, -, result⟩ := parse_sheetLiteral ("sheet", 1) ("SS", 1) ("=", 1) ("\x7b", 1)
    ("\x7d", 1) _ _ _ followed
  obtain ⟨program, parsed, one⟩ := accepted.mpr ⟨_, three⟩
  obtain ⟨rows, -, -, rfl, unique, -⟩ := result program parsed one
  obtain rfl := unique _ two (by simp [SignedFirstOnly, Unsigned])
  exact parsed

end SheetLang
