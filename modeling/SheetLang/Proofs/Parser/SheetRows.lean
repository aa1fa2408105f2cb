import SheetLang.Proofs.Grammar.Signs
import SheetLang.Proofs.Parser.Acceptance

/-!
# Sheets and their rows

Contents of a sheet that can be split into rows at all can be split so that no row but the
first opens with a minus: a row that does is taken together with the row before it.  Of
such splits there is only one, since a row ends where the next token neither goes on with
its last cell nor is a comma.  The parser reads the rows of this split.
-/

namespace SheetLang

open Grammar

variable {tokens inside : List Token} {row : SheetRow} {rows others : List SheetRow}

/-! ## Taking rows together -/

theorem SheetRow.Written.opens (written : row.Written) :
    Opens (.sum true) row.tokens := by
  refine (Derives.opens written rfl).mono fun kind start => ?_
  simpa [Nonterminal.starts, Nonterminal.nullable] using start

theorem SheetRow.Written.length_pos (written : row.Written) : 0 < row.tokens.length :=
  Derives.length_pos written rfl

theorem SheetRow.Written.merge {next : SheetRow} (written : row.Written) (behind : next.Written)
    (signed : ¬Unsigned next.tokens) :
    ∃ merged : SheetRow, merged.tokens = row.tokens ++ next.tokens ∧ merged.Written := by
  obtain ⟨cells, derivation⟩ := Derives.row_append written behind signed
  exact ⟨⟨row.tokens ++ next.tokens, cells⟩, rfl, derivation⟩

theorem SplitsIntoRows.of_cons (written : row.Written) (split : SplitsIntoRows tokens rows) :
    SplitsIntoRows (row.tokens ++ tokens) (row :: rows) where
  nonempty := List.cons_ne_nil _ _
  whole := by rw [List.flatMap_cons, split.whole]
  written := List.forall_mem_cons.mpr ⟨written, split.written⟩

theorem splitsIntoRows_cons_cons {next : SheetRow} :
    SplitsIntoRows tokens (row :: next :: rows) ↔
      ∃ more, tokens = row.tokens ++ more ∧ row.Written ∧ SplitsIntoRows more (next :: rows) := by
  constructor
  · rintro ⟨-, rfl, written⟩
    obtain ⟨first, later⟩ := List.forall_mem_cons.mp written
    exact ⟨_, rfl, first, List.cons_ne_nil _ _, rfl, later⟩
  · rintro ⟨more, rfl, written, split⟩
    exact split.of_cons written

theorem splitsIntoRows_singleton :
    SplitsIntoRows tokens [row] ↔ tokens = row.tokens ∧ row.Written := by
  constructor
  · rintro ⟨-, rfl, written⟩
    exact ⟨List.flatMap_singleton _ _, written row List.mem_cons_self⟩
  · rintro ⟨rfl, written⟩
    exact ⟨List.cons_ne_nil _ _, List.flatMap_singleton _ _, List.forall_mem_singleton.mpr written⟩

/-- Rows that open with a minus are taken together with the rows before them, so that no
more rows are left than there were. -/
theorem SplitsIntoRows.exists_signedFirstOnly (split : SplitsIntoRows tokens rows) :
    ∃ merged, SplitsIntoRows tokens merged ∧ SignedFirstOnly merged ∧
      merged.length ≤ rows.length := by
  induction rows generalizing tokens with
  | nil => exact absurd rfl split.nonempty
  | cons row rows induction =>
      cases rows with
      | nil => exact ⟨[row], split, by simp [SignedFirstOnly], Nat.le_refl _⟩
      | cons next rows =>
          obtain ⟨more, rfl, written, rest⟩ := splitsIntoRows_cons_cons.mp split
          obtain ⟨merged, again, plain, fewer⟩ := induction rest
          cases merged with
          | nil => exact absurd rfl again.nonempty
          | cons second later =>
              obtain ⟨secondWritten, laterWritten⟩ := List.forall_mem_cons.mp again.written
              by_cases unsigned : Unsigned second.tokens
              · refine ⟨row :: second :: later, again.of_cons written, ?_, ?_⟩
                · exact List.forall_mem_cons.mpr ⟨unsigned, plain⟩
                · exact Nat.succ_le_succ fewer
              · obtain ⟨both, spelled, bothWritten⟩ := written.merge secondWritten unsigned
                refine ⟨both :: later, ⟨List.cons_ne_nil _ _, ?_, ?_⟩, plain, ?_⟩
                · rw [← again.whole, List.flatMap_cons, List.flatMap_cons, spelled,
                    List.append_assoc]
                · exact List.forall_mem_cons.mpr ⟨bothWritten, laterWritten⟩
                · exact Nat.le_succ_of_le fewer

/-! ## One split -/

/-- What opens without a sign as a sum does cannot go on with a row. -/
theorem ends_row_of_startsAtom {token : Token} (start : Parser.startsAtom token.kind = true)
    (rest : List Token) : Ends (.separated (.sum true)) (token :: rest) := by
  rw [ends_cons]
  generalize token.kind = kind at start
  cases kind with
  | symbol mark => cases mark <;> first | rfl | cases start
  | _ => rfl

theorem ends_row_of_unsigned (written : row.Written) (unsigned : Unsigned row.tokens)
    (rest : List Token) : Ends (.separated (.sum true)) (row.tokens ++ rest) := by
  obtain ⟨token, more, spelled, start⟩ := written.opens
  rw [spelled, List.cons_append]
  apply ends_row_of_startsAtom
  have plain : token.kind ≠ .symbol .minus := unsigned token (by simp [spelled])
  simpa [Nonterminal.starts, plain] using start

theorem ends_row_of_rows (written : ∀ row ∈ rows, row.Written)
    (unsigned : ∀ row ∈ rows, Unsigned row.tokens) :
    Ends (.separated (.sum true)) (rows.flatMap SheetRow.tokens) := by
  cases rows with
  | nil => exact ends_nil _
  | cons row rows =>
      rw [List.flatMap_cons]
      exact ends_row_of_unsigned (written row List.mem_cons_self)
        (unsigned row List.mem_cons_self) _

theorem SheetRow.Written.determined {other : SheetRow} {rest more : List Token}
    (written : row.Written) (otherWritten : other.Written)
    (same : row.tokens ++ rest = other.tokens ++ more)
    (ends : Ends (.separated (.sum true)) rest) (stops : Ends (.separated (.sum true)) more) :
    row = other := by
  obtain ⟨parser, completes⟩ := Parser.exists_completes (A := .sum true) rfl
    (row.tokens.length + other.tokens.length)
  have rowCompletes := Parser.completes_separated completes rfl rfl
  obtain ⟨spelled, valued⟩ := rowCompletes.determined written otherWritten (by omega) (by omega)
    same ends stops
  obtain ⟨rowTokens, rowCells⟩ := row
  obtain ⟨otherTokens, otherCells⟩ := other
  cases spelled
  cases valued
  rfl

theorem rows_eq_of_flatMap_eq (written : ∀ row ∈ rows, row.Written)
    (othersWritten : ∀ row ∈ others, row.Written) (plain : SignedFirstOnly rows)
    (othersPlain : SignedFirstOnly others)
    (same : rows.flatMap SheetRow.tokens = others.flatMap SheetRow.tokens) : rows = others := by
  have nonempty {list : List SheetRow} {first : SheetRow} (member : first ∈ list)
      (written : first.Written) : list.flatMap SheetRow.tokens ≠ [] := by
    intro empty
    have none := List.flatMap_eq_nil_iff.mp empty first member
    have positive := written.length_pos
    rw [none] at positive
    cases positive
  induction rows generalizing others with
  | nil =>
      cases others with
      | nil => rfl
      | cons other others =>
          exact absurd same.symm
            (nonempty List.mem_cons_self (othersWritten other List.mem_cons_self))
  | cons row rows induction =>
      cases others with
      | nil =>
          exact absurd same (nonempty List.mem_cons_self (written row List.mem_cons_self))
      | cons other others =>
          obtain ⟨first, later⟩ := List.forall_mem_cons.mp written
          obtain ⟨otherFirst, otherLater⟩ := List.forall_mem_cons.mp othersWritten
          rw [List.flatMap_cons, List.flatMap_cons] at same
          have equal := first.determined otherFirst same (ends_row_of_rows later plain)
            (ends_row_of_rows otherLater othersPlain)
          subst equal
          have behind := List.append_cancel_left same
          have tail {list : List SheetRow} (plain : ∀ row ∈ list, Unsigned row.tokens) :
              SignedFirstOnly list := fun row member => plain row (List.mem_of_mem_tail member)
          rw [induction later otherLater (tail plain) (tail othersPlain) behind]

theorem SplitsIntoRows.unique (split : SplitsIntoRows tokens rows)
    (other : SplitsIntoRows tokens others) (plain : SignedFirstOnly rows)
    (othersPlain : SignedFirstOnly others) : others = rows :=
  rows_eq_of_flatMap_eq other.written split.written othersPlain plain
    (other.whole.trans split.whole.symm)

theorem SplitsIntoRows.fewest (split : SplitsIntoRows tokens rows)
    (plain : SignedFirstOnly rows) (other : SplitsIntoRows tokens others) :
    rows.length ≤ others.length := by
  obtain ⟨merged, again, mergedPlain, fewer⟩ := other.exists_signedFirstOnly
  rw [split.unique again plain mergedPlain] at fewer
  exact fewer

/-- Behind a finished cell, no row goes on with an operand. -/
theorem SheetRow.Written.not_startsAtom {front back : List Token} {token : Token}
    {cells : List Expr} (written : row.Written) (whole : row.tokens = front ++ token :: back)
    (finished : Derives (.separated (.sum true)) front cells) :
    Parser.startsAtom token.kind = false := by
  apply Bool.eq_false_iff.mpr
  intro start
  have finishedRow : SheetRow.Written ⟨front, cells⟩ := finished
  have same : front ++ token :: back = row.tokens ++ [] := by rw [List.append_nil, whole]
  have equal := finishedRow.determined written same (ends_row_of_startsAtom start back)
    (ends_nil _)
  rw [← equal] at whole
  simp at whole

/-! ## Contents -/

theorem many_laterRow_iff {cells : List (List Expr)} :
    Derives (.many .laterRow) tokens cells ↔
      ∃ rows : List SheetRow, rows.flatMap SheetRow.tokens = tokens ∧
        rows.map SheetRow.cells = cells ∧ (∀ row ∈ rows, row.Written) ∧
          ∀ row ∈ rows, Unsigned row.tokens := by
  constructor
  · intro derivation
    induction cells generalizing tokens with
    | nil =>
        cases derivation with
        | manyNil => exact ⟨[], rfl, rfl, List.forall_mem_nil _, List.forall_mem_nil _⟩
    | cons first cells induction =>
        cases derivation with
        | @manyCons ts us _ _ _ head tail =>
            obtain ⟨rows, rfl, rfl, written, unsigned⟩ := induction tail
            obtain ⟨headWritten, headUnsigned⟩ := Derives.laterRow_iff.mp head
            exact ⟨⟨ts, first⟩ :: rows, rfl, rfl, List.forall_mem_cons.mpr ⟨headWritten, written⟩,
              List.forall_mem_cons.mpr ⟨headUnsigned, unsigned⟩⟩
  · rintro ⟨rows, rfl, rfl, written, unsigned⟩
    induction rows with
    | nil => exact .manyNil
    | cons row rows induction =>
        obtain ⟨first, later⟩ := List.forall_mem_cons.mp written
        obtain ⟨firstUnsigned, laterUnsigned⟩ := List.forall_mem_cons.mp unsigned
        exact .manyCons (Derives.laterRow_iff.mpr ⟨first, firstUnsigned⟩)
          (induction later laterUnsigned)

theorem Derives.rows_iff {opening closing : Writing} {cells : List (List Expr)} :
    Derives .contents (mark .leftBrace opening :: inside ++ [mark .rightBrace closing])
        (.rows cells) ↔
      ∃ rows, SplitsIntoRows inside rows ∧ SignedFirstOnly rows ∧
        rows.map SheetRow.cells = cells := by
  constructor
  · intro derivation
    generalize whole : mark .leftBrace opening :: inside ++ [mark .rightBrace closing] = all
      at derivation
    cases derivation with
    | @rows ts us _ _ first others head tail =>
        obtain ⟨-, whole⟩ := List.cons.inj whole
        obtain ⟨rfl, -⟩ := List.append_inj' whole rfl
        obtain ⟨later, rfl, rfl, written, unsigned⟩ := many_laterRow_iff.mp tail
        exact ⟨⟨ts, first⟩ :: later, ⟨List.cons_ne_nil _ _, rfl,
          List.forall_mem_cons.mpr ⟨head, written⟩⟩, unsigned, rfl⟩
  · rintro ⟨rows, split, plain, rfl⟩
    cases rows with
    | nil => exact absurd rfl split.nonempty
    | cons row rows =>
        obtain ⟨first, later⟩ := List.forall_mem_cons.mp split.written
        have tail := many_laterRow_iff.mpr ⟨rows, rfl, rfl, later, plain⟩
        rw [← split.whole, List.flatMap_cons]
        exact .rows first tail

end SheetLang
