import SheetLang.Proofs.Grammar.Inversions
import SheetLang.Proofs.Grammar.Openings
import SheetLang.Proofs.Parser.Steps

/-!
# Completeness of the parsers of expressions

A parser completes its nonterminal if it accepts everything that derives from
it and stops right behind it.  That takes a next token that could not go on with
the same phrase; `Nonterminal.extends` lists the kinds that could.

The depth of nesting is measured by the number of tokens of the derivation: the
expressions within an expression derive from fewer tokens than the whole.
-/

namespace SheetLang

open Grammar Parser

/-- The parser accepts what derives from the nonterminal with at most this many
tokens. -/
def Completes (A : Nonterminal) (bound : Nat) (parser : Parser A.Value) : Prop :=
  ∀ ⦃tokens value⦄ rest, Derives A tokens value → tokens.length ≤ bound → Ends A rest →
    parser (tokens ++ rest) = .ok (value, rest)

/-- The parsers of nested expressions complete what they are for. -/
structure Nested.Complete (inner : Nested) (bound : Nat) : Prop where
  comparison : Completes .comparison bound inner.comparison
  sum : Completes (.sum true) bound inner.sum
  product : Completes (.product true) bound inner.product
  argument : Completes .argument bound inner.argument

@[simp] theorem ends_nil (A : Nonterminal) : Ends A [] := by
  simp [Ends]

@[simp] theorem ends_cons {A : Nonterminal} {token : Token} {rest : List Token} :
    Ends A (token :: rest) ↔ A.extends token.kind = false := by
  simp [Ends]

theorem Ends.mono {A B : Nonterminal} (ends : Ends A rest)
    (subset : ∀ kind, B.extends kind = true → A.extends kind = true) : Ends B rest := by
  intro token member
  cases going : B.extends token.kind with
  | false => rfl
  | true =>
      have extended := subset _ going
      rw [ends token member] at extended
      cases extended

/-- A symbol that could go on with a phrase does not follow it. -/
theorem Ends.not_symbol {A : Nonterminal} (ends : Ends A rest) (symbol : Symbol)
    (going : A.extends (.symbol symbol) = true) :
    rest.head?.map Token.kind ≠ some (.symbol symbol) := by
  intro equality
  obtain ⟨token, member, kind⟩ := Option.map_eq_some_iff.mp equality
  have stopped := ends token (by simp [member])
  rw [kind, going] at stopped
  cases stopped

theorem Ends.any_symbol {A : Nonterminal} (ends : Ends A rest) (symbol : Symbol)
    (going : A.extends (.symbol symbol) = true) :
    (rest.head?.map Token.kind).any (· == .symbol symbol) = false := by
  have different := ends.not_symbol symbol going
  cases head : rest.head?.map Token.kind with
  | none => rfl
  | some kind =>
      rw [head] at different
      simpa using different

namespace Parser

theorem completes_cellRef (bound : Nat) : Completes .cell bound cellRef := by
  intro tokens value rest derivation _ ends
  cases derivation with
  | inSheet => simp [-bind_pure_comp, cellRef]
  | currentIn => simp [-bind_pure_comp, cellRef]
  | current =>
      have absent := ends.not_symbol .colon rfl
      simp [-bind_pure_comp, cellRef, optionalSymbol_run_absent absent]

/-! ## Lists -/

/-- Between two items of a list, the next one ends the one before. -/
theorem ends_of_many {A : Nonterminal} {items : List A.Value}
    (disjoint : ∀ kind, A.starts kind = true → A.extends kind = false)
    (derivation : Derives (.many A) tokens items) (ends : Ends (.many A) rest) :
    Ends A (tokens ++ rest) := by
  rcases derivation.many_opens with opens | rfl
  · obtain ⟨token, others, rfl, start⟩ := opens
    simpa using disjoint _ start
  · exact ends.mono fun kind going => by simp [Nonterminal.extends, going]

theorem completes_manyAtMost {A : Nonterminal} {starts : Token.Kind → Bool}
    {item : Parser A.Value} (completes : Completes A bound item)
    (same : starts = A.starts) (proper : A.nullable = false)
    (disjoint : ∀ kind, A.starts kind = true → A.extends kind = false)
    {items : List A.Value} (count : Nat) (derivation : Derives (.many A) tokens items)
    (short : tokens.length ≤ bound) (ends : Ends (.many A) rest)
    (enough : (tokens ++ rest).length ≤ count) :
    manyAtMost starts item count (tokens ++ rest) = .ok (items, rest) := by
  induction count generalizing tokens items with
  | zero =>
      cases derivation with
      | manyNil => rfl
      | manyCons first others =>
          have positive := first.length_pos proper
          simp only [List.length_append] at enough
          omega
  | succ count induction =>
      cases derivation with
      | manyNil =>
          have outside : (rest.head?.map Token.kind).any starts = false := by
            cases rest with
            | nil => rfl
            | cons token others =>
                simp only [ends_cons, Nonterminal.extends, Bool.or_eq_false_iff] at ends
                simpa [same] using ends.2
          simp [manyAtMost, outside]
      | @manyCons _ ts us first others firstDerives othersDerive =>
          obtain ⟨token, more, rfl, start⟩ := firstDerives.opens proper
          simp only [List.length_append, List.length_cons] at short enough
          have firstRun := completes _ firstDerives (by simp; omega)
            (ends_of_many disjoint othersDerive ends)
          have othersRun := induction othersDerive (by omega) (by simp; omega)
          unfold manyAtMost
          rw [peek_run]
          simp only [List.cons_append, List.head?_cons, Option.map_some, Option.any_some,
            same, start, ↓reduceIte]
          simp only [List.cons_append, List.append_assoc] at firstRun ⊢
          rw [bind_run firstRun, ← same, bind_run othersRun]
          rfl

theorem completes_many {A : Nonterminal} {starts : Token.Kind → Bool} {item : Parser A.Value}
    (completes : Completes A bound item) (same : starts = A.starts)
    (proper : A.nullable = false)
    (disjoint : ∀ kind, A.starts kind = true → A.extends kind = false) :
    Completes (.many A) bound (many starts item) := by
  intro tokens items rest derivation short ends
  exact completes_manyAtMost completes same proper disjoint _ derivation short ends
    (Nat.le_refl _)

/-- A comma ends the first item, and so does what ends the list. -/
theorem ends_of_moreItems {A : Nonterminal} {items : List A.Value}
    (more : MoreItems A tokens items) (disjoint : A.extends (.symbol .comma) = false)
    (ends : Ends (.separated A) rest) : Ends A (tokens ++ rest) := by
  cases more with
  | none => exact ends.mono fun kind going => by simp [Nonterminal.extends, going]
  | some _ => simpa using disjoint

theorem completes_moreItems {A : Nonterminal} {item : Parser A.Value}
    (completes : Completes A bound item) (proper : A.nullable = false)
    (disjoint : A.extends (.symbol .comma) = false)
    {items : List A.Value} (count : Nat) (more : MoreItems A tokens items)
    (short : tokens.length ≤ bound) (ends : Ends (.separated A) rest)
    (enough : (tokens ++ rest).length ≤ count) :
    manyAtMost (· == .symbol .comma) (do symbol .comma; item) count (tokens ++ rest) =
      .ok (items, rest) := by
  induction count generalizing tokens items with
  | zero =>
      cases more with
      | none => rfl
      | some others => simp at enough
  | succ count induction =>
      cases more with
      | none =>
          have outside := ends.any_symbol .comma (by simp [Nonterminal.extends])
          simp [manyAtMost, outside]
      | some derivation =>
          obtain ⟨front, back, first, others, rfl, rfl, firstDerives, moreItems⟩ :=
            derivation.separated_cases
          have positive := firstDerives.length_pos proper
          simp only [List.cons_append, List.length_cons, List.length_append] at short enough
          have firstRun := completes _ firstDerives (by omega)
            (ends_of_moreItems moreItems disjoint ends)
          have othersRun := induction moreItems (by omega) (by simp; omega)
          unfold manyAtMost
          simp only [List.cons_append, List.append_assoc, peek_run, List.head?_cons,
            Option.map_some, mark_kind, Option.any_some, beq_self_eq_true, ↓reduceIte,
            bind_assoc, symbol_run]
          rw [bind_run firstRun, bind_run othersRun]
          rfl

theorem commaSeparated_run {A : Nonterminal} {first item : Parser A.Value}
    (completes : Completes A bound item) (proper : A.nullable = false)
    (disjoint : A.extends (.symbol .comma) = false)
    {value : A.Value} {others : List A.Value}
    (firstRun : first (front ++ (back ++ rest)) = .ok (value, back ++ rest))
    (more : MoreItems A back others) (short : back.length ≤ bound)
    (ends : Ends (.separated A) rest) :
    commaSeparated first item (front ++ back ++ rest) = .ok (value :: others, rest) := by
  have othersRun : many (· == .symbol .comma) (do symbol .comma; item) (back ++ rest) =
      .ok (others, rest) :=
    completes_moreItems completes proper disjoint _ more short ends (Nat.le_refl _)
  unfold commaSeparated
  rw [List.append_assoc, bind_run firstRun, bind_run othersRun]
  rfl

theorem completes_separated {A : Nonterminal} {item : Parser A.Value}
    (completes : Completes A bound item) (proper : A.nullable = false)
    (disjoint : A.extends (.symbol .comma) = false) :
    Completes (.separated A) bound (commaSeparated item item) := by
  intro tokens items rest derivation short ends
  obtain ⟨front, back, first, others, rfl, rfl, firstDerives, more⟩ :=
    derivation.separated_cases
  simp only [List.length_append] at short
  have firstRun := completes _ firstDerives (by omega) (ends_of_moreItems more disjoint ends)
  exact commaSeparated_run completes proper disjoint firstRun more (by omega) ends

/-! ## Operands -/

inductive Subscripts : List Token → List (Int64 × Int64) → Prop where
  | nil : Subscripts [] []
  | cons : Literal.int64? columnText = some column → Literal.int64? rowText = some row →
      Subscripts more items →
      Subscripts (mark .leftBracket w :: ⟨.integer, columnText, columnLine⟩ :: mark .comma x ::
        ⟨.integer, rowText, rowLine⟩ :: mark .rightBracket y :: more) ((column, row) :: items)

theorem subscript_run (columnFits : Literal.int64? columnText = some column)
    (rowFits : Literal.int64? rowText = some row) :
    subscript (mark .leftBracket w :: ⟨.integer, columnText, columnLine⟩ :: mark .comma x ::
      ⟨.integer, rowText, rowLine⟩ :: mark .rightBracket y :: rest) =
        .ok ((column, row), rest) := by
  simp [-bind_pure_comp, subscript, integer_run columnFits, integer_run rowFits]

theorem subscripts_run (count : Nat) (subscripts : Subscripts tokens items)
    (ends : Ends .range rest) (enough : (tokens ++ rest).length ≤ count) :
    manyAtMost (· == .symbol .leftBracket) subscript count (tokens ++ rest) =
      .ok (items, rest) := by
  induction subscripts generalizing count with
  | nil =>
      cases count with
      | zero => rfl
      | succ count =>
          have outside := ends.any_symbol .leftBracket rfl
          simp [manyAtMost, outside]
  | cons columnFits rowFits subscripts induction =>
      cases count with
      | zero => simp at enough
      | succ count =>
          have othersRun := induction count (by simp at enough ⊢; omega)
          simp [-bind_pure_comp, manyAtMost, bind_run (subscript_run columnFits rowFits),
            bind_run othersRun]

section

variable {inner : Nested} {bound : Nat} (complete : inner.Complete bound)
include complete

theorem completes_call : Completes .call (bound + 1) (call inner) := by
  intro tokens value rest derivation short ends
  cases derivation with
  | callNone => simp [-bind_pure_comp, call]
  | @callSome ts opening closing function line arguments derivation =>
      simp only [List.cons_append, List.length_cons, List.length_append, List.length_nil] at short
      have absent := (derivation.opens rfl).head_ne (.symbol .rightBracket) rfl
        (mark .rightBracket closing :: rest)
      have argumentsRun := completes_separated complete.argument rfl rfl
        (mark .rightBracket closing :: rest) derivation (by omega) (ends_cons.mpr rfl)
      simp [-bind_pure_comp, call, optionalSymbol_run_absent absent, bind_run argumentsRun]

omit complete in
theorem ends_of_subscripts (subscripts : Subscripts tokens items) (ends : Ends .range rest) :
    Ends .cell (tokens ++ rest) := by
  cases subscripts with
  | nil =>
      refine ends.mono fun kind going => ?_
      simp_all [Nonterminal.extends, extendsOperand]
  | cons => exact ends_cons.mpr rfl

/-- A range is read to its last subscript, including those behind it. -/
theorem range_run (derivation : Derives .range tokens value)
    (short : tokens.length ≤ bound + 1) (subscripts : Subscripts more items)
    (ends : Ends .range rest) :
    range inner (tokens ++ (more ++ rest)) =
      .ok (items.foldl (fun range (column, row) => .part range column row) value, rest) := by
  have subscriptsRun : many (· == .symbol .leftBracket) subscript (more ++ rest) =
      .ok (items, rest) := subscripts_run _ subscripts ends (Nat.le_refl _)
  have endsCell := ends_of_subscripts subscripts ends
  cases derivation with
  | named => simp [-bind_pure_comp, range, rangeBase, bind_run subscriptsRun]
  | @span ts first us last opening dots firstDerives lastDerives =>
      have firstRun := completes_cellRef _ (mark .dots dots :: us ++ (more ++ rest)) firstDerives
        (Nat.le_refl _) (ends_cons.mpr rfl)
      have lastRun := completes_cellRef _ (more ++ rest) lastDerives (Nat.le_refl _) endsCell
      simp only [List.cons_append] at firstRun
      simp [-bind_pure_comp, range, rangeBase, bind_run firstRun, bind_run lastRun,
        bind_run subscriptsRun]
  | @callRange ts function arguments opening closing derivation =>
      simp only [List.cons_append, List.length_cons, List.length_append, List.length_nil] at short
      have callRun := completes_call complete (mark .rightBracket closing :: (more ++ rest))
        derivation (by omega) (ends_cons.mpr rfl)
      simp [-bind_pure_comp, range, rangeBase, bind_run callRun, bind_run subscriptsRun]
  | @part ts range columnText column rowText row w columnLine x rowLine y derivation columnFits
      rowFits =>
      simp only [List.length_append] at short
      have longer : Subscripts (mark .leftBracket w :: ⟨.integer, columnText, columnLine⟩ ::
          mark .comma x :: ⟨.integer, rowText, rowLine⟩ :: mark .rightBracket y :: more)
          ((column, row) :: items) := .cons columnFits rowFits subscripts
      have wholeRun := range_run derivation (by omega) longer ends
      simpa using wholeRun

theorem completes_range : Completes .range (bound + 1) (range inner) := by
  intro tokens value rest derivation short ends
  simpa using range_run complete derivation short .nil ends

theorem completes_atom : Completes (.operand false) (bound + 1) (atom inner) := by
  intro tokens value rest derivation short ends
  cases derivation with
  | name => simp [-bind_pure_comp, atom]
  | decimal => simp [-bind_pure_comp, atom]
  | callOperand derivation =>
      have callRun := completes_call complete rest derivation short fun _ _ => rfl
      unfold atom
      rw [peek_run, derivation.call_head rest]
      simp [-bind_pure_comp, bind_run callRun]
  | cellOperand derivation =>
      have cellRun := completes_cellRef _ rest derivation short (ends.mono fun kind going => by
        simp_all [Nonterminal.extends, extendsOperand])
      unfold atom
      rw [peek_run]
      rcases derivation.cell_head rest with head | head
      · simp [-bind_pure_comp, -List.head?_append, head, bind_run cellRun]
      · simp [-bind_pure_comp, -List.head?_append, head, bind_run cellRun]
  | @count ts range _ hash derivation =>
      simp only [List.length_cons] at short
      have rangeRun := completes_range complete rest derivation (by omega) ends
      simp [-bind_pure_comp, atom, bind_run rangeRun]
  | @parentheses ts value _ opening closing derivation =>
      simp only [List.cons_append, List.length_cons, List.length_append, List.length_nil] at short
      have valueRun := complete.comparison (mark .rightParen closing :: rest) derivation
        (by omega) (ends_cons.mpr rfl)
      simp [-bind_pure_comp, atom, bind_run valueRun]

theorem completes_operand : Completes (.operand true) (bound + 1) (operand inner) := by
  intro tokens value rest derivation short ends
  have endsOperand : Ends (.operand false) rest := ends.mono fun _ going => going
  rcases derivation.operand_cases with ⟨writing, us, operand, rfl, rfl, unsigned⟩ | unsigned
  · simp only [List.length_cons] at short
    have atomRun := completes_atom complete rest unsigned (by omega) endsOperand
    simp [-bind_pure_comp, Parser.operand, bind_run atomRun]
  · have atomRun := completes_atom complete rest unsigned short endsOperand
    have absent := (unsigned.opens rfl).head_ne (.symbol .minus) rfl rest
    unfold operand
    rw [optionalSymbol_run_absent absent]
    simpa using atomRun

/-! ## Chains -/

omit complete in
theorem chain_run_alone {level : Symbol → Option BinaryOperator} {operand next : Parser Expr}
    (operandRun : operand tokens = .ok (left, rest))
    (outside : ∀ token ∈ rest.head?, token.kind.operates level = false) :
    chain level operand next tokens = .ok (left, rest) := by
  have none : operator level rest = .ok (none, rest) := by
    unfold operator
    rw [peek_run]
    cases rest with
    | nil => rfl
    | cons token others =>
        obtain ⟨kind, text, line⟩ := token
        have foreign := outside _ rfl
        cases kind with
        | symbol mark =>
            simp only [Token.Kind.operates, Option.isSome_eq_false_iff,
              Option.isNone_iff_eq_none] at foreign
            simp [foreign]
        | _ => rfl
  simp [-bind_pure_comp, chain, bind_run operandRun, bind_run none]

omit complete in
theorem chain_run {level : Symbol → Option BinaryOperator} {operand next : Parser Expr}
    {symbol : Symbol} {found : BinaryOperator} {writing : Writing}
    (operandRun : operand tokens = .ok (left, mark symbol writing :: middle))
    (leveled : level symbol = some found) (nextRun : next middle = .ok (right, rest)) :
    chain level operand next tokens = .ok (.binary found left right, rest) := by
  have some : operator level (mark symbol writing :: middle) = .ok (some found, middle) := by
    simp [-bind_pure_comp, operator, leveled]
  simp [-bind_pure_comp, chain, bind_run operandRun, bind_run some, bind_run nextRun]

omit complete in
/-- A chain is read to its end if its first operand ends at every operator of
its level. -/
theorem chained_run {level : Symbol → Option BinaryOperator} {operand next : Parser Expr}
    {front back : List Token → Expr → Prop} (A : Nonterminal)
    (chained : Chained level front back tokens value) (short : tokens.length ≤ bound + 1)
    (positive : ∀ {ts left}, front ts left → 0 < ts.length)
    (operandRun : ∀ ⦃ts left⦄ more, front ts left → ts.length ≤ bound + 1 → Ends A more →
      operand (ts ++ more) = .ok (left, more))
    (nextRun : ∀ {us right}, back us right → us.length ≤ bound →
      next (us ++ rest) = .ok (right, rest))
    (disjoint : ∀ symbol, (level symbol).isSome = true → A.extends (.symbol symbol) = false)
    (ends : ∀ token ∈ rest.head?, (A.extends token.kind || token.kind.operates level) = false) :
    chain level operand next (tokens ++ rest) = .ok (value, rest) := by
  simp only [Bool.or_eq_false_iff] at ends
  cases chained with
  | alone member =>
      have run := operandRun rest member short fun token found => (ends token found).1
      exact chain_run_alone run fun token found => (ends token found).2
  | @link ts left us right symbol operator writing leveled leftMember rightMember =>
      have leftPositive := positive leftMember
      simp only [List.length_append, List.length_cons] at short
      have leftRun := operandRun (mark symbol writing :: (us ++ rest)) leftMember (by omega)
        (ends_cons.mpr (disjoint symbol (by simp [leveled])))
      have rightRun := nextRun rightMember (by omega)
      simpa using chain_run leftRun leveled rightRun

theorem completes_product {signed : Bool} {first : Parser Expr}
    (completes : Completes (.operand signed) (bound + 1) first) :
    Completes (.product signed) (bound + 1) (product inner first) := by
  intro tokens value rest derivation short ends
  refine chained_run (.operand signed) (Derives.product_iff.mp derivation) short (·.length_pos rfl)
    completes (fun right fits => complete.product rest right fits ends) ?_ ends
  intro symbol leveled
  cases symbol <;> cases leveled <;> rfl

theorem completes_sum {signed : Bool} {first : Parser Expr}
    (completes : Completes (.operand signed) (bound + 1) first) :
    Completes (.sum signed) (bound + 1) (sum inner first) := by
  intro tokens value rest derivation short ends
  refine chained_run (.product signed) (Derives.sum_iff.mp derivation) short (·.length_pos rfl)
    (completes_product complete completes)
    (fun right fits => complete.sum rest right fits ends) ?_ ends
  intro symbol leveled
  cases symbol <;> cases leveled <;> rfl

theorem completes_comparison : Completes .comparison (bound + 1) (comparison inner) := by
  intro tokens value rest derivation short ends
  refine chained_run (.sum true) (Derives.comparison_iff.mp derivation) short (·.length_pos rfl)
    (completes_sum complete (completes_operand complete))
    (fun right fits => complete.comparison rest right fits ends) ?_ ends
  intro symbol leveled
  cases symbol <;> cases leveled <;> rfl

omit complete in
/-- No scalar begins like a range. -/
theorem startsRange_of_startsComparison {kind : Token.Kind}
    (start : Nonterminal.comparison.starts kind = true) : startsRange kind = false := by
  simp only [Nonterminal.starts, Bool.or_eq_true, beq_iff_eq] at start
  rcases start with start | rfl
  · unfold startsAtom at start
    split at start
    all_goals first | rfl | cases start
  · rfl

omit complete in
/-- Only where it begins with a sheet name, an argument is told apart by a
second token. -/
theorem argument_run {token : Token} (other : token.kind ≠ .sheetName) :
    argument inner (token :: rest) =
      (if startsRange token.kind then do return .range (← range inner)
        else do return .scalar (← comparison inner) : Parser Argument) (token :: rest) := by
  obtain ⟨kind, text, line⟩ := token
  unfold argument
  rw [peek_run]
  cases kind with
  | sheetName => exact absurd rfl other
  | _ => rfl

theorem completes_argument : Completes .argument (bound + 1) (argument inner) := by
  intro tokens value rest derivation short ends
  cases derivation with
  | sheetArgument =>
      have unquoted := ends.not_symbol .quote rfl
      simp [-bind_pure_comp, argument, unquoted]
  | rangeArgument derivation =>
      have rangeRun := completes_range complete rest derivation short
        (ends.mono fun kind going => by
          simp_all [Nonterminal.extends, extendsComparison, extendsSum, extendsProduct])
      obtain ⟨token, more, rfl, start⟩ := derivation.opens rfl
      have other : token.kind ≠ .sheetName := by
        intro sheet
        rw [sheet] at start
        cases start
      have ranged : startsRange token.kind = true := start
      simp only [List.cons_append] at rangeRun ⊢
      rw [argument_run other, if_pos ranged, bind_run rangeRun]
      rfl
  | scalarArgument derivation =>
      have scalarRun := completes_comparison complete rest derivation short
        (ends.mono fun kind going => by simp_all [Nonterminal.extends])
      obtain ⟨token, more, rfl, start⟩ := derivation.opens rfl
      by_cases sheet : token.kind = .sheetName
      · obtain ⟨writing, others, rfl⟩ := derivation.comparison_quote sheet
        simp only [List.cons_append] at scalarRun ⊢
        simp [-bind_pure_comp, argument, sheet, bind_run scalarRun]
      · have scalar := startsRange_of_startsComparison start
        simp only [List.cons_append] at scalarRun ⊢
        rw [argument_run sheet, scalar, if_neg (by simp), bind_run scalarRun]
        rfl

end

end Parser

theorem Nested.complete_upTo (bound : Nat) : (Nested.upTo bound).Complete bound := by
  induction bound with
  | zero =>
      have empty {A : Nonterminal} {parser : Parser A.Value} (proper : A.nullable = false) :
          Completes A 0 parser := by
        intro tokens value rest derivation short ends
        have positive := derivation.length_pos proper
        omega
      exact ⟨empty rfl, empty rfl, empty rfl, empty rfl⟩
  | succ bound induction =>
      exact ⟨completes_comparison induction, completes_sum induction (completes_operand induction),
        completes_product induction (completes_operand induction), completes_argument induction⟩

end SheetLang
