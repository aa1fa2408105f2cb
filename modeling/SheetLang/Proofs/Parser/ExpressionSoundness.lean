import SheetLang.Proofs.Grammar.Inversions
import SheetLang.Proofs.Parser.Reading

/-!
# Soundness of the parsers of expressions

Every parser of expressions reads what derives from its nonterminal, at every
depth of nesting.
-/

namespace SheetLang

open Grammar

/-- The parsers of nested expressions read what they are for. -/
structure Nested.Sound (inner : Nested) : Prop where
  comparison : Reads inner.comparison (Derives .comparison)
  sum : Reads inner.sum (Derives (.sum true))
  product : Reads inner.product (Derives (.product true))
  argument : Reads inner.argument (Derives .argument)

namespace Parser

theorem reads_cellRef : Reads cellRef (Derives .cell) := by
  unfold cellRef
  refine .peek fun next => ?_
  split
  · refine .text fun sheet line => ?_
    refine .symbol fun quote => ?_
    refine .text fun coordinate line => ?_
    exact .pure .inSheet
  · refine .symbol fun dollar => ?_
    refine .optionalSymbol (fun colon => ?_) ?_
    · refine .text fun range line => ?_
      exact .pure .currentIn
    · exact .pure .current

theorem reads_operator {level : Symbol → Option BinaryOperator} :
    Reads (operator level) fun tokens found =>
      (∃ symbol writing operator, tokens = [mark symbol writing] ∧
          level symbol = some operator ∧ found = some operator) ∨
        tokens = [] ∧ found = none := by
  unfold operator
  refine .peek fun next => ?_
  split
  · split
    case h_1 operator leveled =>
      refine .symbol fun writing => ?_
      exact .pure (.inl ⟨_, writing, operator, rfl, leveled, rfl⟩)
    · exact .pure (.inr ⟨rfl, rfl⟩)
  · exact .pure (.inr ⟨rfl, rfl⟩)

theorem reads_chain {level : Symbol → Option BinaryOperator} {operand rest : Parser Expr}
    {front back : List Token → Expr → Prop}
    (operandReads : Reads operand front) (restReads : Reads rest back) :
    Reads (chain level operand rest) (Chained level front back) := by
  unfold chain
  refine operandReads.bind fun ts left leftMember => ?_
  refine reads_operator.bind fun tokens found taken => ?_
  rcases taken with ⟨symbol, writing, operator, rfl, leveled, rfl⟩ | ⟨rfl, rfl⟩
  · refine restReads.bind fun us right rightMember => ?_
    refine .pure ?_
    simpa using Chained.link leveled leftMember rightMember
  · refine .pure ?_
    simpa using Chained.alone leftMember

section

variable {inner : Nested} (sound : inner.Sound)
include sound

theorem reads_call : Reads (call inner) (Derives .call) := by
  unfold call
  refine .text fun function line => ?_
  refine .symbol fun opening => ?_
  refine .optionalSymbol (fun closing => ?_) ?_
  · exact .pure .callNone
  · refine (Reads.separated .argument sound.argument).bind fun _ arguments derivation => ?_
    refine .symbol fun closing => ?_
    exact .pure (.callSome derivation)

theorem reads_rangeBase : Reads (rangeBase inner) (Derives .range) := by
  unfold rangeBase
  refine .peek fun next => ?_
  split
  · refine .text fun name line => ?_
    exact .pure .named
  · refine .keyword fun range => ?_
    refine reads_cellRef.bind fun _ first firstCell => ?_
    refine .symbol fun dots => ?_
    refine reads_cellRef.bind fun _ last lastCell => ?_
    exact .pure (by simpa using Derives.span firstCell lastCell)
  · refine .symbol fun opening => ?_
    refine (reads_call sound).bind fun _ callee derivation => ?_
    obtain ⟨function, arguments⟩ := callee
    refine .symbol fun closing => ?_
    exact .pure (.callRange derivation)

omit sound in
/-- Subscripts take a range to a part of it, whatever the range is. -/
theorem reads_subscripts (bound : Nat) :
    Reads (manyAtMost (· == .symbol .leftBracket) subscript bound) fun tokens subscripts =>
      ∀ front base, Derives .range front base → Derives .range (front ++ tokens)
        (subscripts.foldl (fun range (column, row) => .part range column row) base) := by
  induction bound with
  | zero =>
      refine .pure fun front base derivation => ?_
      simpa using derivation
  | succ bound induction =>
      refine .peek fun next => ?_
      split
      · unfold subscript
        simp only [bind_assoc, pure_bind]
        refine .symbol fun opening => ?_
        refine .integer fun column columnLine columnValue columnFits => ?_
        refine .symbol fun comma => ?_
        refine .integer fun row rowLine rowValue rowFits => ?_
        refine .symbol fun closing => ?_
        refine induction.bind fun more others derives => ?_
        refine .pure fun front base derivation => ?_
        have part : Derives .range
            (front ++ [mark .leftBracket opening, ⟨.integer, column, columnLine⟩,
              mark .comma comma, ⟨.integer, row, rowLine⟩, mark .rightBracket closing])
            (.part base columnValue rowValue) := derivation.part columnFits rowFits
        simpa using derives _ _ part
      · refine .pure fun front base derivation => ?_
        simpa using derivation

theorem reads_range : Reads (range inner) (Derives .range) := by
  unfold range
  refine (reads_rangeBase sound).bind fun front base derivation => ?_
  have subscripts (bound : Nat) := @reads_subscripts bound
  have reads : Reads (many (· == .symbol .leftBracket) subscript) _ :=
    ⟨(subscripts 0).inhabited, (subscripts _).accepted, (subscripts _).rejected⟩
  refine reads.bind fun tokens items derives => ?_
  exact .pure (by simpa using derives _ _ derivation)

theorem reads_atom (signed : Bool) : Reads (atom inner) (Derives (.operand signed)) := by
  unfold atom
  refine .peek fun next => ?_
  split
  · refine .text fun name line => ?_
    exact .pure .name
  · refine .text fun literal line => ?_
    exact .pure .decimal
  · refine (reads_call sound).bind fun _ callee derivation => ?_
    obtain ⟨function, arguments⟩ := callee
    exact .pure (by simpa using Derives.callOperand derivation)
  · refine .symbol fun hash => ?_
    refine (reads_range sound).bind fun _ range derivation => ?_
    exact .pure (by simpa using Derives.count derivation)
  · refine .symbol fun opening => ?_
    refine sound.comparison.bind fun _ value derivation => ?_
    refine .symbol fun closing => ?_
    exact .pure (.parentheses derivation)
  · refine reads_cellRef.bind fun _ cell derivation => ?_
    exact .pure (by simpa using Derives.cellOperand derivation)

theorem reads_operand : Reads (operand inner) (Derives (.operand true)) := by
  unfold operand
  refine .optionalSymbol (fun minus => ?_) ?_
  · refine (reads_atom sound false).bind fun _ value derivation => ?_
    exact .pure (by simpa using Derives.negate derivation)
  · exact reads_atom sound true

theorem reads_product {signed : Bool} {first : Parser Expr}
    (reads : Reads first (Derives (.operand signed))) :
    Reads (product inner first) (Derives (.product signed)) :=
  (reads_chain reads sound.product).mono fun _ _ => Derives.product_iff.mpr

theorem reads_sum {signed : Bool} {first : Parser Expr}
    (reads : Reads first (Derives (.operand signed))) :
    Reads (sum inner first) (Derives (.sum signed)) :=
  (reads_chain (reads_product sound reads) sound.sum).mono fun _ _ => Derives.sum_iff.mpr

theorem reads_comparison : Reads (comparison inner) (Derives .comparison) :=
  (reads_chain (reads_sum sound (reads_operand sound)) sound.comparison).mono
    fun _ _ => Derives.comparison_iff.mpr

theorem reads_argument : Reads (argument inner) (Derives .argument) := by
  unfold argument
  refine .peek fun next => ?_
  split
  · refine .peekSecond fun second => ?_
    split
    · refine (reads_comparison sound).bind fun _ value derivation => ?_
      exact .pure (by simpa using Derives.scalarArgument derivation)
    · refine .text fun name line => ?_
      exact .pure .sheetArgument
  · split
    · refine (reads_range sound).bind fun _ value derivation => ?_
      exact .pure (by simpa using Derives.rangeArgument derivation)
    · refine (reads_comparison sound).bind fun _ value derivation => ?_
      exact .pure (by simpa using Derives.scalarArgument derivation)

end

end Parser

theorem Nested.sound_upTo (bound : Nat) : (Nested.upTo bound).Sound := by
  induction bound with
  | zero =>
      have product : Derives (.product true) [⟨.ident, "", 0⟩] (.name "") :=
        .productOne .name
      have comparison : Derives .comparison [⟨.ident, "", 0⟩] (.name "") :=
        .comparisonOne (.sumOne product)
      exact ⟨.reject ⟨_, _, comparison⟩, .reject ⟨_, _, .sumOne product⟩,
        .reject ⟨_, _, product⟩, .reject ⟨_, _, .scalarArgument comparison⟩⟩
  | succ bound induction =>
      exact ⟨Parser.reads_comparison induction,
        Parser.reads_sum induction (Parser.reads_operand induction),
        Parser.reads_product induction (Parser.reads_operand induction),
        Parser.reads_argument induction⟩

end SheetLang
