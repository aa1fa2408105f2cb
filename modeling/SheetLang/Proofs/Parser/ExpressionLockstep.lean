import SheetLang.Proofs.Parser.ExpressionSoundness
import SheetLang.Proofs.Parser.Lockstep

/-!
# Lockstep of the parsers of expressions

The depths to which the two parsers may nest need not be the same.  Each has to be
enough for the tokens before the place and those behind it.

An argument is the one expression that is told apart by two tokens.  Where the
first of them stands at the place, the second may differ; but then both runs pass
the place, as either argument takes the sheet name.
-/

namespace SheetLang

open Grammar

/-- The parsers of nested expressions agree. -/
structure Nested.Lockstep (stop halt : List Token) (size : Nat) (inner outer : Nested) :
    Prop where
  comparison : SheetLang.Lockstep stop halt size inner.comparison outer.comparison
  sum : SheetLang.Lockstep stop halt size inner.sum outer.sum
  product : SheetLang.Lockstep stop halt size inner.product outer.product
  argument : SheetLang.Lockstep stop halt size inner.argument outer.argument

theorem Nested.Lockstep.mono {stop halt : List Token} {size : Nat} {inner outer : Nested}
    (nested : inner.Lockstep stop halt size outer) (smaller : few ≤ size) :
    inner.Lockstep stop halt few outer :=
  ⟨nested.comparison.mono smaller, nested.sum.mono smaller, nested.product.mono smaller,
    nested.argument.mono smaller⟩

namespace Parser

variable {stop halt : List Token} {size : Nat} {inner outer : Nested}

theorem lockstep_cellRef : Lockstep stop halt size cellRef cellRef := by
  unfold cellRef
  refine .peek fun next => ?_
  split
  · refine .bind (.token _) fun _ _ => ?_
    refine .bind (.symbol _) fun _ _ => ?_
    refine .bind (.token _) fun _ _ => ?_
    exact .pure _ _
  · refine .bind (.symbol _) fun _ _ => ?_
    refine .optionalSymbol fun colon => ?_
    split
    · exact .bind (.token _) fun _ _ => .pure _ _
    · exact .pure _ _

theorem lockstep_subscript : Lockstep stop halt size subscript subscript := by
  unfold subscript
  refine .bind (.symbol _) fun _ _ => ?_
  refine .bind .integer fun _ _ => ?_
  refine .bind (.symbol _) fun _ _ => ?_
  refine .bind .integer fun _ _ => ?_
  refine .bind (.symbol _) fun _ _ => ?_
  exact .pure _ _

theorem takes_subscript : Takes subscript := by
  unfold subscript
  refine Takes.bind (takes_symbol _) fun _ => ?_
  refine shrinks_integer.bind fun _ => ?_
  refine (shrinks_symbol _).bind fun _ => ?_
  refine shrinks_integer.bind fun _ => ?_
  exact (shrinks_symbol _).bind fun _ => shrinks_pure _

section

variable (nested : inner.Lockstep stop halt size outer)
include nested

theorem lockstep_call : Lockstep stop halt (size + 1) (call inner) (call outer) := by
  unfold call
  refine .bindTaking (.token _) (takes_token _) fun _ _ => ?_
  refine .bind (.symbol _) fun _ _ => ?_
  refine .optionalSymbol fun closing => ?_
  split
  · exact .pure _ _
  · refine .bind (.commaSeparated nested.argument nested.argument) fun _ _ => ?_
    refine .bind (.symbol _) fun _ _ => ?_
    exact .pure _ _

theorem lockstep_rangeBase :
    Lockstep stop halt (size + 1) (rangeBase inner) (rangeBase outer) := by
  unfold rangeBase
  refine .peek fun next => ?_
  split
  · exact .bind (.token _) fun _ _ => .pure _ _
  · refine .bind (.keyword _) fun _ _ => ?_
    refine .bind lockstep_cellRef fun _ _ => ?_
    refine .bind (.symbol _) fun _ _ => ?_
    exact .bind lockstep_cellRef fun _ _ => .pure _ _
  · refine .bind (.symbol _) fun _ _ => ?_
    refine .bind (lockstep_call nested) fun _ _ => ?_
    refine .bind (.symbol _) fun _ _ => ?_
    exact .pure _ _

theorem lockstep_range : Lockstep stop halt (size + 1) (range inner) (range outer) := by
  unfold range
  refine .bind (lockstep_rangeBase nested) fun _ _ => ?_
  exact .bind (.many lockstep_subscript takes_subscript) fun _ _ => .pure _ _

theorem lockstep_atom : Lockstep stop halt (size + 1) (atom inner) (atom outer) := by
  unfold atom
  refine .peek fun next => ?_
  split
  · exact .bind (.token _) fun _ _ => .pure _ _
  · exact .bind (.token _) fun _ _ => .pure _ _
  · exact .bind (lockstep_call nested) fun _ _ => .pure _ _
  · refine .bind (.symbol _) fun _ _ => ?_
    exact .bind (lockstep_range nested) fun _ _ => .pure _ _
  · refine .bindTaking (.symbol _) (takes_symbol _) fun _ _ => ?_
    refine .bind nested.comparison fun _ _ => ?_
    refine .bind (.symbol _) fun _ _ => ?_
    exact .pure _ _
  · exact .bind lockstep_cellRef fun _ _ => .pure _ _

theorem lockstep_operand : Lockstep stop halt (size + 1) (operand inner) (operand outer) := by
  unfold operand
  refine .optionalSymbol fun minus => ?_
  split
  · exact .bind (lockstep_atom nested) fun _ _ => .pure _ _
  · exact lockstep_atom nested

omit nested in
theorem lockstep_chainEnd {level : Symbol → Option BinaryOperator} {rest more : Parser Expr}
    (rests : Lockstep stop halt size rest more) (left right : Expr) :
    Lockstep stop halt (size + 1)
      (do
        match ← operator level with
        | some operator => return .binary operator left (← rest)
        | none => return left)
      (do
        match ← operator level with
        | some operator => return .binary operator right (← more)
        | none => return right) := by
  refine .operator (fun found => ?_) (.pure _ _)
  exact rests.bind fun _ _ => .pure _ _

omit nested in
theorem lockstep_chain {level : Symbol → Option BinaryOperator}
    {first before rest more : Parser Expr}
    (firsts : Lockstep stop halt (size + 1) first before)
    (rests : Lockstep stop halt size rest more) :
    Lockstep stop halt (size + 1) (chain level first rest) (chain level before more) :=
  firsts.bind (lockstep_chainEnd rests)

theorem lockstep_product {first before : Parser Expr}
    (firsts : Lockstep stop halt (size + 1) first before) :
    Lockstep stop halt (size + 1) (product inner first) (product outer before) :=
  lockstep_chain firsts nested.product

theorem lockstep_sum {first before : Parser Expr}
    (firsts : Lockstep stop halt (size + 1) first before) :
    Lockstep stop halt (size + 1) (sum inner first) (sum outer before) :=
  lockstep_chain (lockstep_product nested firsts) nested.sum

theorem lockstep_comparison :
    Lockstep stop halt (size + 1) (comparison inner) (comparison outer) :=
  lockstep_chain (lockstep_sum nested (lockstep_operand nested)) nested.comparison

/-! ## Arguments -/

omit nested in
theorem eq_cons_of_head {kind : Token.Kind} (head : tokens.head?.map Token.kind = some kind) :
    ∃ token rest, tokens = token :: rest ∧ token.kind = kind := by
  cases tokens with
  | nil => cases head
  | cons token rest => exact ⟨token, rest, rfl, by simpa using head⟩

omit nested in
theorem text_takes {token : Token} {kind : Token.Kind} (same : token.kind = kind) :
    (remaining (Parser.text kind (token :: rest))).length ≤ rest.length := by
  simp [Parser.text, same, remaining]

omit nested in
theorem cellRef_takes {token : Token} (sheet : token.kind = .sheetName) :
    (remaining (cellRef (token :: rest))).length ≤ rest.length := by
  obtain ⟨kind, name, line⟩ := token
  obtain rfl : kind = .sheetName := sheet
  unfold cellRef
  rw [peek_run]
  simp only [List.head?_cons, Option.map_some, text_run]
  refine (shrinks_symbol _).bind (fun _ => ?_) rest
  exact (shrinks_token _).bind fun _ => shrinks_pure _

omit nested in
theorem chain_takes {level : Symbol → Option BinaryOperator} {first rest more : Parser Expr}
    (rests : Lockstep stop halt size rest more)
    (firsts : (remaining (first tokens)).length ≤ bound) :
    (remaining (chain level first rest tokens)).length ≤ bound :=
  Nat.le_trans (remaining_bind_le (fun left => (lockstep_chainEnd rests left left).shrinks) tokens)
    firsts

theorem comparison_takes {token : Token} (sheet : token.kind = .sheetName) :
    (remaining (comparison inner (token :: rest))).length ≤ rest.length := by
  have atomTakes : (remaining (atom inner (token :: rest))).length ≤ rest.length := by
    unfold atom
    rw [peek_run]
    simp only [List.head?_cons, Option.map_some, sheet]
    exact Nat.le_trans (remaining_bind_le (fun _ => shrinks_pure _) _) (cellRef_takes sheet)
  have operandTakes : (remaining (operand inner (token :: rest))).length ≤ rest.length := by
    unfold operand
    rw [optionalSymbol_run_absent (by simp [sheet])]
    simpa using atomTakes
  exact chain_takes nested.comparison (chain_takes nested.sum
    (chain_takes nested.product operandTakes))

theorem lockstep_argument (shrinks : Shrinks (argument inner)) :
    Lockstep stop halt (size + 1) (argument inner) (argument outer) := by
  refine ⟨shrinks, fun {tokens others} aligned short => ?_⟩
  unfold argument
  rw [peek_run, peek_run, ← aligned.head_eq]
  generalize head : tokens.head?.map Token.kind = kind
  split
  · obtain ⟨token, rest, rfl, sheet⟩ := eq_cons_of_head head
    refine Agree.peekSecond aligned (fun second => ?_) fun second => ?_
    · refine Nat.lt_succ_of_le ?_
      split
      · exact Nat.le_trans (remaining_bind_le (fun _ => shrinks_pure _) _)
          (comparison_takes nested sheet)
      · exact Nat.le_trans (remaining_bind_le (fun _ => shrinks_pure _) _) (text_takes sheet)
    · refine Lockstep.agree ?_ aligned short
      split
      · exact .bind (lockstep_comparison nested) fun _ _ => .pure _ _
      · exact .bind (.token _) fun _ _ => .pure _ _
  · refine Lockstep.agree ?_ aligned short
    split
    · exact .bind (lockstep_range nested) fun _ _ => .pure _ _
    · exact .bind (lockstep_comparison nested) fun _ _ => .pure _ _

end

end Parser

private theorem Nested.lockstep_of_small {stop halt : List Token} {size : Nat}
    (bound limit : Nat) (small : size = 0 ∨ size + stop.length ≤ 1 ∨ size + halt.length ≤ 1) :
    (Nested.upTo bound).Lockstep stop halt size (Nested.upTo limit) := by
  have sound := Nested.sound_upTo bound
  have otherSound := Nested.sound_upTo limit
  refine ⟨?_, ?_, ?_, ?_⟩
  · exact .of_reads .comparison sound.comparison otherSound.comparison rfl small
  · exact .of_reads (.sum true) sound.sum otherSound.sum rfl small
  · exact .of_reads (.product true) sound.product otherSound.product rfl small
  · exact .of_reads .argument sound.argument otherSound.argument rfl small

/-- Bounds that are enough for the tokens make no difference. -/
theorem Nested.lockstep_upTo {stop halt : List Token} (size bound limit : Nat)
    (enough : size + stop.length ≤ bound + 1) (sufficient : size + halt.length ≤ limit + 1) :
    (Nested.upTo bound).Lockstep stop halt size (Nested.upTo limit) := by
  induction size generalizing bound limit with
  | zero => exact lockstep_of_small _ _ (.inl rfl)
  | succ size induction =>
      cases bound with
      | zero => exact lockstep_of_small _ _ (.inr (.inl (by omega)))
      | succ bound =>
          cases limit with
          | zero => exact lockstep_of_small _ _ (.inr (.inr (by omega)))
          | succ limit =>
              have nested := induction bound limit (by omega) (by omega)
              have argumentReads := (Nested.sound_upTo (bound + 1)).argument
              exact ⟨Parser.lockstep_comparison nested,
                Parser.lockstep_sum nested (Parser.lockstep_operand nested),
                Parser.lockstep_product nested (Parser.lockstep_operand nested),
                Parser.lockstep_argument nested argumentReads.shrinks⟩

end SheetLang
