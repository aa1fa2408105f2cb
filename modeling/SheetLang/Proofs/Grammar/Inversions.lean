import SheetLang.Parser.Expression
import SheetLang.Grammar

/-!
# Taking derivations apart

A list with commas is a first item and more of them, each behind a comma; the
first cell of a later row is of another kind than the cells behind it.  Chains
are a first operand, alone or with an operator of their level and the rest.  An
operand is a minus and an operand without one, or an operand without one.
-/

namespace SheetLang

open Grammar

/-- Nothing, or a comma and items with commas between them. -/
inductive MoreItems (A : Nonterminal) : List Token → List A.Value → Prop where
  | none : MoreItems A [] []
  | some {items : List A.Value} : Derives (.separated A) tokens items →
      MoreItems A (mark .comma writing :: tokens) items

theorem MoreItems.separated {A : Nonterminal} {first : A.Value} {others : List A.Value}
    (more : MoreItems A rest others) (head : Derives A front first) :
    Derives (.separated A) (front ++ rest) (first :: others) := by
  cases more with
  | none => simpa using Derives.separatedOne head
  | some items => exact .separatedCons head items

theorem MoreItems.laterRow {first : Expr} {others : List (Nonterminal.sum true).Value}
    (more : MoreItems (.sum true) rest others) (head : Derives (.sum false) front first) :
    Derives .laterRow (front ++ rest) (first :: others) := by
  cases more with
  | none => simpa using Derives.laterRowOne head
  | some items => exact .laterRowCons head items

theorem Derives.separated_cases {A : Nonterminal} {items : List A.Value}
    (derivation : Derives (.separated A) tokens items) :
    ∃ front rest first others, tokens = front ++ rest ∧ items = first :: others ∧
      Derives A front first ∧ MoreItems A rest others := by
  cases derivation with
  | separatedOne only => exact ⟨_, [], _, [], by simp, rfl, only, .none⟩
  | separatedCons first others => exact ⟨_, _, _, _, rfl, rfl, first, .some others⟩

theorem Derives.laterRow_cases {cells : List Expr}
    (derivation : Derives .laterRow tokens cells) :
    ∃ front rest first others, tokens = front ++ rest ∧ cells = first :: others ∧
      Derives (.sum false) front first ∧ MoreItems (.sum true) rest others := by
  cases derivation with
  | laterRowOne only => exact ⟨_, [], _, [], by simp, rfl, only, .none⟩
  | laterRowCons first others => exact ⟨_, _, _, _, rfl, rfl, first, .some others⟩

/-- A first operand, alone or with an operator of a level and the rest. -/
inductive Chained (level : Symbol → Option BinaryOperator)
    (front back : List Token → Expr → Prop) : List Token → Expr → Prop where
  | alone : front tokens value → Chained level front back tokens value
  | link {symbol : Symbol} {operator : BinaryOperator} {writing : Writing} :
      level symbol = some operator → front ts left → back us right →
      Chained level front back (ts ++ mark symbol writing :: us) (.binary operator left right)

theorem Derives.product_iff {signed : Bool} {value : Expr} :
    Derives (.product signed) tokens value ↔
      Chained Parser.multiplicative (Derives (.operand signed)) (Derives (.product true))
        tokens value := by
  constructor
  · intro derivation
    cases derivation with
    | productOne operand => exact .alone operand
    | productCons multiplies left right =>
        exact .link (by cases multiplies <;> rfl) left right
  · intro chained
    cases chained with
    | alone operand => exact .productOne operand
    | @link _ _ _ _ symbol _ _ leveled left right =>
        refine .productCons ?_ left right
        cases symbol <;> cases leveled <;> constructor

theorem Derives.sum_iff {signed : Bool} {value : Expr} :
    Derives (.sum signed) tokens value ↔
      Chained Parser.additive (Derives (.product signed)) (Derives (.sum true)) tokens value := by
  constructor
  · intro derivation
    cases derivation with
    | sumOne product => exact .alone product
    | sumCons adds left right => exact .link (by cases adds <;> rfl) left right
  · intro chained
    cases chained with
    | alone product => exact .sumOne product
    | @link _ _ _ _ symbol _ _ leveled left right =>
        refine .sumCons ?_ left right
        cases symbol <;> cases leveled <;> constructor

theorem Derives.comparison_iff {value : Expr} :
    Derives .comparison tokens value ↔
      Chained Parser.comparing (Derives (.sum true)) (Derives .comparison) tokens value := by
  constructor
  · intro derivation
    cases derivation with
    | comparisonOne sum => exact .alone sum
    | comparisonCons compares left right => exact .link (by cases compares <;> rfl) left right
  · intro chained
    cases chained with
    | alone sum => exact .comparisonOne sum
    | @link _ _ _ _ symbol _ _ leveled left right =>
        refine .comparisonCons ?_ left right
        cases symbol <;> cases leveled <;> constructor

theorem Derives.operand_cases (derivation : Derives (.operand true) tokens value) :
    (∃ writing rest operand, tokens = mark .minus writing :: rest ∧ value = .negate operand ∧
      Derives (.operand false) rest operand) ∨ Derives (.operand false) tokens value := by
  cases derivation with
  | name => exact .inr .name
  | decimal => exact .inr .decimal
  | callOperand call => exact .inr (.callOperand call)
  | cellOperand cell => exact .inr (.cellOperand cell)
  | count range => exact .inr (.count range)
  | parentheses inside => exact .inr (.parentheses inside)
  | negate operand => exact .inl ⟨_, _, _, rfl, rfl, operand⟩

end SheetLang
