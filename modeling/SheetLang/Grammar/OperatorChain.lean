import SheetLang.Grammar

/-!
# Operator chains

Operands with binary operators between them, and the tree that belongs to them by the
strength of the operators alone: at its root stands the first of the operators that bind
loosest, and below it the trees of the two chains to the left and to the right of it.
-/

namespace SheetLang

open Grammar

namespace BinaryOperator

def symbol : BinaryOperator → Symbol
  | equal => .equal
  | notEqual => .notEqual
  | less => .less
  | lessEqual => .lessEqual
  | greater => .greater
  | greaterEqual => .greaterEqual
  | plus => .plus
  | minus => .minus
  | times => .times
  | divide => .slash

/-- Whether an operator adds or subtracts. -/
def isAdditive : BinaryOperator → Bool
  | plus | minus => true
  | _ => false

/-- Whether an operator multiplies or divides. -/
def isMultiplicative : BinaryOperator → Bool
  | times | divide => true
  | _ => false

end BinaryOperator

/-- An operand without a sign, and perhaps a sign in front of it. -/
structure SignedOperand where
  sign : Option Writing
  unsigned : List Token
  value : Expr
  derives : Derives (.operand false) unsigned value

namespace SignedOperand

/-- The tokens of an operand with its sign. -/
def tokens (operand : SignedOperand) : List Token :=
  operand.sign.toList.map (mark .minus) ++ operand.unsigned

/-- The value of an operand, negated if there is a sign. -/
def tree (operand : SignedOperand) : Expr :=
  if operand.sign.isSome then .negate operand.value else operand.value

end SignedOperand

/-- An operator and the operand to the right of it. -/
structure OperatorChain.Link where
  operator : BinaryOperator
  writing : Writing
  operand : SignedOperand

/-- An operand, and operators with further operands behind it. -/
structure OperatorChain where
  first : SignedOperand
  links : List OperatorChain.Link

namespace OperatorChain

def Link.tokens (link : Link) : List Token :=
  mark link.operator.symbol link.writing :: link.operand.tokens

def tokens (chain : OperatorChain) : List Token :=
  chain.first.tokens ++ chain.links.flatMap Link.tokens

/-- The first link with an operator of a level, between the links before and behind it. -/
def split? (level : BinaryOperator → Bool) : List Link → Option (List Link × Link × List Link)
  | [] => none
  | link :: others =>
    if level link.operator then
      some ([], link, others)
    else
      (split? level others).map fun (before, found, behind) => (link :: before, found, behind)

/-- The links have no operator of a level. -/
def Free (level : BinaryOperator → Bool) (links : List Link) : Prop :=
  ∀ link ∈ links, level link.operator = false

@[simp] theorem free_nil {level : BinaryOperator → Bool} : Free level [] :=
  List.forall_mem_nil _

@[simp] theorem free_cons {level : BinaryOperator → Bool} {link : Link} {others : List Link} :
    Free level (link :: others) ↔ level link.operator = false ∧ Free level others :=
  List.forall_mem_cons

@[simp] theorem free_append {level : BinaryOperator → Bool} {links others : List Link} :
    Free level (links ++ others) ↔ Free level links ∧ Free level others :=
  List.forall_mem_append

/-- The link that is found has an operator of the level, and none before it has one. -/
theorem of_split?_eq_some {level : BinaryOperator → Bool} {links before behind : List Link}
    {link : Link} (found : split? level links = some (before, link, behind)) :
    links = before ++ link :: behind ∧ level link.operator = true ∧
      Free level before := by
  induction links generalizing before with
  | nil => cases found
  | cons head others induction =>
      rw [split?] at found
      split at found
      case cons.isTrue leveled =>
        cases found
        exact ⟨rfl, leveled, free_nil⟩
      case cons.isFalse other =>
        obtain ⟨⟨start, _, _⟩, later, same⟩ := Option.map_eq_some_iff.mp found
        cases same
        obtain ⟨rfl, leveled, earlier⟩ := induction later
        exact ⟨rfl, leveled, free_cons.mpr ⟨by simpa using other, earlier⟩⟩

theorem split?_eq_none_iff {level : BinaryOperator → Bool} {links : List Link} :
    split? level links = none ↔ Free level links := by
  induction links with
  | nil => simp [split?]
  | cons head others induction =>
      by_cases found : level head.operator = true <;> simp [split?, found, induction]

/-- The link with the operator at the root: the first comparison, or else the first operator
that adds or subtracts, or else the first that multiplies or divides. -/
def root? (links : List Link) : Option (List Link × Link × List Link) :=
  split? BinaryOperator.isComparison links <|> split? BinaryOperator.isAdditive links <|>
    split? BinaryOperator.isMultiplicative links

/-- The link at the root has one of the loosest operators, and the links before it none. -/
theorem root?_cases {links before behind : List Link} {link : Link}
    (found : root? links = some (before, link, behind)) :
    links = before ++ link :: behind ∧
      (link.operator.isComparison = true ∧ Free BinaryOperator.isComparison before ∨
        Free BinaryOperator.isComparison links ∧
          link.operator.isAdditive = true ∧ Free BinaryOperator.isAdditive before ∨
        Free BinaryOperator.isComparison links ∧ Free BinaryOperator.isAdditive links ∧
          link.operator.isMultiplicative = true ∧
            Free BinaryOperator.isMultiplicative before) := by
  simp only [root?, Option.orElse_eq_orElse, Option.orElse_eq_or, Option.or_eq_some_iff,
    split?_eq_none_iff] at found
  obtain comparison | ⟨noComparison, additive | ⟨noAdditive, multiplicative⟩⟩ := found
  · obtain ⟨rfl, level⟩ := of_split?_eq_some comparison
    exact ⟨rfl, .inl level⟩
  · obtain ⟨rfl, level⟩ := of_split?_eq_some additive
    exact ⟨rfl, .inr (.inl ⟨noComparison, level⟩)⟩
  · obtain ⟨rfl, level⟩ := of_split?_eq_some multiplicative
    exact ⟨rfl, .inr (.inr ⟨noComparison, noAdditive, level⟩)⟩

def tree (chain : OperatorChain) : Expr :=
  match _found : root? chain.links with
  | none => chain.first.tree
  | some (before, link, behind) =>
    .binary link.operator (tree ⟨chain.first, before⟩) (tree ⟨link.operand, behind⟩)
termination_by chain.links.length
decreasing_by
  all_goals
    rw [(root?_cases ‹root? chain.links = _›).1, List.length_append, List.length_cons]
    omega

/-- Below a comparison the first of two subtractions stands at the root. -/
example (writing : Writing) (first second third fourth last : SignedOperand) :
    tree ⟨first, [⟨.minus, writing, second⟩, ⟨.times, writing, third⟩,
        ⟨.minus, writing, fourth⟩, ⟨.less, writing, last⟩]⟩ =
      .binary .less
        (.binary .minus first.tree
          (.binary .minus (.binary .times second.tree third.tree) fourth.tree))
        last.tree := by
  cbv

end OperatorChain

end SheetLang
