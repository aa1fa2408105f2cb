import SheetLang.Grammar.OperatorChain
import SheetLang.Proofs.Grammar.Signs
import SheetLang.Proofs.Parser.Acceptance

/-!
# Chains and the grammar

A chain of products, of sums or of comparisons derives from the nonterminal of its level with
the tree of the chain.  The operator at the root splits the tokens in two: none of the
operators to the left is of its level or of a looser one, so that the left chain belongs to
the next tighter level, and the right chain belongs to the level itself.
-/

namespace SheetLang

open Grammar

namespace BinaryOperator

theorem multiplies_symbol {operator : BinaryOperator} (level : operator.isMultiplicative = true) :
    Multiplies operator.symbol operator := by
  cases operator <;> first | constructor | cases level

theorem adds_symbol {operator : BinaryOperator} (level : operator.isAdditive = true) :
    Adds operator.symbol operator := by
  cases operator <;> first | constructor | cases level

theorem compares_symbol {operator : BinaryOperator} (level : operator.isComparison = true) :
    Compares operator.symbol operator := by
  cases operator <;> first | constructor | cases level

/-- Every operator is of one of the three levels. -/
theorem isMultiplicative_eq (operator : BinaryOperator) :
    operator.isMultiplicative = !(operator.isComparison || operator.isAdditive) := by
  cases operator <;> rfl

end BinaryOperator

theorem SignedOperand.derives_tree (operand : SignedOperand) :
    Derives (.operand true) operand.tokens operand.tree := by
  obtain ⟨_ | writing, unsigned, value, derives⟩ := operand
  · exact derives.operand_signed
  · exact .negate derives

namespace OperatorChain

variable {first : SignedOperand} {links before behind : List Link} {link : Link}

theorem tokens_append_cons :
    tokens ⟨first, before ++ link :: behind⟩ =
      tokens ⟨first, before⟩ ++
        mark link.operator.symbol link.writing :: tokens ⟨link.operand, behind⟩ := by
  simp [tokens, Link.tokens]

theorem tree_of_root? (found : root? links = some (before, link, behind)) :
    tree ⟨first, links⟩ =
      .binary link.operator (tree ⟨first, before⟩) (tree ⟨link.operand, behind⟩) := by
  rw [tree]
  split
  case h_1 none =>
    rw [found] at none
    cases none
  case h_2 some =>
    rw [found] at some
    cases some
    rfl

theorem free_append_cons {level : BinaryOperator → Bool} :
    Free level (before ++ link :: behind) ↔
      Free level before ∧ level link.operator = false ∧ Free level behind := by
  rw [free_append, free_cons]

theorem eq_nil_of_free (comparison : Free BinaryOperator.isComparison links)
    (additive : Free BinaryOperator.isAdditive links)
    (multiplicative : Free BinaryOperator.isMultiplicative links) : links = [] := by
  cases links with
  | nil => rfl
  | cons link others =>
      have level := link.operator.isMultiplicative_eq
      rw [(free_cons.mp comparison).1, (free_cons.mp additive).1,
        (free_cons.mp multiplicative).1] at level
      cases level

theorem eq_nil_of_root?_eq_none (none : root? links = none) : links = [] := by
  simp only [root?, Option.orElse_eq_orElse, Option.orElse_eq_or, Option.or_eq_none_iff,
    split?_eq_none_iff] at none
  exact eq_nil_of_free none.1 none.2.1 none.2.2

theorem derives_single : Derives (.operand true) (tokens ⟨first, []⟩) (tree ⟨first, []⟩) := by
  have alone : tree ⟨first, []⟩ = first.tree := by
    rw [tree]
    rfl
  rw [alone, tokens, List.flatMap_nil, List.append_nil]
  exact first.derives_tree

theorem derives_product (first : SignedOperand) (links : List Link)
    (noComparison : Free BinaryOperator.isComparison links)
    (noAdditive : Free BinaryOperator.isAdditive links) :
    Derives (.product true) (tokens ⟨first, links⟩) (tree ⟨first, links⟩) := by
  cases root : root? links with
  | none =>
      obtain rfl := eq_nil_of_root?_eq_none root
      exact .productOne derives_single
  | some found =>
      obtain ⟨before, link, behind⟩ := found
      rw [tree_of_root? root]
      obtain ⟨rfl, level⟩ := root?_cases root
      obtain ⟨before_noComparison, link_noComparison, behind_noComparison⟩ :=
        free_append_cons.mp noComparison
      obtain ⟨before_noAdditive, link_noAdditive, behind_noAdditive⟩ :=
        free_append_cons.mp noAdditive
      obtain ⟨comparison, -⟩ | ⟨-, additive, -⟩ | ⟨-, -, multiplicative, free⟩ := level
      · rw [link_noComparison] at comparison
        cases comparison
      · rw [link_noAdditive] at additive
        cases additive
      · obtain rfl := eq_nil_of_free before_noComparison before_noAdditive free
        rw [tokens_append_cons]
        exact .productCons (BinaryOperator.multiplies_symbol multiplicative) derives_single
          (derives_product link.operand behind behind_noComparison behind_noAdditive)
termination_by links.length

theorem derives_sum (first : SignedOperand) (links : List Link)
    (noComparison : Free BinaryOperator.isComparison links) :
    Derives (.sum true) (tokens ⟨first, links⟩) (tree ⟨first, links⟩) := by
  cases root : root? links with
  | none =>
      obtain rfl := eq_nil_of_root?_eq_none root
      exact .sumOne (.productOne derives_single)
  | some found =>
      obtain ⟨before, link, behind⟩ := found
      obtain ⟨rfl, level⟩ := root?_cases root
      obtain ⟨before_noComparison, link_noComparison, behind_noComparison⟩ :=
        free_append_cons.mp noComparison
      obtain ⟨comparison, -⟩ | ⟨-, additive, free⟩ | ⟨-, noAdditive, -⟩ := level
      · rw [link_noComparison] at comparison
        cases comparison
      · rw [tree_of_root? root, tokens_append_cons]
        exact .sumCons (BinaryOperator.adds_symbol additive)
          (derives_product first before before_noComparison free)
          (derives_sum link.operand behind behind_noComparison)
      · exact .sumOne (derives_product first _ noComparison noAdditive)
termination_by links.length

theorem derives_comparison (first : SignedOperand) (links : List Link) :
    Derives .comparison (tokens ⟨first, links⟩) (tree ⟨first, links⟩) := by
  cases root : root? links with
  | none =>
      obtain rfl := eq_nil_of_root?_eq_none root
      exact .comparisonOne (.sumOne (.productOne derives_single))
  | some found =>
      obtain ⟨before, link, behind⟩ := found
      obtain ⟨rfl, level⟩ := root?_cases root
      obtain ⟨comparison, free⟩ | ⟨noComparison, -⟩ | ⟨noComparison, -⟩ := level
      · rw [tree_of_root? root, tokens_append_cons]
        exact .comparisonCons (BinaryOperator.compares_symbol comparison)
          (derives_sum first before free) (derives_comparison link.operand behind)
      · exact .comparisonOne (derives_sum first _ noComparison)
      · exact .comparisonOne (derives_sum first _ noComparison)
termination_by links.length

end OperatorChain

/-- Wherever a scalar stands, an operator chain is read as the tree of the chain, however many
operators it has and in whichever order; so it is behind `print_scalar`. -/
theorem parse_operatorChain (chain : OperatorChain) :
    (∀ value, Derives .comparison chain.tokens value ↔ value = chain.tree) ∧
    ∀ keyword, TokenStream.parse ⟨word .printScalar keyword :: chain.tokens, none⟩ =
      .ok ⟨[], [.print none (.scalar chain.tree)]⟩ := by
  have derivation : Derives .comparison chain.tokens chain.tree :=
    OperatorChain.derives_comparison chain.first chain.links
  constructor
  · intro value
    constructor
    · intro other
      exact (other.determined rfl derivation rfl (ends_nil _) (ends_nil _)).2
    · rintro rfl
      exact derivation
  · intro keyword
    have statement : Derives .statement (word .printScalar keyword :: ([] ++ chain.tokens))
        (.print none (.scalar chain.tree)) := .printScalar .absent derivation
    have statements := Derives.block statement .manyNil
    rw [List.append_nil] at statements
    exact TokenStream.parse_eq_ok_iff.mpr ⟨.program .manyNil statements, rfl⟩

/-- A name, perhaps with a sign. -/
def SignedOperand.ofName (sign : Option Writing) (text : String) : SignedOperand :=
  ⟨sign, [⟨.ident, text, 1⟩], .name text, .name⟩

/-- The chain `-aa - bb * (cc + -dd) - #_r < -ee`. -/
def OperatorChain.mixed : OperatorChain where
  first := .ofName (some ("-", 1)) "aa"
  links :=
    [⟨.minus, ("-", 1), .ofName none "bb"⟩,
      ⟨.times, ("*", 1), {
        sign := none
        unsigned := mark .leftParen ("(", 1) ::
          ([⟨.ident, "cc", 1⟩] ++ mark .plus ("+", 1) ::
            [mark .minus ("-", 1), ⟨.ident, "dd", 1⟩]) ++ [mark .rightParen (")", 1)]
        value := .binary .plus (.name "cc") (.negate (.name "dd"))
        derives := .parentheses (.comparisonOne
          (.sumCons .plus (.productOne .name) (.sumOne (.productOne (.negate .name))))) }⟩,
      ⟨.minus, ("-", 1), {
        sign := none
        unsigned := [mark .hash ("#", 1), ⟨.rangeName, "_r", 1⟩]
        value := .count (.named "_r")
        derives := .count .named }⟩,
      ⟨.less, ("<", 1), .ofName (some ("-", 1)) "ee"⟩]

/-- Operands may have signs and parentheses, and operators of all three levels may be mixed. -/
theorem parse_operatorChain_mixed :
    let tree : Expr :=
      .binary .less
        (.binary .minus (.negate (.name "aa"))
          (.binary .minus
            (.binary .times (.name "bb") (.binary .plus (.name "cc") (.negate (.name "dd"))))
            (.count (.named "_r"))))
        (.negate (.name "ee"))
    let source := "print_scalar -aa - bb * (cc + -dd) - #_r < -ee"
    TokenStream.ofSource source =
        ⟨word .printScalar ("print_scalar", 1) :: OperatorChain.mixed.tokens, none⟩ ∧
      OperatorChain.mixed.tree = tree ∧
      Program.ofSource source = .ok ⟨[], [.print none (.scalar tree)]⟩ := by
  intro tree source
  have stream : TokenStream.ofSource source =
      ⟨word .printScalar ("print_scalar", 1) :: OperatorChain.mixed.tokens, none⟩ := by
    decide
  have read := (parse_operatorChain OperatorChain.mixed).2 ("print_scalar", 1)
  have parsed : Program.ofSource source = .ok ⟨[], [.print none (.scalar tree)]⟩ := by
    rw [Program.ofSource, stream]
    rfl
  refine ⟨stream, ?_, parsed⟩
  rw [Program.ofSource, stream, read] at parsed
  simpa only [Except.ok.injEq, Program.mk.injEq, List.cons.injEq, Statement.print.injEq,
    Argument.scalar.injEq, true_and, and_true] using parsed

end SheetLang
