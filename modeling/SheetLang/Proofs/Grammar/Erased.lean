import SheetLang.Grammar
import SheetLang.Program.Erased

/-!
# Spellings do not matter

What derives from a nonterminal still derives from it when every name, text and number in
it is written in one way, and the value is that of before without its names, texts and
numbers.  So tokens of the same kinds have the same erased value.
-/

namespace SheetLang

open Grammar

/-! ## Blank tokens -/

/-- The one text for a token of a kind.  Only a decimal literal becomes one again. -/
def Token.blankText (token : Token) : String :=
  match token.kind with
  | .integer => "0"
  | .decimal => if Shape.decimal token.text.toList then "0.0" else ""
  | _ => ""

/-- A token that shows its kind only. -/
def Token.blank (token : Token) : Token :=
  ⟨token.kind, token.blankText, 0⟩

@[simp] theorem Token.blank_mark (symbol : Symbol) (writing : Writing) :
    (mark symbol writing).blank = mark symbol ("", 0) := rfl

@[simp] theorem Token.blank_word (keyword : Keyword) (writing : Writing) :
    (word keyword writing).blank = word keyword ("", 0) := rfl

theorem Literal.int64?_blankText (text : String) (line : Nat) :
    Literal.int64? (Token.blankText ⟨.integer, text, line⟩) = some 0 := by
  have zero : Literal.int64? "0" = some 0 := by decide
  exact zero

theorem Expr.ofDecimal_blankText (text : String) (line : Nat) :
    Expr.ofDecimal (Token.blankText ⟨.decimal, text, line⟩) = (Expr.ofDecimal text).erased := by
  by_cases shape : Shape.decimal text.toList = true
  · have blank : Token.blankText ⟨.decimal, text, line⟩ = "0.0" := if_pos shape
    have zero : Binary64.ofLiteral? "0.0" = some .zero := by decide +kernel
    rw [blank, Expr.ofDecimal, zero, Expr.ofDecimal, Binary64.ofLiteral?, if_pos shape]
    rfl
  · have blank : Token.blankText ⟨.decimal, text, line⟩ = "" := if_neg shape
    have none : Binary64.ofLiteral? "" = none := rfl
    rw [blank, Expr.ofDecimal, none, Expr.ofDecimal, Binary64.ofLiteral?, if_neg shape]
    rfl

/-- The value without its names, texts and numbers. -/
def Nonterminal.erased : (A : Nonterminal) → A.Value → A.Value
  | .program, value => Program.erased value
  | .definition, value => Definition.erased value
  | .variableDefinition, value => Variable.erased value
  | .contents, value => SheetContents.erased value
  | .laterRow, value => value.map Expr.erased
  | .parameters, value => value.map Parameter.erased
  | .parameter, value => Parameter.erased value
  | .returnType, value => value
  | .block, value => Statement.erasedAll value
  | .statement, value => Statement.erased value
  | .call, value => ("", Argument.erasedAll value.2)
  | .argument, value => Argument.erased value
  | .range, value => RangeExpr.erased value
  | .cell, value => CellRef.erased value
  | .comparison, value => Expr.erased value
  | .sum _, value => Expr.erased value
  | .product _, value => Expr.erased value
  | .operand _, value => Expr.erased value
  | .many item, values => values.map item.erased
  | .separated item, values => values.map item.erased

theorem Grammar.Info.erased (info : Info tokens written) :
    Info (tokens.map Token.blank) (written.map fun _ => "") := by
  cases info with
  | absent => exact .absent
  | present => exact .present

theorem Derives.erased (derivation : Derives A tokens value) :
    Derives A (tokens.map Token.blank) (A.erased value) := by
  induction derivation with
  | separatedOne _ bare => exact .separatedOne bare
  | callOperand _ bare => exact .callOperand bare
  | cellOperand _ bare => exact .cellOperand bare
  | productOne _ bare => exact .productOne bare
  | sumOne _ bare => exact .sumOne bare
  | comparisonOne _ bare => exact .comparisonOne bare
  | scalarArgument _ bare => exact .scalarArgument bare
  | rangeArgument _ bare => exact .rangeArgument bare
  | callStatement _ bare => exact .callStatement bare
  | laterRowOne _ bare => exact .laterRowOne bare
  | «variable» _ bare => exact .variable bare
  | productCons multiplies _ _ left right =>
      simp only [List.map_append, List.map_cons, Token.blank_mark]
      exact .productCons multiplies left right
  | sumCons adds _ _ left right =>
      simp only [List.map_append, List.map_cons, Token.blank_mark]
      exact .sumCons adds left right
  | comparisonCons compares _ _ left right =>
      simp only [List.map_append, List.map_cons, Token.blank_mark]
      exact .comparisonCons compares left right
  | printSheet info | printRange info | printScalar info =>
      have bare := info.erased
      simp only [List.map_append, List.map_cons, List.map_nil, Token.blank_word]
      constructor <;> assumption
  | decimal =>
      rw [Nonterminal.erased, ← Expr.ofDecimal_blankText]
      exact .decimal
  | part _ _ _ range =>
      simp only [List.map_append, List.map_cons, List.map_nil, Token.blank_mark]
      exact .part range (Literal.int64?_blankText _ _) (Literal.int64?_blankText _ _)
  | size =>
      simp only [List.map_cons, List.map_nil, Token.blank_mark]
      exact .size (Literal.int64?_blankText _ _) (Literal.int64?_blankText _ _)
  | callSome _ arguments =>
      simp only [List.map_append, List.map_cons, List.map_nil, Token.blank_mark,
        Nonterminal.erased, Argument.erasedAll_eq_map]
      exact .callSome arguments
  | block _ _ first others =>
      rw [List.map_append, Nonterminal.erased, Statement.erasedAll_eq_map]
      exact .block first others
  -- The constructor is told by the tokens and by the erased value.
  | _ =>
      simp only [List.map_append, List.map_cons, List.map_nil, Token.blank_mark,
        Token.blank_word]
      constructor <;> assumption

end SheetLang
