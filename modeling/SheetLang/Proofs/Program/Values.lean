import SheetLang.Grammar
import SheetLang.Proofs.Program.Names

/-!
# Values of derivations

Legible tokens derive well-formed values only, by induction on the derivation: a name
is the text of one token, and a list is as long as the grammar makes it.
-/

namespace SheetLang

open Grammar

/-- What is true of the values of a nonterminal over legible tokens. -/
def Nonterminal.WellFormed : (A : Nonterminal) → A.Value → Prop
  | .program, value => Program.WellFormed value
  | .definition, value => Definition.WellFormed value
  | .variableDefinition, value => Variable.WellFormed value
  | .contents, value => SheetContents.WellFormed value
  | .laterRow, value => value ≠ [] ∧ ∀ cell ∈ value, Expr.WellFormed cell
  | .parameters, value => ∀ parameter ∈ value, Parameter.WellFormed parameter
  | .parameter, value => Parameter.WellFormed value
  | .returnType, _ => True
  | .block, value => value ≠ [] ∧ Statement.AllWellFormed value
  | .statement, value => Statement.WellFormed value
  | .call, value => IsFunctionName value.1 ∧ Argument.AllWellFormed value.2
  | .argument, value => Argument.WellFormed value
  | .range, value => RangeExpr.WellFormed value
  | .cell, value => CellRef.WellFormed value
  | .comparison, value => Expr.WellFormed value
  | .sum _, value => Expr.WellFormed value
  | .product _, value => Expr.WellFormed value
  | .operand _, value => Expr.WellFormed value
  | .many item, values => ∀ value ∈ values, item.WellFormed value
  | .separated item, values => values ≠ [] ∧ ∀ value ∈ values, item.WellFormed value

/-- Tokens that can be read in some source. -/
def Legible (tokens : List Token) : Prop :=
  ∀ token ∈ tokens, token.kind.Legible token.text.toList

theorem legible_append {front back : List Token} :
    Legible (front ++ back) ↔ Legible front ∧ Legible back :=
  List.forall_mem_append

theorem legible_cons {token : Token} {tokens : List Token} :
    Legible (token :: tokens) ↔
      token.kind.Legible token.text.toList ∧ Legible tokens :=
  List.forall_mem_cons

theorem Argument.allWellFormed_iff {arguments : List Argument} :
    Argument.AllWellFormed arguments ↔ ∀ argument ∈ arguments, argument.WellFormed := by
  induction arguments with
  | nil => simp [Argument.AllWellFormed]
  | cons first others induction => simp [Argument.AllWellFormed, induction]

theorem Statement.allWellFormed_iff {statements : List Statement} :
    Statement.AllWellFormed statements ↔ ∀ statement ∈ statements, statement.WellFormed := by
  induction statements with
  | nil => simp [Statement.AllWellFormed]
  | cons first others induction => simp [Statement.AllWellFormed, induction]

theorem Grammar.Info.wellFormed {tokens : List Token} {info : Option String}
    (derivation : Info tokens info) (legible : Legible tokens) : ∀ text ∈ info, IsInfo text := by
  cases derivation with
  | absent => simp
  | present =>
      intro text member
      cases member
      exact isInfo_of_legible (legible_cons.mp legible).1

theorem Expr.ofDecimal_of_legible {text : String}
    (legible : Token.Kind.decimal.Legible text.toList) :
    Expr.ofDecimal text = .decimal (Binary64.ofLiteral text) := by
  have shape := legible_decimal_iff.mp legible
  simp [Expr.ofDecimal, Binary64.ofLiteral?, shape]

theorem Derives.wellFormed {A : Nonterminal} {tokens : List Token} {value : A.Value}
    (derivation : Derives A tokens value) (legible : Legible tokens) : A.WellFormed value := by
  induction derivation with
  | manyNil => exact List.forall_mem_nil _
  | manyCons _ _ first others =>
      obtain ⟨front, back⟩ := legible_append.mp legible
      exact List.forall_mem_cons.mpr ⟨first front, others back⟩
  | separatedOne _ only =>
      exact ⟨List.cons_ne_nil _ _, List.forall_mem_singleton.mpr (only legible)⟩
  | separatedCons _ _ first others =>
      obtain ⟨front, back⟩ := legible_append.mp legible
      have later := others (legible_cons.mp back).2
      exact ⟨List.cons_ne_nil _ _, List.forall_mem_cons.mpr ⟨first front, later.2⟩⟩
  /- Operands -/
  | name => exact legible_ident_iff.mp (legible_cons.mp legible).1
  | decimal =>
      have read := (legible_cons.mp legible).1
      rw [Expr.ofDecimal_of_legible read]
      exact ⟨_, legible_decimal_iff.mp read, rfl⟩
  | callOperand _ call => exact call legible
  | cellOperand _ cell => exact cell legible
  | count _ range => exact range (legible_cons.mp legible).2
  | parentheses _ value =>
      obtain ⟨front, -⟩ := legible_append.mp legible
      exact value (legible_cons.mp front).2
  | negate _ value => exact value (legible_cons.mp legible).2
  | productOne _ value | sumOne _ value | comparisonOne _ value => exact value legible
  | productCons _ _ _ left right | sumCons _ _ _ left right | comparisonCons _ _ _ left right =>
      obtain ⟨front, back⟩ := legible_append.mp legible
      exact ⟨left front, right (legible_cons.mp back).2⟩
  /- Ranges, cells and calls -/
  | named => exact legible_rangeName_iff.mp (legible_cons.mp legible).1
  | span _ _ first last =>
      obtain ⟨front, back⟩ := legible_append.mp legible
      exact ⟨first (legible_cons.mp front).2, last (legible_cons.mp back).2⟩
  | callRange _ call =>
      obtain ⟨front, -⟩ := legible_append.mp legible
      exact call (legible_cons.mp front).2
  | part _ _ _ range => exact range (legible_append.mp legible).1
  | inSheet =>
      simp only [legible_cons] at legible
      exact ⟨legible_sheetName_iff.mp legible.1, legible_coordinate_iff.mp legible.2.2.1⟩
  | currentIn =>
      simp only [legible_cons] at legible
      exact legible_rangeName_iff.mp legible.2.2.1
  | current => exact True.intro
  | callNone => exact ⟨legible_funcName_iff.mp (legible_cons.mp legible).1, True.intro⟩
  | callSome _ arguments =>
      simp only [legible_append, legible_cons] at legible
      obtain ⟨⟨name, -, between⟩, -⟩ := legible
      exact ⟨legible_funcName_iff.mp name, Argument.allWellFormed_iff.mpr (arguments between).2⟩
  | scalarArgument _ value | rangeArgument _ value => exact value legible
  | sheetArgument => exact legible_sheetName_iff.mp (legible_cons.mp legible).1
  /- Statements -/
  | block _ _ first others =>
      obtain ⟨front, back⟩ := legible_append.mp legible
      exact ⟨List.cons_ne_nil _ _, first front, Statement.allWellFormed_iff.mpr (others back)⟩
  | printSheet info =>
      simp only [legible_append, legible_cons] at legible
      exact ⟨info.wellFormed legible.1.2, legible_sheetName_iff.mp legible.2.1⟩
  | printRange info _ value | printScalar info _ value =>
      simp only [legible_append, legible_cons] at legible
      exact ⟨info.wellFormed legible.1.2, value legible.2⟩
  | branchOne _ _ condition positive =>
      simp only [legible_append, legible_cons] at legible
      obtain ⟨⟨⟨-, test⟩, -, first⟩, -⟩ := legible
      obtain ⟨nonempty, inside⟩ := positive first
      exact ⟨condition test, nonempty, inside, True.intro⟩
  | branchTwo _ _ _ condition positive negative =>
      simp only [legible_append, legible_cons] at legible
      obtain ⟨⟨⟨⟨-, test⟩, -, first⟩, -, second⟩, -⟩ := legible
      obtain ⟨nonempty, inside⟩ := positive first
      exact ⟨condition test, nonempty, inside, negative second⟩
  | loop _ _ condition body =>
      simp only [legible_append, legible_cons] at legible
      obtain ⟨⟨⟨-, test⟩, -, repeated⟩, -⟩ := legible
      exact ⟨condition test, body repeated⟩
  | traverse _ _ ranges body =>
      simp only [legible_append, legible_cons] at legible
      obtain ⟨⟨⟨-, listed⟩, -, repeated⟩, -⟩ := legible
      obtain ⟨nonempty, inside⟩ := ranges listed
      exact ⟨nonempty, inside, body repeated⟩
  | callStatement _ call => exact call legible
  | returnScalar _ value | returnRange _ value => exact value (legible_cons.mp legible).2
  | assignScalar _ value =>
      simp only [legible_cons] at legible
      exact ⟨legible_ident_iff.mp legible.1, value legible.2.2⟩
  | assignCell _ _ target value =>
      simp only [legible_append, legible_cons] at legible
      exact ⟨target legible.1, value legible.2.2⟩
  | assignRange _ value =>
      simp only [legible_cons] at legible
      exact ⟨legible_rangeName_iff.mp legible.1, value legible.2.2⟩
  | assignSheet =>
      simp only [legible_cons] at legible
      exact ⟨legible_sheetName_iff.mp legible.1, legible_sheetName_iff.mp legible.2.2.1⟩
  /- Definitions -/
  | scalarPlain =>
      simp only [legible_cons] at legible
      exact ⟨legible_ident_iff.mp legible.2.1, by simp⟩
  | scalarValue _ value =>
      simp only [legible_cons] at legible
      have given : Expr.WellFormed _ := value legible.2.2.2
      exact ⟨legible_ident_iff.mp legible.2.1, by simpa using given⟩
  | rangePlain =>
      simp only [legible_cons] at legible
      exact ⟨legible_rangeName_iff.mp legible.2.1, by simp⟩
  | rangeValue _ value =>
      simp only [legible_cons] at legible
      have given : RangeExpr.WellFormed _ := value legible.2.2.2
      exact ⟨legible_rangeName_iff.mp legible.2.1, by simpa using given⟩
  | sheetPlain =>
      simp only [legible_cons] at legible
      exact ⟨legible_sheetName_iff.mp legible.2.1, by simp⟩
  | sheetValue _ contents =>
      simp only [legible_cons] at legible
      have given : SheetContents.WellFormed _ := contents legible.2.2.2
      exact ⟨legible_sheetName_iff.mp legible.2.1, by simpa using given⟩
  | rows _ _ first others =>
      simp only [legible_append, legible_cons] at legible
      obtain ⟨⟨⟨-, front⟩, back⟩, -⟩ := legible
      exact ⟨List.cons_ne_nil _ _, List.forall_mem_cons.mpr ⟨first front, others back⟩⟩
  | size => exact True.intro
  | laterRowOne _ only =>
      exact ⟨List.cons_ne_nil _ _, List.forall_mem_singleton.mpr (only legible)⟩
  | laterRowCons _ _ first others =>
      obtain ⟨front, back⟩ := legible_append.mp legible
      have later := others (legible_cons.mp back).2
      exact ⟨List.cons_ne_nil _ _, List.forall_mem_cons.mpr ⟨first front, later.2⟩⟩
  | scalarParameter => exact legible_ident_iff.mp (legible_cons.mp legible).1
  | rangeParameter => exact legible_rangeName_iff.mp (legible_cons.mp legible).1
  | sheetParameter => exact legible_sheetName_iff.mp (legible_cons.mp legible).1
  | parametersNone => exact List.forall_mem_nil _
  | parametersSome _ items =>
      obtain ⟨front, -⟩ := legible_append.mp legible
      exact (items (legible_cons.mp front).2).2
  | returnsScalar => exact True.intro
  | returnsRange => exact True.intro
  | «variable» _ definition => exact definition legible
  | function _ _ _ _ parameters _ locals body =>
      simp only [legible_append, legible_cons] at legible
      obtain ⟨⟨⟨⟨⟨-, name, formals⟩, -, -⟩, -, definitions⟩, statements⟩, -⟩ := legible
      obtain ⟨nonempty, inside⟩ := body statements
      exact ⟨legible_funcName_iff.mp name, parameters formals, locals definitions, nonempty, inside⟩
  | subroutine _ _ _ parameters locals body =>
      simp only [legible_append, legible_cons] at legible
      obtain ⟨⟨⟨⟨-, name, formals⟩, -, definitions⟩, statements⟩, -⟩ := legible
      obtain ⟨nonempty, inside⟩ := body statements
      exact ⟨legible_funcName_iff.mp name, parameters formals, locals definitions, nonempty, inside⟩
  | program _ _ definitions statements =>
      obtain ⟨front, back⟩ := legible_append.mp legible
      obtain ⟨nonempty, inside⟩ := statements back
      exact ⟨definitions front, nonempty, inside⟩

end SheetLang
