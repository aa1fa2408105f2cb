import SheetLang.Proofs.Literal
import SheetLang.Proofs.Program.Values

/-!
# Every well-formed tree can be written

For each well-formed tree there are legible tokens that derive it, by recursion on the
tree.  Operations are put in parentheses, which makes an operand of every expression;
so a row never opens with a sign, and no operator takes part of its neighbour's operand.
-/

namespace SheetLang

open Grammar

/-- A symbol, a reserved word and a name or literal on the first line. -/
abbrev sign (symbol : Symbol) : Token :=
  mark symbol (symbol.text, 1)

@[inherit_doc sign] abbrev reserved (keyword : Keyword) : Token :=
  word keyword (keyword.text, 1)

@[inherit_doc sign] abbrev spelled (kind : Token.Kind) (text : String) : Token :=
  ⟨kind, text, 1⟩

/-- A token on the first line that can be read in some source. -/
def Token.Plain (token : Token) : Prop :=
  token.line = 1 ∧ token.kind.Legible token.text.toList

def Plain (tokens : List Token) : Prop :=
  ∀ token ∈ tokens, token.Plain

@[simp] theorem plain_nil : Plain [] :=
  List.forall_mem_nil _

@[simp] theorem plain_cons {token : Token} {tokens : List Token} :
    Plain (token :: tokens) ↔ token.Plain ∧ Plain tokens :=
  List.forall_mem_cons

@[simp] theorem plain_append {front back : List Token} :
    Plain (front ++ back) ↔ Plain front ∧ Plain back :=
  List.forall_mem_append

@[simp] theorem plain_sign (symbol : Symbol) : (sign symbol).Plain :=
  ⟨rfl, legible_symbol symbol⟩

@[simp] theorem plain_reserved (keyword : Keyword) : (reserved keyword).Plain :=
  ⟨rfl, legible_keyword keyword⟩

theorem plain_spelled {kind : Token.Kind} {text : String} (legible : kind.Legible text.toList) :
    (spelled kind text).Plain :=
  ⟨rfl, legible⟩

/-- Some plain tokens derive a value. -/
def Written (A : Nonterminal) (value : A.Value) : Prop :=
  ∃ tokens, Derives A tokens value ∧ Plain tokens

namespace Written

/-! ## Lists -/

theorem many {item : Nonterminal} {values : List item.Value}
    (written : ∀ value ∈ values, Written item value) : Written (.many item) values := by
  induction values with
  | nil => exact ⟨[], .manyNil, plain_nil⟩
  | cons first others induction =>
      obtain ⟨firstWritten, othersWritten⟩ := List.forall_mem_cons.mp written
      obtain ⟨front, derivation, plain⟩ := firstWritten
      obtain ⟨back, later, othersPlain⟩ := induction othersWritten
      exact ⟨_, .manyCons derivation later, plain_append.mpr ⟨plain, othersPlain⟩⟩

theorem separated {item : Nonterminal} {values : List item.Value} (nonempty : values ≠ [])
    (written : ∀ value ∈ values, Written item value) : Written (.separated item) values := by
  induction values with
  | nil => exact absurd rfl nonempty
  | cons first others induction =>
      obtain ⟨firstWritten, othersWritten⟩ := List.forall_mem_cons.mp written
      obtain ⟨front, derivation, plain⟩ := firstWritten
      cases others with
      | nil => exact ⟨front, .separatedOne derivation, plain⟩
      | cons second others =>
          obtain ⟨back, later, othersPlain⟩ := induction (List.cons_ne_nil _ _) othersWritten
          refine ⟨front ++ sign .comma :: back, .separatedCons derivation later, ?_⟩
          simp [plain, othersPlain]

/-! ## Expressions -/

variable {signed : Bool} {expression left right : Expr}

theorem product (written : Written (.operand signed) expression) :
    Written (.product signed) expression := by
  obtain ⟨tokens, derivation, plain⟩ := written
  exact ⟨tokens, .productOne derivation, plain⟩

theorem sum (written : Written (.operand signed) expression) :
    Written (.sum signed) expression := by
  obtain ⟨tokens, derivation, plain⟩ := written.product
  exact ⟨tokens, .sumOne derivation, plain⟩

theorem comparison (written : Written (.operand true) expression) :
    Written .comparison expression := by
  obtain ⟨tokens, derivation, plain⟩ := written.sum
  exact ⟨tokens, .comparisonOne derivation, plain⟩

theorem parentheses (written : Written .comparison expression) :
    Written (.operand signed) expression := by
  obtain ⟨tokens, derivation, plain⟩ := written
  refine ⟨sign .leftParen :: tokens ++ [sign .rightParen], .parentheses derivation, ?_⟩
  simp [plain]

theorem negate (written : Written (.operand false) expression) :
    Written (.operand signed) (.negate expression) := by
  obtain ⟨tokens, derivation, plain⟩ := written
  apply parentheses
  apply comparison
  refine ⟨sign .minus :: tokens, .negate derivation, ?_⟩
  simp [plain]

/-- An operation in parentheses, whichever the operator. -/
theorem binary (operator : BinaryOperator) (leftWritten : Written (.operand true) left)
    (rightWritten : Written (.operand true) right) :
    Written (.operand signed) (.binary operator left right) := by
  apply parentheses
  have compared {symbol : Symbol} (compares : Compares symbol operator) :
      Written .comparison (.binary operator left right) := by
    obtain ⟨leftTokens, leftDerivation, leftPlain⟩ := leftWritten.sum
    obtain ⟨rightTokens, rightDerivation, rightPlain⟩ := rightWritten.comparison
    refine ⟨leftTokens ++ sign symbol :: rightTokens,
      .comparisonCons compares leftDerivation rightDerivation, ?_⟩
    simp [leftPlain, rightPlain]
  have added {symbol : Symbol} (adds : Adds symbol operator) :
      Written .comparison (.binary operator left right) := by
    obtain ⟨leftTokens, leftDerivation, leftPlain⟩ := leftWritten.product
    obtain ⟨rightTokens, rightDerivation, rightPlain⟩ := rightWritten.sum
    refine ⟨leftTokens ++ sign symbol :: rightTokens,
      .comparisonOne (.sumCons adds leftDerivation rightDerivation), ?_⟩
    simp [leftPlain, rightPlain]
  have multiplied {symbol : Symbol} (multiplies : Multiplies symbol operator) :
      Written .comparison (.binary operator left right) := by
    obtain ⟨leftTokens, leftDerivation, leftPlain⟩ := leftWritten
    obtain ⟨rightTokens, rightDerivation, rightPlain⟩ := rightWritten.product
    refine ⟨leftTokens ++ sign symbol :: rightTokens,
      .comparisonOne (.sumOne (.productCons multiplies leftDerivation rightDerivation)), ?_⟩
    simp [leftPlain, rightPlain]
  cases operator with
  | equal => exact compared .equal
  | notEqual => exact compared .notEqual
  | less => exact compared .less
  | lessEqual => exact compared .lessEqual
  | greater => exact compared .greater
  | greaterEqual => exact compared .greaterEqual
  | plus => exact added .plus
  | minus => exact added .minus
  | times => exact multiplied .times
  | divide => exact multiplied .divide

/-! ## Cells, calls and ranges -/

theorem cell {cell : CellRef} (wellFormed : cell.WellFormed) : Written .cell cell := by
  cases cell with
  | inSheet sheet coordinate =>
      have sheetPlain := plain_spelled (legible_sheetName_iff.mpr wellFormed.1)
      have coordinatePlain := plain_spelled (legible_coordinate_iff.mpr wellFormed.2)
      refine ⟨[spelled .sheetName sheet, sign .quote, spelled .coordinate coordinate], .inSheet, ?_⟩
      simp [sheetPlain, coordinatePlain]
  | currentIn range =>
      have rangePlain := plain_spelled (legible_rangeName_iff.mpr wellFormed)
      refine ⟨[sign .dollar, sign .colon, spelled .rangeName range], .currentIn, ?_⟩
      simp [rangePlain]
  | current => exact ⟨[sign .dollar], .current, by simp⟩

theorem call {function : String} {arguments : List Argument} (named : IsFunctionName function)
    (written : ∀ argument ∈ arguments, Written .argument argument) :
    Written .call (function, arguments) := by
  have functionPlain := plain_spelled (legible_funcName_iff.mpr named)
  cases arguments with
  | nil =>
      refine ⟨[spelled .funcName function, sign .leftBracket, sign .rightBracket], .callNone, ?_⟩
      simp [functionPlain]
  | cons first others =>
      obtain ⟨tokens, derivation, plain⟩ :=
        @separated .argument (first :: others) (List.cons_ne_nil _ _) written
      refine ⟨spelled .funcName function :: sign .leftBracket :: tokens ++ [sign .rightBracket],
        .callSome derivation, ?_⟩
      simp [functionPlain, plain]

end Written

mutual

/-- An expression is written as one operand, with a sign only in parentheses. -/
theorem Expr.written (expression : Expr) (wellFormed : expression.WellFormed) (signed : Bool) :
    Written (.operand signed) expression := by
  cases expression with
  | name name =>
      have namePlain := plain_spelled (legible_ident_iff.mpr wellFormed)
      exact ⟨[spelled .ident name], .name, by simp [namePlain]⟩
  | decimal value =>
      obtain ⟨text, shape, rfl⟩ := wellFormed
      have legible := legible_decimal_iff.mpr shape
      rw [← Expr.ofDecimal_of_legible legible]
      exact ⟨[spelled .decimal text], .decimal, by simp [plain_spelled legible]⟩
  | call function arguments =>
      obtain ⟨named, inside⟩ := wellFormed
      obtain ⟨tokens, derivation, plain⟩ :=
        Written.call named (Argument.allWritten arguments inside)
      exact ⟨tokens, .callOperand derivation, plain⟩
  | cell cell =>
      obtain ⟨tokens, derivation, plain⟩ := Written.cell wellFormed
      exact ⟨tokens, .cellOperand derivation, plain⟩
  | count range =>
      obtain ⟨tokens, derivation, plain⟩ := RangeExpr.written range wellFormed
      exact ⟨sign .hash :: tokens, .count derivation, by simp [plain]⟩
  | binary operator left right =>
      exact Written.binary operator (Expr.written left wellFormed.1 true)
        (Expr.written right wellFormed.2 true)
  | negate operand => exact Written.negate (Expr.written operand wellFormed false)

theorem RangeExpr.written (range : RangeExpr) (wellFormed : range.WellFormed) :
    Written .range range := by
  cases range with
  | named name =>
      have namePlain := plain_spelled (legible_rangeName_iff.mpr wellFormed)
      exact ⟨[spelled .rangeName name], .named, by simp [namePlain]⟩
  | span first last =>
      obtain ⟨front, firstDerivation, firstPlain⟩ := Written.cell wellFormed.1
      obtain ⟨back, lastDerivation, lastPlain⟩ := Written.cell wellFormed.2
      refine ⟨reserved .range :: front ++ sign .dots :: back,
        .span firstDerivation lastDerivation, ?_⟩
      simp [firstPlain, lastPlain]
  | call function arguments =>
      obtain ⟨named, inside⟩ := wellFormed
      obtain ⟨tokens, derivation, plain⟩ :=
        Written.call named (Argument.allWritten arguments inside)
      refine ⟨sign .leftBracket :: tokens ++ [sign .rightBracket], .callRange derivation, ?_⟩
      simp [plain]
  | part range column row =>
      obtain ⟨tokens, derivation, plain⟩ := RangeExpr.written range wellFormed
      obtain ⟨columnText, columnShape, columnValue⟩ := Literal.exists_int64 column
      obtain ⟨rowText, rowShape, rowValue⟩ := Literal.exists_int64 row
      have columnPlain := plain_spelled (legible_integer_iff.mpr columnShape)
      have rowPlain := plain_spelled (legible_integer_iff.mpr rowShape)
      refine ⟨tokens ++ [sign .leftBracket, spelled .integer columnText, sign .comma,
        spelled .integer rowText, sign .rightBracket], .part derivation columnValue rowValue, ?_⟩
      simp [plain, columnPlain, rowPlain]

theorem Argument.written (argument : Argument) (wellFormed : argument.WellFormed) :
    Written .argument argument := by
  cases argument with
  | scalar value =>
      obtain ⟨tokens, derivation, plain⟩ := (Expr.written value wellFormed true).comparison
      exact ⟨tokens, .scalarArgument derivation, plain⟩
  | range value =>
      obtain ⟨tokens, derivation, plain⟩ := RangeExpr.written value wellFormed
      exact ⟨tokens, .rangeArgument derivation, plain⟩
  | sheet name =>
      have namePlain := plain_spelled (legible_sheetName_iff.mpr wellFormed)
      exact ⟨[spelled .sheetName name], .sheetArgument, by simp [namePlain]⟩

theorem Argument.allWritten (arguments : List Argument)
    (wellFormed : Argument.AllWellFormed arguments) :
    ∀ argument ∈ arguments, Written .argument argument := by
  cases arguments with
  | nil => exact List.forall_mem_nil _
  | cons first others =>
      exact List.forall_mem_cons.mpr
        ⟨Argument.written first wellFormed.1, Argument.allWritten others wellFormed.2⟩

end

/-! ## Statements -/

theorem Written.block {statements : List Statement} (nonempty : statements ≠ [])
    (written : ∀ statement ∈ statements, Written .statement statement) :
    Written .block statements := by
  cases statements with
  | nil => exact absurd rfl nonempty
  | cons first others =>
      obtain ⟨firstWritten, othersWritten⟩ := List.forall_mem_cons.mp written
      obtain ⟨front, derivation, plain⟩ := firstWritten
      obtain ⟨back, later, othersPlain⟩ := @Written.many .statement others othersWritten
      exact ⟨front ++ back, .block derivation later, plain_append.mpr ⟨plain, othersPlain⟩⟩

/-- An info string is written between exclamation marks. -/
theorem exists_info (info : Option String) (wellFormed : ∀ text ∈ info, IsInfo text) :
    ∃ tokens, Info tokens info ∧ Plain tokens := by
  cases info with
  | none => exact ⟨[], .absent, plain_nil⟩
  | some text =>
      have inside := wellFormed text rfl
      have legible : Token.Kind.info.Legible
          (String.ofList ('!' :: text.toList ++ ['!'])).toList := by
        rw [String.toList_ofList, legible_info_iff, String.ofList_toList]
        exact inside
      have present := @Info.present (String.ofList ('!' :: text.toList ++ ['!'])) 1
      have between : (((String.ofList ('!' :: text.toList ++ ['!'])).toList.drop 1).dropLast) =
          text.toList := by
        simp
      rw [between, String.ofList_toList] at present
      exact ⟨_, present, plain_cons.mpr ⟨plain_spelled legible, plain_nil⟩⟩

theorem Written.print {info : Option String} {argument : Argument}
    (infoWellFormed : ∀ text ∈ info, IsInfo text) (wellFormed : argument.WellFormed) :
    Written .statement (.print info argument) := by
  obtain ⟨infoTokens, infoDerivation, infoPlain⟩ := exists_info info infoWellFormed
  cases argument with
  | scalar value =>
      obtain ⟨tokens, derivation, plain⟩ := (Expr.written value wellFormed true).comparison
      refine ⟨reserved .printScalar :: infoTokens ++ tokens,
        .printScalar infoDerivation derivation, ?_⟩
      simp [infoPlain, plain]
  | range value =>
      obtain ⟨tokens, derivation, plain⟩ := RangeExpr.written value wellFormed
      refine ⟨reserved .printRange :: infoTokens ++ tokens,
        .printRange infoDerivation derivation, ?_⟩
      simp [infoPlain, plain]
  | sheet name =>
      have namePlain := plain_spelled (legible_sheetName_iff.mpr wellFormed)
      refine ⟨reserved .printSheet :: infoTokens ++ [spelled .sheetName name],
        .printSheet infoDerivation, ?_⟩
      simp [infoPlain, namePlain]

mutual

theorem Statement.written (statement : Statement) (wellFormed : statement.WellFormed) :
    Written .statement statement := by
  cases statement with
  | print info argument => exact Written.print wellFormed.1 wellFormed.2
  | branch condition positive negative =>
      obtain ⟨conditionWellFormed, nonempty, inside, otherwise⟩ := wellFormed
      obtain ⟨test, testDerivation, testPlain⟩ :=
        (Expr.written condition conditionWellFormed true).comparison
      obtain ⟨first, firstDerivation, firstPlain⟩ :=
        Written.block nonempty (Statement.allWritten positive inside)
      have second := Statement.elseWritten negative otherwise
      cases negative with
      | none =>
          refine ⟨reserved .«if» :: test ++ reserved .«then» :: first ++ [reserved .endif],
            .branchOne testDerivation firstDerivation, ?_⟩
          simp [testPlain, firstPlain]
      | some body =>
          obtain ⟨second, secondDerivation, secondPlain⟩ := second body rfl
          refine ⟨reserved .«if» :: test ++ reserved .«then» :: first ++
            reserved .«else» :: second ++ [reserved .endif],
            .branchTwo testDerivation firstDerivation secondDerivation, ?_⟩
          simp [testPlain, firstPlain, secondPlain]
  | loop condition body =>
      obtain ⟨conditionWellFormed, nonempty, inside⟩ := wellFormed
      obtain ⟨test, testDerivation, testPlain⟩ :=
        (Expr.written condition conditionWellFormed true).comparison
      obtain ⟨tokens, derivation, plain⟩ :=
        Written.block nonempty (Statement.allWritten body inside)
      refine ⟨reserved .«while» :: test ++ reserved .«do» :: tokens ++ [reserved .done],
        .loop testDerivation derivation, ?_⟩
      simp [testPlain, plain]
  | traverse ranges body =>
      obtain ⟨rangesNonempty, rangesWellFormed, nonempty, inside⟩ := wellFormed
      have rangesWritten : ∀ range ∈ ranges, Written .range range := by
        intro range member
        exact RangeExpr.written range (rangesWellFormed range member)
      obtain ⟨listed, listedDerivation, listedPlain⟩ :=
        @Written.separated .range ranges rangesNonempty rangesWritten
      obtain ⟨tokens, derivation, plain⟩ :=
        Written.block nonempty (Statement.allWritten body inside)
      refine ⟨reserved .«for» :: listed ++ reserved .«do» :: tokens ++ [reserved .done],
        .traverse listedDerivation derivation, ?_⟩
      simp [listedPlain, plain]
  | call subroutine arguments =>
      obtain ⟨named, inside⟩ := wellFormed
      obtain ⟨tokens, derivation, plain⟩ :=
        Written.call named (Argument.allWritten arguments inside)
      exact ⟨tokens, .callStatement derivation, plain⟩
  | returnScalar value =>
      obtain ⟨tokens, derivation, plain⟩ := (Expr.written value wellFormed true).comparison
      exact ⟨reserved .«return» :: tokens, .returnScalar derivation, by simp [plain]⟩
  | returnRange value =>
      obtain ⟨tokens, derivation, plain⟩ := RangeExpr.written value wellFormed
      exact ⟨reserved .«return» :: tokens, .returnRange derivation, by simp [plain]⟩
  | assignScalar target value =>
      have targetPlain := plain_spelled (legible_ident_iff.mpr wellFormed.1)
      obtain ⟨tokens, derivation, plain⟩ := (Expr.written value wellFormed.2 true).comparison
      refine ⟨spelled .ident target :: sign .assign :: tokens, .assignScalar derivation, ?_⟩
      simp [targetPlain, plain]
  | assignCell target value =>
      obtain ⟨front, targetDerivation, targetPlain⟩ := Written.cell wellFormed.1
      obtain ⟨tokens, derivation, plain⟩ := (Expr.written value wellFormed.2 true).comparison
      refine ⟨front ++ sign .assign :: tokens, .assignCell targetDerivation derivation, ?_⟩
      simp [targetPlain, plain]
  | assignRange target value =>
      have targetPlain := plain_spelled (legible_rangeName_iff.mpr wellFormed.1)
      obtain ⟨tokens, derivation, plain⟩ := RangeExpr.written value wellFormed.2
      refine ⟨spelled .rangeName target :: sign .assign :: tokens, .assignRange derivation, ?_⟩
      simp [targetPlain, plain]
  | assignSheet target source =>
      have targetPlain := plain_spelled (legible_sheetName_iff.mpr wellFormed.1)
      have sourcePlain := plain_spelled (legible_sheetName_iff.mpr wellFormed.2)
      refine ⟨[spelled .sheetName target, sign .assign, spelled .sheetName source],
        .assignSheet, ?_⟩
      simp [targetPlain, sourcePlain]

theorem Statement.allWritten (statements : List Statement)
    (wellFormed : Statement.AllWellFormed statements) :
    ∀ statement ∈ statements, Written .statement statement := by
  cases statements with
  | nil => exact List.forall_mem_nil _
  | cons first others =>
      exact List.forall_mem_cons.mpr
        ⟨Statement.written first wellFormed.1, Statement.allWritten others wellFormed.2⟩

theorem Statement.elseWritten (negative : Option (List Statement))
    (wellFormed : Statement.ElseWellFormed negative) : ∀ body ∈ negative, Written .block body := by
  intro body member
  cases negative with
  | none => cases member
  | some statements =>
      cases member
      exact Written.block wellFormed.1 (Statement.allWritten body wellFormed.2)

end

/-! ## Definitions -/

namespace Written

/-- A row after the first opens with an operand, which has no sign. -/
theorem laterRow {row : List Expr} (nonempty : row ≠ [])
    (wellFormed : ∀ cell ∈ row, Expr.WellFormed cell) : Written .laterRow row := by
  cases row with
  | nil => exact absurd rfl nonempty
  | cons first others =>
      obtain ⟨firstWellFormed, othersWellFormed⟩ := List.forall_mem_cons.mp wellFormed
      obtain ⟨front, derivation, plain⟩ := (Expr.written first firstWellFormed false).sum
      cases others with
      | nil => exact ⟨front, .laterRowOne derivation, plain⟩
      | cons second others =>
          have othersWritten : ∀ cell ∈ second :: others, Written (.sum true) cell := by
            intro cell member
            exact (Expr.written cell (othersWellFormed cell member) true).sum
          obtain ⟨back, later, othersPlain⟩ :=
            @separated (.sum true) (second :: others) (List.cons_ne_nil _ _) othersWritten
          refine ⟨front ++ sign .comma :: back, .laterRowCons derivation later, ?_⟩
          simp [plain, othersPlain]

theorem contents {contents : SheetContents} (wellFormed : contents.WellFormed) :
    Written .contents contents := by
  cases contents with
  | rows table =>
      obtain ⟨nonempty, rowsWellFormed⟩ := wellFormed
      cases table with
      | nil => exact absurd rfl nonempty
      | cons first others =>
          obtain ⟨⟨firstNonempty, firstWellFormed⟩, othersWellFormed⟩ :=
            List.forall_mem_cons.mp rowsWellFormed
          have firstWritten : ∀ cell ∈ first, Written (.sum true) cell := by
            intro cell member
            exact (Expr.written cell (firstWellFormed cell member) true).sum
          have othersWritten : ∀ row ∈ others, Written .laterRow row := by
            intro row member
            obtain ⟨rowNonempty, rowWellFormed⟩ := othersWellFormed row member
            exact laterRow rowNonempty rowWellFormed
          obtain ⟨front, derivation, plain⟩ :=
            @separated (.sum true) first firstNonempty firstWritten
          obtain ⟨back, later, othersPlain⟩ := @many .laterRow others othersWritten
          refine ⟨sign .leftBrace :: front ++ back ++ [sign .rightBrace],
            .rows derivation later, ?_⟩
          simp [plain, othersPlain]
  | size width height =>
      obtain ⟨widthText, widthShape, widthValue⟩ := Literal.exists_int64 width
      obtain ⟨heightText, heightShape, heightValue⟩ := Literal.exists_int64 height
      have widthPlain := plain_spelled (legible_integer_iff.mpr widthShape)
      have heightPlain := plain_spelled (legible_integer_iff.mpr heightShape)
      refine ⟨[spelled .integer widthText, sign .times, spelled .integer heightText],
        .size widthValue heightValue, ?_⟩
      simp [widthPlain, heightPlain]

theorem variableDefinition {definition : Variable} (wellFormed : definition.WellFormed) :
    Written .variableDefinition definition := by
  cases definition with
  | scalar name value =>
      have namePlain := plain_spelled (legible_ident_iff.mpr wellFormed.1)
      cases value with
      | none =>
          refine ⟨[reserved .scalar, spelled .ident name], .scalarPlain, ?_⟩
          simp [namePlain]
      | some value =>
          obtain ⟨tokens, derivation, plain⟩ :=
            (Expr.written value (wellFormed.2 value rfl) true).comparison
          refine ⟨reserved .scalar :: spelled .ident name :: sign .equal :: tokens,
            .scalarValue derivation, ?_⟩
          simp [namePlain, plain]
  | range name value =>
      have namePlain := plain_spelled (legible_rangeName_iff.mpr wellFormed.1)
      cases value with
      | none =>
          refine ⟨[reserved .range, spelled .rangeName name], .rangePlain, ?_⟩
          simp [namePlain]
      | some value =>
          obtain ⟨tokens, derivation, plain⟩ := RangeExpr.written value (wellFormed.2 value rfl)
          refine ⟨reserved .range :: spelled .rangeName name :: sign .equal :: tokens,
            .rangeValue derivation, ?_⟩
          simp [namePlain, plain]
  | sheet name start =>
      have namePlain := plain_spelled (legible_sheetName_iff.mpr wellFormed.1)
      cases start with
      | none =>
          refine ⟨[reserved .sheet, spelled .sheetName name], .sheetPlain, ?_⟩
          simp [namePlain]
      | some start =>
          obtain ⟨tokens, derivation, plain⟩ := contents (wellFormed.2 start rfl)
          refine ⟨reserved .sheet :: spelled .sheetName name :: sign .equal :: tokens,
            .sheetValue derivation, ?_⟩
          simp [namePlain, plain]

theorem parameter {parameter : Parameter} (wellFormed : parameter.WellFormed) :
    Written .parameter parameter := by
  obtain ⟨name, family⟩ := parameter
  cases family with
  | scalar =>
      have namePlain := plain_spelled (legible_ident_iff.mpr wellFormed)
      refine ⟨[spelled .ident name, sign .colon, reserved .scalar], .scalarParameter, ?_⟩
      simp [namePlain]
  | range =>
      have namePlain := plain_spelled (legible_rangeName_iff.mpr wellFormed)
      refine ⟨[spelled .rangeName name, sign .colon, reserved .range], .rangeParameter, ?_⟩
      simp [namePlain]
  | sheet =>
      have namePlain := plain_spelled (legible_sheetName_iff.mpr wellFormed)
      refine ⟨[spelled .sheetName name, sign .colon, reserved .sheet], .sheetParameter, ?_⟩
      simp [namePlain]

theorem parameters {parameters : List Parameter}
    (wellFormed : ∀ item ∈ parameters, Parameter.WellFormed item) :
    Written .parameters parameters := by
  cases parameters with
  | nil => exact ⟨[sign .leftBracket, sign .rightBracket], .parametersNone, by simp⟩
  | cons first others =>
      have written : ∀ item ∈ first :: others, Written .parameter item := by
        intro item member
        exact parameter (wellFormed item member)
      obtain ⟨tokens, derivation, plain⟩ :=
        @separated .parameter (first :: others) (List.cons_ne_nil _ _) written
      refine ⟨sign .leftBracket :: tokens ++ [sign .rightBracket],
        .parametersSome derivation, ?_⟩
      simp [plain]

theorem returnType (type : ReturnType) : Written .returnType type := by
  cases type with
  | scalar => exact ⟨[reserved .scalar], .returnsScalar, by simp⟩
  | range => exact ⟨[reserved .range], .returnsRange, by simp⟩

theorem locals {definitions : List Variable}
    (wellFormed : ∀ definition ∈ definitions, Variable.WellFormed definition) :
    Written (.many .variableDefinition) definitions := by
  apply @many .variableDefinition
  intro definition member
  exact variableDefinition (wellFormed definition member)

theorem definition {definition : Definition} (wellFormed : definition.WellFormed) :
    Written .definition definition := by
  cases definition with
  | «variable» definition =>
      obtain ⟨tokens, derivation, plain⟩ := variableDefinition wellFormed
      exact ⟨tokens, .variable derivation, plain⟩
  | function definition =>
      obtain ⟨name, formals, type, own, body⟩ := definition
      have namePlain := plain_spelled (legible_funcName_iff.mpr wellFormed.name)
      obtain ⟨formalTokens, formalDerivation, formalPlain⟩ := parameters wellFormed.parameters
      obtain ⟨typeTokens, typeDerivation, typePlain⟩ := returnType type
      obtain ⟨ownTokens, ownDerivation, ownPlain⟩ := locals wellFormed.locals
      obtain ⟨tokens, derivation, plain⟩ :=
        block wellFormed.nonempty (Statement.allWritten body wellFormed.body)
      refine ⟨reserved .function :: spelled .funcName name :: formalTokens ++
        reserved .«return» :: typeTokens ++ reserved .is :: ownTokens ++ tokens ++
        [reserved .«end»], .function formalDerivation typeDerivation ownDerivation derivation, ?_⟩
      simp [namePlain, formalPlain, typePlain, ownPlain, plain]
  | subroutine definition =>
      obtain ⟨name, formals, own, body⟩ := definition
      have namePlain := plain_spelled (legible_funcName_iff.mpr wellFormed.name)
      obtain ⟨formalTokens, formalDerivation, formalPlain⟩ := parameters wellFormed.parameters
      obtain ⟨ownTokens, ownDerivation, ownPlain⟩ := locals wellFormed.locals
      obtain ⟨tokens, derivation, plain⟩ :=
        block wellFormed.nonempty (Statement.allWritten body wellFormed.body)
      refine ⟨reserved .subroutine :: spelled .funcName name :: formalTokens ++
        reserved .is :: ownTokens ++ tokens ++ [reserved .«end»],
        .subroutine formalDerivation ownDerivation derivation, ?_⟩
      simp [namePlain, formalPlain, ownPlain, plain]

theorem program {program : Program} (wellFormed : program.WellFormed) :
    Written .program program := by
  have written : ∀ item ∈ program.definitions, Written .definition item := by
    intro item member
    exact definition (wellFormed.definitions item member)
  obtain ⟨front, derivation, plain⟩ := @many .definition program.definitions written
  obtain ⟨back, statements, statementsPlain⟩ :=
    block wellFormed.nonempty (Statement.allWritten program.statements wellFormed.statements)
  exact ⟨front ++ back, .program derivation statements,
    plain_append.mpr ⟨plain, statementsPlain⟩⟩

end Written

end SheetLang
