import SheetLang.Program
import SheetLang.Token

/-!
# The grammar

The productions of the language, each with the value it gives to what it
derives.  `Derives A tokens value` says that the tokens derive from the
nonterminal `A`, and that the value belongs to the derivation.

Reserved words and symbols count by their kind; names and literals also by
their text.  The lines of tokens do not matter.
-/

namespace SheetLang

inductive Nonterminal where
  | program
  | definition
  | variableDefinition
  | contents
  /-- A row after the first, which does not open with a sign. -/
  | laterRow
  | parameters
  | parameter
  | returnType
  | block
  | statement
  | call
  | argument
  | range
  | cell
  | comparison
  /-- A sum, the first operand of which may have a sign or not. -/
  | sum (signed : Bool)
  /-- A product, the first operand of which may have a sign or not. -/
  | product (signed : Bool)
  /-- An operand, which may have a sign or not. -/
  | operand (signed : Bool)
  /-- Any number of items. -/
  | many (item : Nonterminal)
  /-- At least one item, with commas between them. -/
  | separated (item : Nonterminal)
  deriving DecidableEq

/-- The values that belong to derivations from a nonterminal. -/
@[reducible] def Nonterminal.Value : Nonterminal → Type
  | program => Program
  | definition => Definition
  | variableDefinition => Variable
  | contents => SheetContents
  | laterRow => List Expr
  | parameters => List Parameter
  | parameter => Parameter
  | returnType => ReturnType
  | block => List Statement
  | statement => Statement
  | call => String × List Argument
  | argument => Argument
  | range => RangeExpr
  | cell => CellRef
  | comparison => Expr
  | sum _ => Expr
  | product _ => Expr
  | operand _ => Expr
  | many item => List item.Value
  | separated item => List item.Value

namespace Grammar

/-- How a token is written, apart from its kind: its text and its line. -/
abbrev Writing := String × Nat

/-- A symbol. -/
def mark (symbol : Symbol) (writing : Writing) : Token :=
  ⟨.symbol symbol, writing.1, writing.2⟩

/-- A reserved word. -/
def word (keyword : Keyword) (writing : Writing) : Token :=
  ⟨.keyword keyword, writing.1, writing.2⟩

/-- The operators of products. -/
inductive Multiplies : Symbol → BinaryOperator → Prop where
  | times : Multiplies .times .times
  | divide : Multiplies .slash .divide

/-- The operators of sums. -/
inductive Adds : Symbol → BinaryOperator → Prop where
  | plus : Adds .plus .plus
  | minus : Adds .minus .minus

/-- The operators of comparisons. -/
inductive Compares : Symbol → BinaryOperator → Prop where
  | equal : Compares .equal .equal
  | notEqual : Compares .notEqual .notEqual
  | less : Compares .less .less
  | lessEqual : Compares .lessEqual .lessEqual
  | greater : Compares .greater .greater
  | greaterEqual : Compares .greaterEqual .greaterEqual

/-- An info string, or nothing. -/
inductive Info : List Token → Option String → Prop where
  | absent : Info [] none
  | present : Info [⟨.info, text, line⟩] (some (String.ofList (text.toList.drop 1).dropLast))

end Grammar

open Grammar

/-- The tokens derive from the nonterminal with the value. -/
inductive Derives : (A : Nonterminal) → List Token → A.Value → Prop where
  /- Lists -/
  | manyNil : Derives (.many A) [] ([] : List A.Value)
  | manyCons {A : Nonterminal} {first : A.Value} {others : List A.Value} :
      Derives A ts first → Derives (.many A) us others →
      Derives (.many A) (ts ++ us) (first :: others)
  | separatedOne {A : Nonterminal} {only : A.Value} :
      Derives A ts only → Derives (.separated A) ts [only]
  | separatedCons {A : Nonterminal} {first : A.Value} {others : List A.Value} :
      Derives A ts first → Derives (.separated A) us others →
      Derives (.separated A) (ts ++ mark .comma w :: us) (first :: others)
  /- Operands -/
  | name : Derives (.operand signed) [⟨.ident, text, line⟩] (.name text)
  | decimal : Derives (.operand signed) [⟨.decimal, text, line⟩] (.ofDecimal text)
  | callOperand : Derives .call ts (function, arguments) →
      Derives (.operand signed) ts (.call function arguments)
  | cellOperand : Derives .cell ts cell → Derives (.operand signed) ts (.cell cell)
  | count : Derives .range ts range →
      Derives (.operand signed) (mark .hash w :: ts) (.count range)
  | parentheses : Derives .comparison ts value →
      Derives (.operand signed) (mark .leftParen w :: ts ++ [mark .rightParen x]) value
  | negate : Derives (.operand false) ts value →
      Derives (.operand true) (mark .minus w :: ts) (.negate value)
  /- Chains -/
  | productOne : Derives (.operand signed) ts value → Derives (.product signed) ts value
  | productCons : Multiplies symbol operator →
      Derives (.operand signed) ts left → Derives (.product true) us right →
      Derives (.product signed) (ts ++ mark symbol w :: us) (.binary operator left right)
  | sumOne : Derives (.product signed) ts value → Derives (.sum signed) ts value
  | sumCons : Adds symbol operator →
      Derives (.product signed) ts left → Derives (.sum true) us right →
      Derives (.sum signed) (ts ++ mark symbol w :: us) (.binary operator left right)
  | comparisonOne : Derives (.sum true) ts value → Derives .comparison ts value
  | comparisonCons : Compares symbol operator →
      Derives (.sum true) ts left → Derives .comparison us right →
      Derives .comparison (ts ++ mark symbol w :: us) (.binary operator left right)
  /- Ranges, cells and calls -/
  | named : Derives .range [⟨.rangeName, text, line⟩] (.named text)
  | span : Derives .cell ts first → Derives .cell us last →
      Derives .range (word .range w :: ts ++ mark .dots x :: us) (.span first last)
  | callRange : Derives .call ts (function, arguments) →
      Derives .range (mark .leftBracket w :: ts ++ [mark .rightBracket x])
        (.call function arguments)
  | part : Derives .range ts range →
      Literal.int64? columnText = some column → Literal.int64? rowText = some row →
      Derives .range
        (ts ++ [mark .leftBracket w, ⟨.integer, columnText, columnLine⟩, mark .comma x,
          ⟨.integer, rowText, rowLine⟩, mark .rightBracket y])
        (.part range column row)
  | inSheet :
      Derives .cell
        [⟨.sheetName, sheet, sheetLine⟩, mark .quote w, ⟨.coordinate, coordinate, line⟩]
        (.inSheet sheet coordinate)
  | currentIn :
      Derives .cell [mark .dollar w, mark .colon x, ⟨.rangeName, range, line⟩]
        (.currentIn range)
  | current : Derives .cell [mark .dollar w] .current
  | callNone :
      Derives .call
        [⟨.funcName, function, line⟩, mark .leftBracket w, mark .rightBracket x]
        (function, [])
  | callSome {arguments : List Argument} : Derives (.separated .argument) ts arguments →
      Derives .call
        (⟨.funcName, function, line⟩ :: mark .leftBracket w :: ts ++ [mark .rightBracket x])
        (function, arguments)
  | scalarArgument : Derives .comparison ts value → Derives .argument ts (.scalar value)
  | rangeArgument : Derives .range ts value → Derives .argument ts (.range value)
  | sheetArgument : Derives .argument [⟨.sheetName, name, line⟩] (.sheet name)
  /- Statements -/
  | block {others : List Statement} :
      Derives .statement ts first → Derives (.many .statement) us others →
      Derives .block (ts ++ us) (first :: others)
  | printSheet : Info ts info →
      Derives .statement (word .printSheet w :: ts ++ [⟨.sheetName, name, line⟩])
        (.print info (.sheet name))
  | printRange : Info ts info → Derives .range us value →
      Derives .statement (word .printRange w :: ts ++ us) (.print info (.range value))
  | printScalar : Info ts info → Derives .comparison us value →
      Derives .statement (word .printScalar w :: ts ++ us) (.print info (.scalar value))
  | branchOne :
      Derives .comparison ts condition → Derives .block us positive →
      Derives .statement
        (word .«if» w :: ts ++ word .«then» x :: us ++ [word .endif y])
        (.branch condition positive none)
  | branchTwo :
      Derives .comparison ts condition → Derives .block us positive →
      Derives .block vs negative →
      Derives .statement
        (word .«if» w :: ts ++ word .«then» x :: us ++ word .«else» y :: vs ++ [word .endif z])
        (.branch condition positive (some negative))
  | loop : Derives .comparison ts condition → Derives .block us body →
      Derives .statement
        (word .«while» w :: ts ++ word .«do» x :: us ++ [word .done y])
        (.loop condition body)
  | traverse {ranges : List RangeExpr} :
      Derives (.separated .range) ts ranges → Derives .block us body →
      Derives .statement
        (word .«for» w :: ts ++ word .«do» x :: us ++ [word .done y])
        (.traverse ranges body)
  | callStatement : Derives .call ts (subroutine, arguments) →
      Derives .statement ts (.call subroutine arguments)
  | returnScalar : Derives .comparison ts value →
      Derives .statement (word .«return» w :: ts) (.returnScalar value)
  | returnRange : Derives .range ts value →
      Derives .statement (word .«return» w :: ts) (.returnRange value)
  | assignScalar : Derives .comparison ts value →
      Derives .statement (⟨.ident, target, line⟩ :: mark .assign w :: ts)
        (.assignScalar target value)
  | assignCell : Derives .cell ts target → Derives .comparison us value →
      Derives .statement (ts ++ mark .assign w :: us) (.assignCell target value)
  | assignRange : Derives .range ts value →
      Derives .statement (⟨.rangeName, target, line⟩ :: mark .assign w :: ts)
        (.assignRange target value)
  | assignSheet :
      Derives .statement
        [⟨.sheetName, target, line⟩, mark .assign w, ⟨.sheetName, source, sourceLine⟩]
        (.assignSheet target source)
  /- Definitions -/
  | scalarPlain :
      Derives .variableDefinition [word .scalar w, ⟨.ident, name, line⟩] (.scalar name none)
  | scalarValue : Derives .comparison ts value →
      Derives .variableDefinition
        (word .scalar w :: ⟨.ident, name, line⟩ :: mark .equal x :: ts)
        (.scalar name (some value))
  | rangePlain :
      Derives .variableDefinition [word .range w, ⟨.rangeName, name, line⟩] (.range name none)
  | rangeValue : Derives .range ts value →
      Derives .variableDefinition
        (word .range w :: ⟨.rangeName, name, line⟩ :: mark .equal x :: ts)
        (.range name (some value))
  | sheetPlain :
      Derives .variableDefinition [word .sheet w, ⟨.sheetName, name, line⟩] (.sheet name none)
  | sheetValue : Derives .contents ts contents →
      Derives .variableDefinition
        (word .sheet w :: ⟨.sheetName, name, line⟩ :: mark .equal x :: ts)
        (.sheet name (some contents))
  | rows {first : List Expr} {others : List (List Expr)} :
      Derives (.separated (.sum true)) ts first → Derives (.many .laterRow) us others →
      Derives .contents (mark .leftBrace w :: ts ++ us ++ [mark .rightBrace x])
        (.rows (first :: others))
  | size : Literal.int64? widthText = some width → Literal.int64? heightText = some height →
      Derives .contents
        [⟨.integer, widthText, line⟩, mark .times w, ⟨.integer, heightText, heightLine⟩]
        (.size width height)
  | laterRowOne : Derives (.sum false) ts only → Derives .laterRow ts [only]
  | laterRowCons {others : List Expr} :
      Derives (.sum false) ts first → Derives (.separated (.sum true)) us others →
      Derives .laterRow (ts ++ mark .comma w :: us) (first :: others)
  | scalarParameter :
      Derives .parameter [⟨.ident, name, line⟩, mark .colon w, word .scalar x] ⟨name, .scalar⟩
  | rangeParameter :
      Derives .parameter [⟨.rangeName, name, line⟩, mark .colon w, word .range x]
        ⟨name, .range⟩
  | sheetParameter :
      Derives .parameter [⟨.sheetName, name, line⟩, mark .colon w, word .sheet x]
        ⟨name, .sheet⟩
  | parametersNone :
      Derives .parameters [mark .leftBracket w, mark .rightBracket x] ([] : List Parameter)
  | parametersSome {items : List Parameter} : Derives (.separated .parameter) ts items →
      Derives .parameters (mark .leftBracket w :: ts ++ [mark .rightBracket x]) items
  | returnsScalar : Derives .returnType [word .scalar w] ReturnType.scalar
  | returnsRange : Derives .returnType [word .range w] ReturnType.range
  | variable : Derives .variableDefinition ts definition →
      Derives .definition ts (.variable definition)
  | function {locals : List Variable} :
      Derives .parameters ts parameters → Derives .returnType us returnType →
      Derives (.many .variableDefinition) vs locals → Derives .block ws body →
      Derives .definition
        (word .function w :: ⟨.funcName, name, line⟩ :: ts ++ word .«return» x :: us ++
          word .is y :: vs ++ ws ++ [word .«end» z])
        (.function ⟨name, parameters, returnType, locals, body⟩)
  | subroutine {locals : List Variable} :
      Derives .parameters ts parameters →
      Derives (.many .variableDefinition) us locals → Derives .block vs body →
      Derives .definition
        (word .subroutine w :: ⟨.funcName, name, line⟩ :: ts ++
          word .is x :: us ++ vs ++ [word .«end» y])
        (.subroutine ⟨name, parameters, locals, body⟩)
  | program {definitions : List Definition} :
      Derives (.many .definition) ts definitions → Derives .block us statements →
      Derives .program (ts ++ us) ⟨definitions, statements⟩

end SheetLang
