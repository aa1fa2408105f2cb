import SheetLang.Grammar

/-!
# Productions

The productions of the grammar one by one, and what lies between a derivation and its parts.
An item of a production is a token, or a nonterminal with the value that it is to have.
`Reaches` follows a derivation from production to production down to one of its parts, and
keeps the tokens in front of the part and behind it.
-/

namespace SheetLang

namespace Grammar

/-- What stands on the right of a production. -/
inductive Item where
  | token (token : Token)
  | phrase (A : Nonterminal) (value : A.Value)

instance : Coe Token Item := ⟨Item.token⟩

/-- The nonterminal has the value if the items stand side by side. -/
inductive Production : (A : Nonterminal) → List Item → A.Value → Prop where
  /- Lists -/
  | manyNil : Production (.many A) [] ([] : List A.Value)
  | manyCons {A : Nonterminal} {first : A.Value} {others : List A.Value} :
      Production (.many A) [.phrase A first, .phrase (.many A) others] (first :: others)
  | separatedOne {A : Nonterminal} {only : A.Value} :
      Production (.separated A) [.phrase A only] [only]
  | separatedCons {A : Nonterminal} {first : A.Value} {others : List A.Value} :
      Production (.separated A)
        [.phrase A first, mark .comma w, .phrase (.separated A) others] (first :: others)
  /- Operands -/
  | name : Production (.operand signed) [.token ⟨.ident, text, line⟩] (.name text)
  | decimal :
      Production (.operand signed) [.token ⟨.decimal, text, line⟩] (.ofDecimal text)
  | callOperand :
      Production (.operand signed) [.phrase .call (function, arguments)]
        (.call function arguments)
  | cellOperand : Production (.operand signed) [.phrase .cell cell] (.cell cell)
  | count : Production (.operand signed) [mark .hash w, .phrase .range range] (.count range)
  | parentheses :
      Production (.operand signed)
        [mark .leftParen w, .phrase .comparison value, mark .rightParen x] value
  | negate :
      Production (.operand true) [mark .minus w, .phrase (.operand false) value]
        (.negate value)
  /- Chains -/
  | productOne : Production (.product signed) [.phrase (.operand signed) value] value
  | productCons : Multiplies symbol operator →
      Production (.product signed)
        [.phrase (.operand signed) left, mark symbol w, .phrase (.product true) right]
        (.binary operator left right)
  | sumOne : Production (.sum signed) [.phrase (.product signed) value] value
  | sumCons : Adds symbol operator →
      Production (.sum signed)
        [.phrase (.product signed) left, mark symbol w, .phrase (.sum true) right]
        (.binary operator left right)
  | comparisonOne : Production .comparison [.phrase (.sum true) value] value
  | comparisonCons : Compares symbol operator →
      Production .comparison
        [.phrase (.sum true) left, mark symbol w, .phrase .comparison right]
        (.binary operator left right)
  /- Ranges, cells and calls -/
  | named : Production .range [.token ⟨.rangeName, text, line⟩] (.named text)
  | span :
      Production .range
        [word .range w, .phrase .cell first, mark .dots x, .phrase .cell last]
        (.span first last)
  | callRange :
      Production .range
        [mark .leftBracket w, .phrase .call (function, arguments), mark .rightBracket x]
        (.call function arguments)
  | part : Literal.int64? columnText = some column → Literal.int64? rowText = some row →
      Production .range
        [.phrase .range range, mark .leftBracket w,
          .token ⟨.integer, columnText, columnLine⟩, mark .comma x,
          .token ⟨.integer, rowText, rowLine⟩, mark .rightBracket y]
        (.part range column row)
  | inSheet :
      Production .cell
        [.token ⟨.sheetName, sheet, sheetLine⟩, mark .quote w,
          .token ⟨.coordinate, coordinate, line⟩]
        (.inSheet sheet coordinate)
  | currentIn :
      Production .cell
        [mark .dollar w, mark .colon x, .token ⟨.rangeName, range, line⟩]
        (.currentIn range)
  | current : Production .cell [mark .dollar w] .current
  | callNone :
      Production .call
        [.token ⟨.funcName, function, line⟩, mark .leftBracket w, mark .rightBracket x]
        (function, [])
  | callSome {arguments : List Argument} :
      Production .call
        [.token ⟨.funcName, function, line⟩, mark .leftBracket w,
          .phrase (.separated .argument) arguments, mark .rightBracket x]
        (function, arguments)
  | scalarArgument : Production .argument [.phrase .comparison value] (.scalar value)
  | rangeArgument : Production .argument [.phrase .range value] (.range value)
  | sheetArgument : Production .argument [.token ⟨.sheetName, name, line⟩] (.sheet name)
  /- Statements -/
  | block {others : List Statement} :
      Production .block [.phrase .statement first, .phrase (.many .statement) others]
        (first :: others)
  | printSheet : Info ts info →
      Production .statement
        (.token (word .printSheet w) ::
          (ts.map Item.token ++ [.token ⟨.sheetName, name, line⟩]))
        (.print info (.sheet name))
  | printRange : Info ts info →
      Production .statement
        (.token (word .printRange w) :: (ts.map Item.token ++ [.phrase .range value]))
        (.print info (.range value))
  | printScalar : Info ts info →
      Production .statement
        (.token (word .printScalar w) :: (ts.map Item.token ++ [.phrase .comparison value]))
        (.print info (.scalar value))
  | branchOne {positive : List Statement} :
      Production .statement
        [word .«if» w, .phrase .comparison condition, word .«then» x, .phrase .block positive,
          word .endif y]
        (.branch condition positive none)
  | branchTwo {positive negative : List Statement} :
      Production .statement
        [word .«if» w, .phrase .comparison condition, word .«then» x, .phrase .block positive,
          word .«else» y, .phrase .block negative, word .endif z]
        (.branch condition positive (some negative))
  | loop {body : List Statement} :
      Production .statement
        [word .«while» w, .phrase .comparison condition, word .«do» x, .phrase .block body,
          word .done y]
        (.loop condition body)
  | traverse {ranges : List RangeExpr} {body : List Statement} :
      Production .statement
        [word .«for» w, .phrase (.separated .range) ranges, word .«do» x, .phrase .block body,
          word .done y]
        (.traverse ranges body)
  | callStatement :
      Production .statement [.phrase .call (subroutine, arguments)]
        (.call subroutine arguments)
  | returnScalar :
      Production .statement [word .«return» w, .phrase .comparison value]
        (.returnScalar value)
  | returnRange :
      Production .statement [word .«return» w, .phrase .range value] (.returnRange value)
  | assignScalar :
      Production .statement
        [.token ⟨.ident, target, line⟩, mark .assign w, .phrase .comparison value]
        (.assignScalar target value)
  | assignCell :
      Production .statement
        [.phrase .cell target, mark .assign w, .phrase .comparison value]
        (.assignCell target value)
  | assignRange :
      Production .statement
        [.token ⟨.rangeName, target, line⟩, mark .assign w, .phrase .range value]
        (.assignRange target value)
  | assignSheet :
      Production .statement
        [.token ⟨.sheetName, target, line⟩, mark .assign w,
          .token ⟨.sheetName, source, sourceLine⟩]
        (.assignSheet target source)
  /- Definitions -/
  | scalarPlain :
      Production .variableDefinition [word .scalar w, .token ⟨.ident, name, line⟩]
        (.scalar name none)
  | scalarValue :
      Production .variableDefinition
        [word .scalar w, .token ⟨.ident, name, line⟩, mark .equal x,
          .phrase .comparison value]
        (.scalar name (some value))
  | rangePlain :
      Production .variableDefinition [word .range w, .token ⟨.rangeName, name, line⟩]
        (.range name none)
  | rangeValue :
      Production .variableDefinition
        [word .range w, .token ⟨.rangeName, name, line⟩, mark .equal x,
          .phrase .range value]
        (.range name (some value))
  | sheetPlain :
      Production .variableDefinition [word .sheet w, .token ⟨.sheetName, name, line⟩]
        (.sheet name none)
  | sheetValue :
      Production .variableDefinition
        [word .sheet w, .token ⟨.sheetName, name, line⟩, mark .equal x,
          .phrase .contents contents]
        (.sheet name (some contents))
  | rows {first : List Expr} {others : List (List Expr)} :
      Production .contents
        [mark .leftBrace w, .phrase (.separated (.sum true)) first,
          .phrase (.many .laterRow) others, mark .rightBrace x]
        (.rows (first :: others))
  | size : Literal.int64? widthText = some width → Literal.int64? heightText = some height →
      Production .contents
        [.token ⟨.integer, widthText, line⟩, mark .times w,
          .token ⟨.integer, heightText, heightLine⟩]
        (.size width height)
  | laterRowOne : Production .laterRow [.phrase (.sum false) only] [only]
  | laterRowCons {others : List Expr} :
      Production .laterRow
        [.phrase (.sum false) first, mark .comma w, .phrase (.separated (.sum true)) others]
        (first :: others)
  | scalarParameter :
      Production .parameter [.token ⟨.ident, name, line⟩, mark .colon w, word .scalar x]
        ⟨name, .scalar⟩
  | rangeParameter :
      Production .parameter
        [.token ⟨.rangeName, name, line⟩, mark .colon w, word .range x] ⟨name, .range⟩
  | sheetParameter :
      Production .parameter
        [.token ⟨.sheetName, name, line⟩, mark .colon w, word .sheet x] ⟨name, .sheet⟩
  | parametersNone :
      Production .parameters [mark .leftBracket w, mark .rightBracket x]
        ([] : List Parameter)
  | parametersSome {items : List Parameter} :
      Production .parameters
        [mark .leftBracket w, .phrase (.separated .parameter) items, mark .rightBracket x]
        items
  | returnsScalar : Production .returnType [word .scalar w] ReturnType.scalar
  | returnsRange : Production .returnType [word .range w] ReturnType.range
  | variable :
      Production .definition [.phrase .variableDefinition definition] (.variable definition)
  | function {parameters : List Parameter} {locals : List Variable} {body : List Statement} :
      Production .definition
        [word .function w, .token ⟨.funcName, name, line⟩, .phrase .parameters parameters,
          word .«return» x, .phrase .returnType returnType, word .is y,
          .phrase (.many .variableDefinition) locals, .phrase .block body, word .«end» z]
        (.function ⟨name, parameters, returnType, locals, body⟩)
  | subroutine {parameters : List Parameter} {locals : List Variable}
      {body : List Statement} :
      Production .definition
        [word .subroutine w, .token ⟨.funcName, name, line⟩,
          .phrase .parameters parameters, word .is x,
          .phrase (.many .variableDefinition) locals, .phrase .block body, word .«end» y]
        (.subroutine ⟨name, parameters, locals, body⟩)
  | program {definitions : List Definition} {statements : List Statement} :
      Production .program [.phrase (.many .definition) definitions, .phrase .block statements]
        ⟨definitions, statements⟩

/-- Behind the tokens in front, the items are spelled out one after the other. -/
@[reducible] def Spells (front : List Token) : List Item → List Token → Prop
  | [], tokens => tokens = front
  | .token token :: items, tokens => Spells (front ++ [token]) items tokens
  | .phrase A value :: items, tokens =>
    ∃ part, Derives A part value ∧ Spells (front ++ part) items tokens

/-- A derivation from `A` goes through `B` with its value, between the tokens in front of what
`B` derives and the tokens behind it. -/
inductive Reaches (B : Nonterminal) (value : B.Value) :
    (A : Nonterminal) → A.Value → List Token → List Token → Prop where
  | here : Reaches B value B value [] []
  | through {A C : Nonterminal} {whole : A.Value} {inner : C.Value}
      {before front back behind : List Token} (left right : List Item) :
      Production A (left ++ .phrase C inner :: right) whole →
      Spells [] left before → Spells [] right behind →
      Reaches B value C inner front back →
      Reaches B value A whole (before ++ front) (back ++ behind)

/-- A derivation of a program from the tokens reduces those in the middle to a nonterminal. -/
def Reduces (B : Nonterminal) (front middle back : List Token) : Prop :=
  ∃ program value, Reaches B value .program program front back ∧ Derives B middle value

end Grammar

/-- The nonterminals of scalar expressions. -/
def Nonterminal.isScalar : Nonterminal → Bool
  | comparison | sum _ | product _ | operand _ => true
  | _ => false

end SheetLang
