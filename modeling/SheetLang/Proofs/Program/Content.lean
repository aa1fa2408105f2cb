import SheetLang.Content
import SheetLang.Program.Outline
import SheetLang.Proofs.Program.Image
import SheetLang.Proofs.TokenStream.Layout

/-!
# Content of programs

The outline of a program shows the names, texts and numbers of its source, each once and
in the order of the source.  This holds of every phrase, by induction on its derivation.
-/

namespace SheetLang

open Grammar

def Nonterminal.content : (A : Nonterminal) → A.Value → List String
  | .program, value => (Program.outline value).content
  | .definition, value => (Definition.outline value).content
  | .variableDefinition, value => (Variable.outline value).content
  | .contents, value => (SheetContents.outline value).content
  | .laterRow, value => value.flatMap fun cell => (Expr.outline cell).content
  | .parameters, value => value.flatMap fun parameter => (Parameter.outline parameter).content
  | .parameter, value => (Parameter.outline value).content
  | .returnType, _ => []
  | .block, value => value.flatMap fun statement => (Statement.outline statement).content
  | .statement, value => (Statement.outline value).content
  | .call, value => value.1 :: value.2.flatMap fun argument => (Argument.outline argument).content
  | .argument, value => (Argument.outline value).content
  | .range, value => (RangeExpr.outline value).content
  | .cell, value => (CellRef.outline value).content
  | .comparison, value => (Expr.outline value).content
  | .sum _, value => (Expr.outline value).content
  | .product _, value => (Expr.outline value).content
  | .operand _, value => (Expr.outline value).content
  | .many item, values => values.flatMap item.content
  | .separated item, values => values.flatMap item.content

namespace Token

@[simp] theorem content_nil : content [] = [] := rfl

@[simp] theorem content_append (front back : List Token) :
    content (front ++ back) = content front ++ content back :=
  List.filterMap_append

@[simp] theorem content_cons (token : Token) (tokens : List Token) :
    content (token :: tokens) = token.content?.toList ++ content tokens := by
  rw [content, List.filterMap_cons]
  cases token.content? <;> rfl

@[simp] theorem content?_mark (symbol : Symbol) (writing : Writing) :
    (mark symbol writing).content? = none := rfl

@[simp] theorem content?_word (keyword : Keyword) (writing : Writing) :
    (word keyword writing).content? = none := rfl

end Token

@[simp] theorem Outline.content_ofName (name : String) :
    (Outline.ofName name).content = [name] := by
  simp [Outline.ofName]

@[simp] theorem Outline.content_ofInt64 (number : Int64) :
    (Outline.ofInt64 number).content = [toString number.toInt] := by
  simp [Outline.ofInt64]

@[simp] theorem Argument.flatMap_content_outlines (arguments : List Argument) :
    (Argument.outlines arguments).flatMap Outline.content =
      arguments.flatMap fun argument => argument.outline.content := by
  rw [Argument.outlines_eq_map, List.flatMap_map]

@[simp] theorem Statement.flatMap_content_outlines (statements : List Statement) :
    (Statement.outlines statements).flatMap Outline.content =
      statements.flatMap fun statement => statement.outline.content := by
  rw [Statement.outlines_eq_map, List.flatMap_map]

@[simp] theorem Relation.flatMap_content_optional_info (name : String) (info : Option String) :
    (Relation.optional name (info.map (Outline.leaf .infoString))).flatMap Relation.content =
      info.toList := by
  cases info <;> simp [Relation.optional]

/-- An info string shows without its marks. -/
theorem filter_mark_of_legible {text : List Char} (legible : Token.Kind.info.Legible text) :
    text.filter (· != '!') = (text.drop 1).dropLast := by
  obtain ⟨body, rfl, inside⟩ := Shape.info_iff.mp legible.1
  have plain : body.filter (· != '!') = body := by
    refine List.filter_eq_self.mpr ?_
    intro character member
    exact (Bool.and_eq_true_iff.mp (inside character member)).1
  simp [plain]

theorem Grammar.Info.content {tokens : List Token} {info : Option String}
    (derivation : Info tokens info) (legible : Legible tokens) :
    Token.content tokens = info.toList := by
  cases derivation with
  | absent => rfl
  | @present text line =>
      have shown : Token.content [⟨.info, text, line⟩] =
          [String.ofList (text.toList.filter (· != '!'))] := rfl
      rw [shown, filter_mark_of_legible (legible_cons.mp legible).1]
      rfl

theorem Derives.content {A : Nonterminal} {tokens : List Token} {value : A.Value}
    (derivation : Derives A tokens value) (legible : Legible tokens) :
    A.content value = Token.content tokens := by
  induction derivation with
  | manyNil => rfl
  | manyCons _ _ first others =>
      obtain ⟨front, back⟩ := legible_append.mp legible
      simp [Nonterminal.content, ← first front, ← others back]
  | separatedOne _ only => simp [Nonterminal.content, ← only legible]
  | separatedCons _ _ first others =>
      obtain ⟨front, back⟩ := legible_append.mp legible
      simp [Nonterminal.content, ← first front, ← others (legible_cons.mp back).2]
  /- Operands -/
  | name => simp [Nonterminal.content, Token.content?, Expr.outline]
  | decimal =>
      have read := Expr.ofDecimal_of_legible (legible_cons.mp legible).1
      simp [Nonterminal.content, Token.content?, Expr.outline, read]
  | callOperand _ call => simp [Nonterminal.content, Expr.outline, ← call legible]
  | cellOperand _ cell => exact cell legible
  | count _ range =>
      simp [Nonterminal.content, Expr.outline, ← range (legible_cons.mp legible).2]
  | parentheses _ value =>
      obtain ⟨front, -⟩ := legible_append.mp legible
      simp [Nonterminal.content, ← value (legible_cons.mp front).2]
  | negate _ value =>
      simp [Nonterminal.content, Expr.outline, ← value (legible_cons.mp legible).2]
  | productOne _ value | sumOne _ value | comparisonOne _ value => exact value legible
  | productCons _ _ _ left right | sumCons _ _ _ left right | comparisonCons _ _ _ left right =>
      obtain ⟨front, back⟩ := legible_append.mp legible
      simp [Nonterminal.content, Expr.outline, ← left front, ← right (legible_cons.mp back).2]
  /- Ranges, cells and calls -/
  | named => simp [Nonterminal.content, Token.content?, RangeExpr.outline]
  | span _ _ first last =>
      obtain ⟨front, back⟩ := legible_append.mp legible
      simp [Nonterminal.content, RangeExpr.outline, ← first (legible_cons.mp front).2,
        ← last (legible_cons.mp back).2]
  | callRange _ call =>
      obtain ⟨front, -⟩ := legible_append.mp legible
      simp [Nonterminal.content, RangeExpr.outline, ← call (legible_cons.mp front).2]
  | part _ column row range =>
      simp [Nonterminal.content, Token.content?, RangeExpr.outline,
        Literal.int64?_eq_some_iff.mp column, Literal.int64?_eq_some_iff.mp row,
        ← range (legible_append.mp legible).1]
  | inSheet | currentIn | current => simp [Nonterminal.content, Token.content?, CellRef.outline]
  | callNone => simp [Nonterminal.content, Token.content?]
  | callSome _ arguments =>
      simp only [legible_append, legible_cons] at legible
      simp [Nonterminal.content, Token.content?, ← arguments legible.1.2.2]
  | scalarArgument _ value | rangeArgument _ value =>
      simpa [Nonterminal.content, Argument.outline] using value legible
  | sheetArgument => simp [Nonterminal.content, Token.content?, Argument.outline]
  /- Statements -/
  | block _ _ first others =>
      obtain ⟨front, back⟩ := legible_append.mp legible
      simp [Nonterminal.content, ← first front, ← others back]
  | printSheet info =>
      simp only [legible_append, legible_cons] at legible
      simp [Nonterminal.content, Token.content?, Statement.outline, Argument.outline,
        info.content legible.1.2]
  | printRange info _ value | printScalar info _ value =>
      simp only [legible_append, legible_cons] at legible
      simp [Nonterminal.content, Statement.outline, Argument.outline, info.content legible.1.2,
        ← value legible.2]
  | branchOne _ _ condition positive =>
      simp only [legible_append, legible_cons] at legible
      obtain ⟨⟨⟨-, test⟩, -, first⟩, -⟩ := legible
      simp [Nonterminal.content, Statement.outline, ← condition test, ← positive first]
  | branchTwo _ _ _ condition positive negative =>
      simp only [legible_append, legible_cons] at legible
      obtain ⟨⟨⟨⟨-, test⟩, -, first⟩, -, second⟩, -⟩ := legible
      simp [Nonterminal.content, Statement.outline, ← condition test, ← positive first,
        ← negative second]
  | loop _ _ condition body =>
      simp only [legible_append, legible_cons] at legible
      obtain ⟨⟨⟨-, test⟩, -, repeated⟩, -⟩ := legible
      simp [Nonterminal.content, Statement.outline, ← condition test, ← body repeated]
  | traverse _ _ ranges body =>
      simp only [legible_append, legible_cons] at legible
      obtain ⟨⟨⟨-, listed⟩, -, repeated⟩, -⟩ := legible
      simp [Nonterminal.content, Statement.outline, List.flatMap_map, ← ranges listed,
        ← body repeated]
  | callStatement _ call => simp [Nonterminal.content, Statement.outline, ← call legible]
  | returnScalar _ value | returnRange _ value =>
      simp [Nonterminal.content, Statement.outline, ← value (legible_cons.mp legible).2]
  | assignScalar _ value | assignRange _ value =>
      simp only [legible_cons] at legible
      simp [Nonterminal.content, Token.content?, Statement.outline, ← value legible.2.2]
  | assignCell _ _ target value =>
      simp only [legible_append, legible_cons] at legible
      simp [Nonterminal.content, Statement.outline, ← target legible.1, ← value legible.2.2]
  | assignSheet => simp [Nonterminal.content, Token.content?, Statement.outline]
  /- Definitions -/
  | scalarPlain | rangePlain | sheetPlain =>
      simp [Nonterminal.content, Token.content?, Variable.outline, Relation.optional]
  | scalarValue _ value | rangeValue _ value | sheetValue _ value =>
      simp only [legible_cons] at legible
      simp [Nonterminal.content, Token.content?, Variable.outline, Relation.optional,
        ← value legible.2.2.2]
  | rows _ _ first others =>
      simp only [legible_append, legible_cons] at legible
      obtain ⟨⟨⟨-, front⟩, back⟩, -⟩ := legible
      simp [Nonterminal.content, SheetContents.outline, Outline.ofRow, List.flatMap_map,
        ← first front, ← others back]
  | size width height =>
      simp [Nonterminal.content, Token.content?, SheetContents.outline,
        Literal.int64?_eq_some_iff.mp width, Literal.int64?_eq_some_iff.mp height]
  | laterRowOne _ only => simp [Nonterminal.content, ← only legible]
  | laterRowCons _ _ first others =>
      obtain ⟨front, back⟩ := legible_append.mp legible
      simp [Nonterminal.content, ← first front, ← others (legible_cons.mp back).2]
  | scalarParameter | rangeParameter | sheetParameter =>
      simp [Nonterminal.content, Token.content?, Parameter.outline]
  | parametersNone => simp [Nonterminal.content]
  | parametersSome _ items =>
      obtain ⟨front, -⟩ := legible_append.mp legible
      simp [Nonterminal.content, ← items (legible_cons.mp front).2]
  | returnsScalar | returnsRange => simp [Nonterminal.content]
  | «variable» _ definition => exact definition legible
  | function _ _ _ _ parameters returns locals body =>
      simp only [legible_append, legible_cons] at legible
      obtain ⟨⟨⟨⟨⟨-, -, formals⟩, -, returned⟩, -, definitions⟩, statements⟩, -⟩ := legible
      simp [Nonterminal.content, Token.content?, Definition.outline, Function.outline,
        List.flatMap_map, ← parameters formals, ← returns returned, ← locals definitions,
        ← body statements]
  | subroutine _ _ _ parameters locals body =>
      simp only [legible_append, legible_cons] at legible
      obtain ⟨⟨⟨⟨-, -, formals⟩, -, definitions⟩, statements⟩, -⟩ := legible
      simp [Nonterminal.content, Token.content?, Definition.outline, Subroutine.outline,
        List.flatMap_map, ← parameters formals, ← locals definitions, ← body statements]
  | program _ _ definitions statements =>
      obtain ⟨front, back⟩ := legible_append.mp legible
      simp [Nonterminal.content, Program.outline, List.flatMap_map, ← definitions front,
        ← statements back]

theorem Program.content_outline {source : String} {program : Program}
    (parsed : Program.ofSource source = .ok program) :
    ∃ tokens, (Reader.ofSource source).tokenize.1 = .ok tokens ∧
      program.outline.content = Token.content tokens := by
  obtain ⟨derivation, sound⟩ := TokenStream.parse_eq_ok_iff.mp parsed
  refine ⟨(TokenStream.ofSource source).tokens, ?_, ?_⟩
  · rw [TokenStream.tokenize_eq_ok_iff, ← sound]
  · refine derivation.content ?_
    intro token member
    exact TokenStream.legible_of_mem member

/-- Of a whole number, neither leading zeros nor the sign of zero are shown; a decimal number
keeps the sign. -/
theorem Program.content_outline_zeros :
    ∃ program,
      Program.ofSource "sheet SH = 007 * -0\nprint_scalar !a-b! -Sum[SH'A1, _r] * -0.0 < 010.5" =
        .ok program ∧
      program.outline.content = ["SH", "7", "0", "a-b", "Sum", "SH", "A1", "_r", "-0.0",
        "10.5"] := by
  have stream : TokenStream.ofSource
      "sheet SH = 007 * -0\nprint_scalar !a-b! -Sum[SH'A1, _r] * -0.0 < 010.5" =
        ⟨[⟨.keyword .sheet, "sheet", 1⟩, ⟨.sheetName, "SH", 1⟩, ⟨.symbol .equal, "=", 1⟩,
          ⟨.integer, "007", 1⟩, ⟨.symbol .times, "*", 1⟩, ⟨.integer, "-0", 1⟩,
          ⟨.keyword .printScalar, "print_scalar", 2⟩, ⟨.info, "!a-b!", 2⟩,
          ⟨.symbol .minus, "-", 2⟩, ⟨.funcName, "Sum", 2⟩, ⟨.symbol .leftBracket, "[", 2⟩,
          ⟨.sheetName, "SH", 2⟩, ⟨.symbol .quote, "'", 2⟩, ⟨.coordinate, "A1", 2⟩,
          ⟨.symbol .comma, ",", 2⟩, ⟨.rangeName, "_r", 2⟩, ⟨.symbol .rightBracket, "]", 2⟩,
          ⟨.symbol .times, "*", 2⟩, ⟨.decimal, "-0.0", 2⟩, ⟨.symbol .less, "<", 2⟩,
          ⟨.decimal, "010.5", 2⟩], none⟩ := by decide
  obtain ⟨program, parsed⟩ : ∃ program, Program.ofSource
      "sheet SH = 007 * -0\nprint_scalar !a-b! -Sum[SH'A1, _r] * -0.0 < 010.5" = .ok program := by
    rw [Program.ofSource, stream]
    exact ⟨_, rfl⟩
  obtain ⟨tokens, tokenized, content⟩ := Program.content_outline parsed
  rw [TokenStream.tokenize_eq_ok_iff, stream] at tokenized
  cases tokenized
  refine ⟨program, parsed, content.trans ?_⟩
  decide +kernel

end SheetLang
