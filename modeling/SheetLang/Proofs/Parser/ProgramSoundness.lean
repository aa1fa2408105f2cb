import SheetLang.Parser.Program
import SheetLang.Proofs.Parser.ExpressionSoundness

/-!
# Soundness of the parsers of programs

With parsers that read the expressions within them, the parsers of statements,
definitions and programs read what derives from their nonterminals.
-/

namespace SheetLang

open Grammar

namespace Parser

theorem reads_optionalInfo : Reads optionalInfo Info := by
  unfold optionalInfo
  refine .peek fun next => ?_
  split
  · refine .text fun text line => ?_
    exact .pure .present
  · exact .pure .absent

theorem reads_print {keyword : Keyword} {argument : Parser Argument}
    (language : List Token → Argument → Prop) (reads : Reads argument language)
    (compose : ∀ {info ts us value writing}, Info ts info → language us value →
      Derives .statement (word keyword writing :: ts ++ us) (.print info value)) :
    Reads (print keyword argument) (Derives .statement) := by
  unfold print
  refine .keyword fun writing => ?_
  refine reads_optionalInfo.bind fun _ info announced => ?_
  refine reads.bind fun _ value member => ?_
  exact .pure (by simpa using compose announced member)

section

variable {inner : Nested} (sound : inner.Sound)
include sound

theorem reads_statement {block : Parser (List Statement)}
    (blockReads : Reads block (Derives .block)) :
    Reads (statement inner block) (Derives .statement) := by
  unfold statement assigned
  simp only [bind_assoc]
  refine .peek fun next => ?_
  split
  · refine reads_print (fun tokens value => ∃ name line,
      tokens = [⟨.sheetName, name, line⟩] ∧ value = .sheet name) ?_ ?_
    · refine .text fun name line => ?_
      exact .pure ⟨name, line, rfl, rfl⟩
    · intro info ts us value writing announced member
      obtain ⟨name, line, rfl, rfl⟩ := member
      exact .printSheet announced
  · refine reads_print (fun tokens value => ∃ range,
      Derives .range tokens range ∧ value = .range range) ?_ ?_
    · refine (reads_range sound).bind fun _ range derivation => ?_
      exact .pure ⟨range, by simpa using derivation, rfl⟩
    · intro info ts us value writing announced member
      obtain ⟨range, derivation, rfl⟩ := member
      exact .printRange announced derivation
  · refine reads_print (fun tokens value => ∃ scalar,
      Derives .comparison tokens scalar ∧ value = .scalar scalar) ?_ ?_
    · refine (reads_comparison sound).bind fun _ scalar derivation => ?_
      exact .pure ⟨scalar, by simpa using derivation, rfl⟩
    · intro info ts us value writing announced member
      obtain ⟨scalar, derivation, rfl⟩ := member
      exact .printScalar announced derivation
  · refine .keyword fun opening => ?_
    refine (reads_comparison sound).bind fun _ condition conditionDerives => ?_
    refine .keyword fun separator => ?_
    refine blockReads.bind fun _ positive positiveDerives => ?_
    refine .peek fun next => ?_
    split
    · refine .keyword fun alternative => ?_
      refine blockReads.bind fun _ negative negativeDerives => ?_
      refine .keyword fun closing => ?_
      exact .pure (by
        simpa using Derives.branchTwo conditionDerives positiveDerives negativeDerives)
    · refine .keyword fun closing => ?_
      exact .pure (by simpa using Derives.branchOne conditionDerives positiveDerives)
  · refine .keyword fun opening => ?_
    refine (reads_comparison sound).bind fun _ condition conditionDerives => ?_
    refine .keyword fun separator => ?_
    refine blockReads.bind fun _ body bodyDerives => ?_
    refine .keyword fun closing => ?_
    exact .pure (by simpa using Derives.loop conditionDerives bodyDerives)
  · refine .keyword fun opening => ?_
    refine (Reads.separated .range (reads_range sound)).bind fun _ ranges rangesDerive => ?_
    refine .keyword fun separator => ?_
    refine blockReads.bind fun _ body bodyDerives => ?_
    refine .keyword fun closing => ?_
    exact .pure (by simpa using Derives.traverse rangesDerive bodyDerives)
  · refine .keyword fun opening => ?_
    refine .peek fun next => ?_
    split
    · refine (reads_range sound).bind fun _ value derivation => ?_
      exact .pure (by simpa using Derives.returnRange derivation)
    · refine (reads_comparison sound).bind fun _ value derivation => ?_
      exact .pure (by simpa using Derives.returnScalar derivation)
  · refine (reads_call sound).bind fun _ callee derivation => ?_
    obtain ⟨subroutine, arguments⟩ := callee
    exact .pure (by simpa using Derives.callStatement derivation)
  · refine .text fun target line => ?_
    refine .symbol fun assign => ?_
    refine (reads_comparison sound).bind fun _ value derivation => ?_
    exact .pure (by simpa using Derives.assignScalar derivation)
  · refine .text fun target line => ?_
    refine .symbol fun assign => ?_
    refine (reads_range sound).bind fun _ value derivation => ?_
    exact .pure (by simpa using Derives.assignRange derivation)
  · refine .peekSecond fun second => ?_
    split
    · refine reads_cellRef.bind fun _ target targetDerives => ?_
      refine .symbol fun assign => ?_
      refine (reads_comparison sound).bind fun _ value derivation => ?_
      exact .pure (by simpa using Derives.assignCell targetDerives derivation)
    · refine .text fun target line => ?_
      refine .symbol fun assign => ?_
      refine .text fun source sourceLine => ?_
      exact .pure .assignSheet
  · refine reads_cellRef.bind fun _ target targetDerives => ?_
    refine .symbol fun assign => ?_
    refine (reads_comparison sound).bind fun _ value derivation => ?_
    exact .pure (by simpa using Derives.assignCell targetDerives derivation)

theorem reads_blockUpTo (bound : Nat) : Reads (blockUpTo inner bound) (Derives .block) := by
  induction bound with
  | zero =>
      have statement : Derives .statement
          [⟨.sheetName, "", 0⟩, mark .assign ("", 0), ⟨.sheetName, "", 0⟩]
          (.assignSheet "" "") := .assignSheet
      exact .reject ⟨_, _, .block statement .manyNil⟩
  | succ bound induction =>
      have statement := reads_statement sound induction
      refine statement.bind fun _ first firstDerives => ?_
      refine (Reads.many .statement statement).bind fun _ others othersDerive => ?_
      exact .pure (by simpa using Derives.block firstDerives othersDerive)

theorem reads_block : Reads (block inner) (Derives .block) := by
  have bounded (bound : Nat) := reads_blockUpTo sound bound
  exact ⟨(bounded 0).inhabited, (bounded _).accepted, (bounded _).rejected⟩

omit sound in
theorem reads_optionalValue {value : Parser α} {inside : List Token → α → Prop}
    {language : List Token → β → Prop} {next : Option α → Parser β}
    (reads : Reads value inside) (absent : Reads (next none) language)
    (present : ∀ writing tokens result, inside tokens result →
      Reads (next (some result)) fun rest whole =>
        language (mark .equal writing :: tokens ++ rest) whole) :
    Reads (optionalValue value >>= next) language := by
  unfold optionalValue
  simp only [bind_assoc]
  refine .optionalSymbol (fun writing => ?_) ?_
  · simp only [↓reduceIte, bind_assoc, pure_bind]
    refine reads.bind fun tokens result member => ?_
    exact present writing tokens result member
  · simpa using absent

theorem reads_laterRow :
    Reads (commaSeparated (sum inner (atom inner)) (sum inner (operand inner)))
      (Derives .laterRow) := by
  have cell := reads_sum sound (reads_operand sound)
  have firstCell := reads_sum sound (reads_atom sound false)
  exact .commaSeparated (.sum true) firstCell cell fun first others => others.laterRow first

theorem reads_sheetContents : Reads (sheetContents inner) (Derives .contents) := by
  unfold sheetContents rows
  simp only [bind_assoc, pure_bind]
  refine .optionalSymbol (fun opening => ?_) ?_
  · simp only [↓reduceIte]
    have cell := reads_sum sound (reads_operand sound)
    have laterRow := reads_laterRow sound
    refine (Reads.separated (.sum true) cell).bind fun _ first firstDerives => ?_
    refine (Reads.many .laterRow laterRow).bind fun _ others othersDerive => ?_
    refine .symbol fun closing => ?_
    exact .pure (by simpa using Derives.rows firstDerives othersDerive)
  · refine .integer fun width widthLine widthValue widthFits => ?_
    refine .symbol fun times => ?_
    refine .integer fun height heightLine heightValue heightFits => ?_
    exact .pure (.size widthFits heightFits)

theorem reads_variableDefinition :
    Reads (variableDefinition inner) (Derives .variableDefinition) := by
  unfold variableDefinition
  refine .peek fun next => ?_
  split
  · refine .keyword fun opening => ?_
    refine .text fun name line => ?_
    refine reads_optionalValue (reads_comparison sound) (.pure .scalarPlain) ?_
    intro equal tokens value derivation
    exact .pure (by simpa using Derives.scalarValue derivation)
  · refine .keyword fun opening => ?_
    refine .text fun name line => ?_
    refine reads_optionalValue (reads_range sound) (.pure .rangePlain) ?_
    intro equal tokens value derivation
    exact .pure (by simpa using Derives.rangeValue derivation)
  · refine .keyword fun opening => ?_
    refine .text fun name line => ?_
    refine reads_optionalValue (reads_sheetContents sound) (.pure .sheetPlain) ?_
    intro equal tokens value derivation
    exact .pure (by simpa using Derives.sheetValue derivation)

omit sound in
theorem reads_parameter : Reads parameter (Derives .parameter) := by
  unfold parameter
  refine .peek fun next => ?_
  split
  · refine .text fun name line => ?_
    refine .symbol fun colon => ?_
    refine .keyword fun family => ?_
    exact .pure .scalarParameter
  · refine .text fun name line => ?_
    refine .symbol fun colon => ?_
    refine .keyword fun family => ?_
    exact .pure .rangeParameter
  · refine .text fun name line => ?_
    refine .symbol fun colon => ?_
    refine .keyword fun family => ?_
    exact .pure .sheetParameter

omit sound in
theorem reads_parameters : Reads parameters (Derives .parameters) := by
  unfold parameters
  refine .symbol fun opening => ?_
  refine .optionalSymbol (fun closing => ?_) ?_
  · exact .pure .parametersNone
  · refine (Reads.separated .parameter reads_parameter).bind fun _ items derivation => ?_
    refine .symbol fun closing => ?_
    exact .pure (.parametersSome derivation)

omit sound in
theorem reads_returnType : Reads returnType (Derives .returnType) := by
  unfold returnType
  refine .peek fun next => ?_
  split
  · refine .keyword fun family => ?_
    exact .pure .returnsScalar
  · refine .keyword fun family => ?_
    exact .pure .returnsRange

theorem reads_definition : Reads (definition inner) (Derives .definition) := by
  have locals : Reads (many startsVariable (variableDefinition inner))
      (Derives (.many .variableDefinition)) :=
    .many .variableDefinition (reads_variableDefinition sound)
  unfold definition body
  simp only [bind_assoc, pure_bind]
  refine .peek fun next => ?_
  split
  · refine .keyword fun opening => ?_
    refine .text fun name line => ?_
    refine reads_parameters.bind fun _ parameters parametersDerive => ?_
    refine .keyword fun separator => ?_
    refine reads_returnType.bind fun _ returnType returnTypeDerives => ?_
    refine .keyword fun is => ?_
    refine locals.bind fun _ defined definedDerive => ?_
    refine (reads_block sound).bind fun _ statements statementsDerive => ?_
    refine .keyword fun closing => ?_
    exact .pure (by
      simpa using
        Derives.function parametersDerive returnTypeDerives definedDerive statementsDerive)
  · refine .keyword fun opening => ?_
    refine .text fun name line => ?_
    refine reads_parameters.bind fun _ parameters parametersDerive => ?_
    refine .keyword fun is => ?_
    refine locals.bind fun _ defined definedDerive => ?_
    refine (reads_block sound).bind fun _ statements statementsDerive => ?_
    refine .keyword fun closing => ?_
    exact .pure (by
      simpa using Derives.subroutine parametersDerive definedDerive statementsDerive)
  · refine (reads_variableDefinition sound).bind fun _ defined derivation => ?_
    exact .pure (by simpa using Derives.variable derivation)

theorem reads_program : Reads (program inner) (Derives .program) := by
  unfold program
  refine (Reads.many .definition (reads_definition sound)).bind
    fun _ definitions definitionsDerive => ?_
  refine (reads_block sound).bind fun _ statements statementsDerive => ?_
  exact .pure (by simpa using Derives.program definitionsDerive statementsDerive)

end

end Parser
end SheetLang
