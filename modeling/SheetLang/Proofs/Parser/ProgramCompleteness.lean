import SheetLang.Parser.Program
import SheetLang.Proofs.Parser.ExpressionCompleteness

/-!
# Completeness of the parsers of programs

With parsers that complete the expressions within them, the parsers of
statements, definitions and programs complete their nonterminals.  Blocks within
a block derive from fewer tokens than the block, as expressions do.
-/

namespace SheetLang

open Grammar

theorem Completes.mono {A : Nonterminal} {parser : Parser A.Value}
    (completes : Completes A bound parser) (smaller : size ≤ bound) :
    Completes A size parser := by
  intro tokens value rest derivation short ends
  exact completes rest derivation (by omega) ends

namespace Parser

/-! ## Statements -/

theorem optionalInfo_run (announced : Info ts info)
    (absent : rest.head?.map Token.kind ≠ some .info) :
    optionalInfo (ts ++ rest) = .ok (info, rest) := by
  cases announced with
  | absent => simp [-bind_pure_comp, optionalInfo, absent]
  | present => simp [-bind_pure_comp, optionalInfo]

theorem print_run {keyword : Keyword} {argument : Parser Argument} {writing : Writing}
    (announced : Info ts info) (absent : (us ++ rest).head?.map Token.kind ≠ some .info)
    (argumentRun : argument (us ++ rest) = .ok (value, rest)) :
    print keyword argument (word keyword writing :: ts ++ us ++ rest) =
      .ok (.print info value, rest) := by
  have infoRun := optionalInfo_run announced absent
  simp [-bind_pure_comp, print, bind_run infoRun, bind_run argumentRun]

section

variable {inner : Nested} {depth : Nat} (complete : inner.Complete depth)
include complete

theorem completes_statement {block : Parser (List Statement)} (within : bound ≤ depth)
    (blocks : Completes .block bound block) :
    Completes .statement (bound + 1) (statement inner block) := by
  have scalars : Completes .comparison (bound + 1) (comparison inner) :=
    Completes.mono (completes_comparison complete) (by omega)
  have ranges : Completes .range (bound + 1) (range inner) :=
    Completes.mono (completes_range complete) (by omega)
  intro tokens value rest derivation short ends
  have endsScalar : Ends .comparison rest := ends.mono fun kind going => going
  have endsRange : Ends .range rest := ends.mono fun kind going => by
    simp_all [Nonterminal.extends, extendsComparison, extendsSum, extendsProduct]
  unfold statement
  rw [peek_run]
  cases derivation with
  | printSheet announced =>
      exact print_run announced (by simp) (by simp [-bind_pure_comp])
  | @printRange ts info us range writing announced derivation =>
      simp only [List.cons_append, List.length_cons, List.length_append] at short
      have absent := (derivation.opens rfl).head_ne .info rfl rest
      have rangeRun := ranges rest derivation (by omega) endsRange
      exact print_run announced absent (by simp [-bind_pure_comp, bind_run rangeRun])
  | @printScalar ts info us scalar writing announced derivation =>
      simp only [List.cons_append, List.length_cons, List.length_append] at short
      have absent := (derivation.opens rfl).head_ne .info rfl rest
      have scalarRun := scalars rest derivation (by omega) endsScalar
      exact print_run announced absent (by simp [-bind_pure_comp, bind_run scalarRun])
  | @branchOne ts condition us positive opening separator closing conditionDerives
      positiveDerives =>
      simp only [List.cons_append, List.length_cons, List.length_append, List.length_nil] at short
      have conditionRun := scalars (word .then separator :: (us ++ word .endif closing :: rest))
        conditionDerives (by omega) (ends_cons.mpr rfl)
      have positiveRun := blocks (word .endif closing :: rest) positiveDerives (by omega)
        (ends_cons.mpr rfl)
      simp [-bind_pure_comp, bind_run conditionRun, bind_run positiveRun]
  | @branchTwo ts condition us positive vs negative opening separator alternative closing
      conditionDerives positiveDerives negativeDerives =>
      simp only [List.cons_append, List.length_cons, List.length_append, List.length_nil] at short
      have conditionRun := scalars (word .then separator :: (us ++ word .else alternative ::
        (vs ++ word .endif closing :: rest))) conditionDerives (by omega) (ends_cons.mpr rfl)
      have positiveRun := blocks (word .else alternative :: (vs ++ word .endif closing :: rest))
        positiveDerives (by omega) (ends_cons.mpr rfl)
      have negativeRun := blocks (word .endif closing :: rest) negativeDerives (by omega)
        (ends_cons.mpr rfl)
      simp [-bind_pure_comp, bind_run conditionRun, bind_run positiveRun, bind_run negativeRun]
  | @loop ts condition us body opening separator closing conditionDerives bodyDerives =>
      simp only [List.cons_append, List.length_cons, List.length_append, List.length_nil] at short
      have conditionRun := scalars (word .do separator :: (us ++ word .done closing :: rest))
        conditionDerives (by omega) (ends_cons.mpr rfl)
      have bodyRun := blocks (word .done closing :: rest) bodyDerives (by omega)
        (ends_cons.mpr rfl)
      simp [-bind_pure_comp, bind_run conditionRun, bind_run bodyRun]
  | @traverse ts us body opening separator closing items rangesDerive bodyDerives =>
      simp only [List.cons_append, List.length_cons, List.length_append, List.length_nil] at short
      have rangesRun := completes_separated ranges rfl rfl
        (word .do separator :: (us ++ word .done closing :: rest)) rangesDerive (by omega)
        (ends_cons.mpr rfl)
      have bodyRun := blocks (word .done closing :: rest) bodyDerives (by omega)
        (ends_cons.mpr rfl)
      simp [-bind_pure_comp, bind_run rangesRun, bind_run bodyRun]
  | callStatement derivation =>
      have callRun := completes_call complete rest derivation (by omega) fun _ _ => rfl
      rw [derivation.call_head rest]
      simp [-bind_pure_comp, bind_run callRun]
  | @returnScalar ts value opening derivation =>
      simp only [List.length_cons] at short
      have valueRun := scalars rest derivation (by omega) endsScalar
      obtain ⟨token, more, rfl, start⟩ := derivation.opens rfl
      have scalar := startsRange_of_startsComparison start
      simp only [List.cons_append] at valueRun ⊢
      simp [-bind_pure_comp, scalar, bind_run valueRun]
  | @returnRange ts value opening derivation =>
      simp only [List.length_cons] at short
      have valueRun := ranges rest derivation (by omega) endsRange
      obtain ⟨token, more, rfl, start⟩ := derivation.opens rfl
      have ranged : startsRange token.kind = true := start
      simp only [List.cons_append] at valueRun ⊢
      simp [-bind_pure_comp, ranged, bind_run valueRun]
  | @assignScalar ts value target line sign derivation =>
      simp only [List.length_cons] at short
      have valueRun := scalars rest derivation (by omega) endsScalar
      simp [-bind_pure_comp, assigned, bind_run valueRun]
  | @assignCell ts target us value sign targetDerives derivation =>
      simp only [List.length_cons, List.length_append] at short
      have targetRun := completes_cellRef _ (mark .assign sign :: (us ++ rest)) targetDerives
        (Nat.le_refl _) (ends_cons.mpr rfl)
      have valueRun := scalars rest derivation (by omega) endsScalar
      have assignRun : (do return .assignCell (← cellRef) (← assigned (comparison inner)) :
          Parser Statement) (ts ++ mark .assign sign :: (us ++ rest)) =
            .ok (.assignCell target value, rest) := by
        simp [-bind_pure_comp, assigned, bind_run targetRun, bind_run valueRun]
      -- A dollar or a second token tells a cell from the other targets.
      cases targetDerives with
      | inSheet => simpa [-bind_pure_comp] using assignRun
      | currentIn => simpa [-bind_pure_comp] using assignRun
      | current => simpa [-bind_pure_comp] using assignRun
  | @assignRange ts value target line sign derivation =>
      simp only [List.length_cons] at short
      have valueRun := ranges rest derivation (by omega) endsRange
      simp [-bind_pure_comp, assigned, bind_run valueRun]
  | assignSheet => simp [-bind_pure_comp, assigned]

/-- A block of some size is read within every bound that is as large, even if
the blocks within it nest less deep. -/
theorem completes_blockUpTo (bound : Nat) (size : Nat) (within : size ≤ depth + 1)
    (enough : size ≤ bound) : Completes .block size (blockUpTo inner bound) := by
  induction bound generalizing size with
  | zero =>
      intro tokens value rest derivation short ends
      have positive := derivation.length_pos rfl
      omega
  | succ bound induction =>
      intro tokens value rest derivation short ends
      cases size with
      | zero =>
          have positive := derivation.length_pos rfl
          omega
      | succ size =>
          have statements := completes_statement complete (by omega)
            (induction size (by omega) (by omega))
          cases derivation with
          | block firstDerives othersDerive =>
              have disjoint : ∀ kind, startsStatement kind = true →
                  extendsComparison kind = false := by
                intro kind start
                unfold startsStatement at start
                split at start
                all_goals first | rfl | cases start
              have repeated : Completes (.many .statement) (size + 1)
                  (many startsStatement (statement inner (blockUpTo inner bound))) :=
                completes_many statements rfl rfl disjoint
              have endsMany : Ends (.many .statement) rest := ends.mono fun kind going => going
              simp only [List.length_append] at short
              have firstRun := statements _ firstDerives (by omega)
                (ends_of_many disjoint othersDerive endsMany)
              have othersRun := repeated rest othersDerive (by omega) endsMany
              simp [-bind_pure_comp, blockUpTo, bind_run firstRun, bind_run othersRun]

theorem completes_block : Completes .block (depth + 1) (block inner) := by
  intro tokens value rest derivation short ends
  have completes := completes_blockUpTo complete (tokens ++ rest).length tokens.length short
    (by simp)
  exact completes rest derivation (Nat.le_refl _) ends

/-! ## Definitions -/

theorem completes_laterRow : Completes .laterRow (depth + 1)
    (commaSeparated (sum inner (atom inner)) (sum inner (operand inner))) := by
  intro tokens value rest derivation short ends
  have cellCompletes := completes_sum complete (completes_operand complete)
  have firstCompletes := completes_sum complete (completes_atom complete)
  obtain ⟨front, back, first, others, rfl, rfl, firstDerives, more⟩ := derivation.laterRow_cases
  simp only [List.length_append] at short
  have endsItems : Ends (.separated (.sum true)) rest := ends.mono fun kind going => going
  have endsFirst : Ends (.sum false) (back ++ rest) :=
    (ends_of_moreItems more rfl endsItems).mono fun kind going => going
  have firstRun := firstCompletes (back ++ rest) firstDerives (by omega) endsFirst
  exact commaSeparated_run cellCompletes rfl rfl firstRun more (by omega) endsItems

theorem completes_sheetContents : Completes .contents (depth + 1) (sheetContents inner) := by
  have cells : Completes (.separated (.sum true)) (depth + 1)
      (commaSeparated (sum inner (operand inner)) (sum inner (operand inner))) :=
    completes_separated (completes_sum complete (completes_operand complete)) rfl rfl
  have disjoint : ∀ kind, Nonterminal.laterRow.starts kind = true →
      Nonterminal.laterRow.extends kind = false := by
    intro kind start
    unfold Nonterminal.starts startsAtom at start
    split at start
    all_goals first | rfl | cases start
  have laterRows : Completes (.many .laterRow) (depth + 1)
      (many startsAtom (commaSeparated (sum inner (atom inner)) (sum inner (operand inner)))) :=
    completes_many (completes_laterRow complete) rfl rfl disjoint
  intro tokens value rest derivation short ends
  cases derivation with
  | @rows ts us opening closing first others firstDerives othersDerive =>
      simp only [List.cons_append, List.length_cons, List.length_append, List.length_nil] at short
      have endsOthers : Ends (.many .laterRow) (mark .rightBrace closing :: rest) :=
        ends_cons.mpr rfl
      have endsFirst : Ends (.separated (.sum true)) (us ++ mark .rightBrace closing :: rest) :=
        (ends_of_many disjoint othersDerive endsOthers).mono fun kind going => going
      have firstRun := cells _ firstDerives (by omega) endsFirst
      have othersRun := laterRows _ othersDerive (by omega) endsOthers
      simp [-bind_pure_comp, sheetContents, Parser.rows, bind_run firstRun, bind_run othersRun]
  | size widthFits heightFits =>
      simp only [sheetContents, List.cons_append, List.nil_append]
      rw [optionalSymbol_run_absent (by simp)]
      simp [-bind_pure_comp, integer_run widthFits, integer_run heightFits]

omit complete in
theorem optionalValue_run {value : Parser α} {writing : Writing}
    (valueRun : value tokens = .ok (result, rest)) :
    optionalValue value (mark .equal writing :: tokens) = .ok (some result, rest) := by
  simp [-bind_pure_comp, optionalValue, bind_run valueRun]

omit complete in
theorem optionalValue_run_absent (value : Parser α)
    (absent : rest.head?.map Token.kind ≠ some (.symbol .equal)) :
    optionalValue value rest = .ok (none, rest) := by
  unfold optionalValue
  rw [optionalSymbol_run_absent absent]
  rfl

theorem completes_variableDefinition :
    Completes .variableDefinition (depth + 1) (variableDefinition inner) := by
  intro tokens value rest derivation short ends
  have absent := ends.not_symbol .equal rfl
  cases derivation with
  | scalarPlain =>
      have valueRun := optionalValue_run_absent (comparison inner) absent
      simp [-bind_pure_comp, variableDefinition, bind_run valueRun]
  | scalarValue derivation =>
      simp only [List.length_cons] at short
      have valueRun := completes_comparison complete rest derivation (by omega) ends
      simp [-bind_pure_comp, variableDefinition, bind_run (optionalValue_run valueRun)]
  | rangePlain =>
      have valueRun := optionalValue_run_absent (range inner) absent
      simp [-bind_pure_comp, variableDefinition, bind_run valueRun]
  | rangeValue derivation =>
      simp only [List.length_cons] at short
      have valueRun := completes_range complete rest derivation (by omega)
        (ends.mono fun kind going => by
          simp_all [Nonterminal.extends, extendsComparison, extendsSum, extendsProduct])
      simp [-bind_pure_comp, variableDefinition, bind_run (optionalValue_run valueRun)]
  | sheetPlain =>
      have valueRun := optionalValue_run_absent (sheetContents inner) absent
      simp [-bind_pure_comp, variableDefinition, bind_run valueRun]
  | sheetValue derivation =>
      simp only [List.length_cons] at short
      have valueRun := completes_sheetContents complete rest derivation (by omega)
        fun _ _ => rfl
      simp [-bind_pure_comp, variableDefinition, bind_run (optionalValue_run valueRun)]

omit complete in
theorem completes_parameter (bound : Nat) : Completes .parameter bound parameter := by
  intro tokens value rest derivation short ends
  cases derivation with
  | scalarParameter => simp [-bind_pure_comp, parameter]
  | rangeParameter => simp [-bind_pure_comp, parameter]
  | sheetParameter => simp [-bind_pure_comp, parameter]

omit complete in
theorem completes_parameters (bound : Nat) : Completes .parameters bound parameters := by
  intro tokens value rest derivation short ends
  cases derivation with
  | parametersNone => simp [-bind_pure_comp, parameters]
  | @parametersSome ts opening closing items derivation =>
      have absent := (derivation.opens rfl).head_ne (.symbol .rightBracket) rfl
        (mark .rightBracket closing :: rest)
      have itemsRun := completes_separated (completes_parameter _) rfl rfl
        (mark .rightBracket closing :: rest) derivation (Nat.le_refl _) (ends_cons.mpr rfl)
      simp [-bind_pure_comp, parameters, optionalSymbol_run_absent absent, bind_run itemsRun]

omit complete in
theorem completes_returnType (bound : Nat) : Completes .returnType bound returnType := by
  intro tokens value rest derivation short ends
  cases derivation with
  | returnsScalar => simp [-bind_pure_comp, returnType]
  | returnsRange => simp [-bind_pure_comp, returnType]

omit complete in
/-- A block ends whatever a statement does not go on with. -/
theorem ends_of_block {A : Nonterminal} (derivation : Derives .block tokens value)
    (rest : List Token) (disjoint : ∀ kind, startsStatement kind = true → A.extends kind = false) :
    Ends A (tokens ++ rest) := by
  obtain ⟨token, more, rfl, start⟩ := derivation.opens rfl
  exact ends_cons.mpr (disjoint _ start)

theorem body_run (rest : List Token) (localsDerive : Derives (.many .variableDefinition) ts locals)
    (statementsDerive : Derives .block us statements) (short : ts.length + us.length ≤ depth)
    (opening closing : Writing) :
    body inner (word .is opening :: (ts ++ (us ++ word .end closing :: rest))) =
      .ok ((locals, statements), rest) := by
  have disjoint : ∀ kind, startsVariable kind = true → extendsComparison kind = false := by
    intro kind start
    unfold startsVariable at start
    split at start
    all_goals first | rfl | cases start
  have localsComplete : Completes (.many .variableDefinition) (depth + 1)
      (many startsVariable (variableDefinition inner)) :=
    completes_many (completes_variableDefinition complete) rfl rfl disjoint
  have endsVariables : Ends (.many .variableDefinition) (us ++ word .end closing :: rest) :=
    ends_of_block statementsDerive _ fun kind start => by
      unfold startsStatement at start
      split at start
      all_goals first | rfl | cases start
  have localsRun := localsComplete _ localsDerive (by omega) endsVariables
  have statementsRun := completes_block complete (word .end closing :: rest) statementsDerive
    (by omega) (ends_cons.mpr rfl)
  simp [-bind_pure_comp, body, bind_run localsRun, bind_run statementsRun]

omit complete in
theorem definition_run {token : Token} (start : startsVariable token.kind = true) :
    definition inner (token :: rest) =
      (do return .variable (← variableDefinition inner) : Parser Definition) (token :: rest) := by
  unfold definition
  rw [peek_run]
  unfold startsVariable at start
  split at start
  all_goals simp_all

theorem completes_definition : Completes .definition (depth + 1) (definition inner) := by
  intro tokens value rest derivation short ends
  cases derivation with
  | «variable» derivation =>
      have definedRun := completes_variableDefinition complete rest derivation short ends
      obtain ⟨token, more, rfl, start⟩ := derivation.opens rfl
      simp only [List.cons_append] at definedRun ⊢
      rw [definition_run start, bind_run definedRun]
      rfl
  | @function ts parameters us returnType vs ws body opening name line separator is closing locals
      parametersDerive returnTypeDerives localsDerive statementsDerive =>
      simp only [List.cons_append, List.length_cons, List.length_append, List.length_nil] at short
      have parametersRun := completes_parameters _ (word .return separator :: (us ++
        word .is is :: (vs ++ (ws ++ word .end closing :: rest)))) parametersDerive
        (Nat.le_refl _) (ends_cons.mpr rfl)
      have returnTypeRun := completes_returnType _ (word .is is :: (vs ++ (ws ++
        word .end closing :: rest))) returnTypeDerives (Nat.le_refl _) (ends_cons.mpr rfl)
      have bodyRun := body_run complete rest localsDerive statementsDerive (by omega)
        is closing
      simp [-bind_pure_comp, definition, bind_run parametersRun, bind_run returnTypeRun,
        bind_run bodyRun]
  | @subroutine ts parameters us vs body opening name line is closing locals parametersDerive
      localsDerive statementsDerive =>
      simp only [List.cons_append, List.length_cons, List.length_append, List.length_nil] at short
      have parametersRun := completes_parameters _ (word .is is :: (us ++ (vs ++
        word .end closing :: rest))) parametersDerive (Nat.le_refl _) (ends_cons.mpr rfl)
      have bodyRun := body_run complete rest localsDerive statementsDerive (by omega)
        is closing
      simp [-bind_pure_comp, definition, bind_run parametersRun, bind_run bodyRun]

theorem completes_program : Completes .program (depth + 1) (program inner) := by
  intro tokens value rest derivation short ends
  cases derivation with
  | @program ts us statements definitions definitionsDerive statementsDerive =>
      have disjoint : ∀ kind, startsDefinition kind = true → extendsComparison kind = false := by
        intro kind start
        unfold startsDefinition startsVariable at start
        split at start
        · rfl
        · rfl
        · split at start
          all_goals first | rfl | cases start
      have repeated : Completes (.many .definition) (depth + 1)
          (many startsDefinition (definition inner)) :=
        completes_many (completes_definition complete) rfl rfl disjoint
      have endsDefinitions : Ends (.many .definition) (us ++ rest) :=
        ends_of_block statementsDerive _ fun kind start => by
          unfold startsStatement at start
          split at start
          all_goals first | rfl | cases start
      simp only [List.length_append] at short
      have definitionsRun := repeated _ definitionsDerive (by omega) endsDefinitions
      have statementsRun := completes_block complete rest statementsDerive (by omega)
        (ends.mono fun kind going => going)
      simp [-bind_pure_comp, program, bind_run definitionsRun, bind_run statementsRun]

end

end Parser

end SheetLang
