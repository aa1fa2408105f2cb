import SheetLang.Grammar.Production

/-!
# Derivations by productions

A token list derives from a nonterminal exactly if it spells out a production of it.  So
`Reaches` finds every part of every derivation, and a part may be replaced by anything that
derives from the same nonterminal with the same value: the whole keeps its value.
-/

namespace SheetLang

open Grammar

namespace Grammar

variable {front middle tokens : List Token} {items left right : List Item}

theorem spells_tokens {written : List Token} :
    Spells front (written.map Item.token ++ items) tokens ↔
      Spells (front ++ written) items tokens := by
  induction written generalizing front with
  | nil => simp
  | cons token written induction =>
      rw [List.append_cons, ← induction]
      rfl

theorem Spells.append (first : Spells front left middle) (second : Spells middle right tokens) :
    Spells front (left ++ right) tokens := by
  induction left generalizing front with
  | nil =>
      obtain rfl := first
      exact second
  | cons item left induction =>
      cases item with
      | token token => exact induction first
      | phrase A value =>
          obtain ⟨part, derivation, rest⟩ := first
          exact ⟨part, derivation, induction rest⟩

theorem Spells.behind (before : List Token) (spelled : Spells front items tokens) :
    Spells (before ++ front) items (before ++ tokens) := by
  induction items generalizing front with
  | nil =>
      obtain rfl := spelled
      rfl
  | cons item items induction =>
      cases item with
      | token token =>
          have rest : Spells (before ++ (front ++ [token])) items (before ++ tokens) :=
            induction spelled
          rwa [← List.append_assoc] at rest
      | phrase A value =>
          obtain ⟨part, derivation, spelled⟩ := spelled
          have rest := induction spelled
          rw [← List.append_assoc] at rest
          exact ⟨part, derivation, rest⟩

/-- A nonterminal among items is spelled out by what derives from it. -/
theorem Spells.around {A : Nonterminal} {value : A.Value} {before part behind : List Token}
    (ahead : Spells [] left before) (derivation : Derives A part value)
    (after : Spells [] right behind) :
    Spells [] (left ++ .phrase A value :: right) (before ++ part ++ behind) := by
  have rest := after.behind (before ++ part)
  rw [List.append_nil] at rest
  exact ahead.append ⟨part, derivation, rest⟩

end Grammar

/-- What spells out a production derives from its nonterminal. -/
theorem Grammar.Production.derives {A : Nonterminal} {items : List Item} {value : A.Value}
    {tokens : List Token} (production : Production A items value)
    (spelled : Spells [] items tokens) : Derives A tokens value := by
  cases production with
  | manyNil =>
      obtain rfl := spelled
      exact .manyNil
  | manyCons =>
      obtain ⟨ts, first, us, others, rfl⟩ := spelled
      simpa using Derives.manyCons first others
  | separatedOne =>
      obtain ⟨ts, only, rfl⟩ := spelled
      simpa using Derives.separatedOne only
  | separatedCons =>
      obtain ⟨ts, first, us, others, rfl⟩ := spelled
      simpa using Derives.separatedCons first others
  | name =>
      obtain rfl := spelled
      exact .name
  | decimal =>
      obtain rfl := spelled
      exact .decimal
  | callOperand =>
      obtain ⟨ts, call, rfl⟩ := spelled
      simpa using Derives.callOperand call
  | cellOperand =>
      obtain ⟨ts, cell, rfl⟩ := spelled
      simpa using Derives.cellOperand cell
  | count =>
      obtain ⟨ts, range, rfl⟩ := spelled
      simpa using Derives.count range
  | parentheses =>
      obtain ⟨ts, inside, rfl⟩ := spelled
      simpa using Derives.parentheses inside
  | negate =>
      obtain ⟨ts, operand, rfl⟩ := spelled
      simpa using Derives.negate operand
  | productOne =>
      obtain ⟨ts, operand, rfl⟩ := spelled
      simpa using Derives.productOne operand
  | productCons multiplies =>
      obtain ⟨ts, left, us, right, rfl⟩ := spelled
      simpa using Derives.productCons multiplies left right
  | sumOne =>
      obtain ⟨ts, product, rfl⟩ := spelled
      simpa using Derives.sumOne product
  | sumCons adds =>
      obtain ⟨ts, left, us, right, rfl⟩ := spelled
      simpa using Derives.sumCons adds left right
  | comparisonOne =>
      obtain ⟨ts, sum, rfl⟩ := spelled
      simpa using Derives.comparisonOne sum
  | comparisonCons compares =>
      obtain ⟨ts, left, us, right, rfl⟩ := spelled
      simpa using Derives.comparisonCons compares left right
  | named =>
      obtain rfl := spelled
      exact .named
  | span =>
      obtain ⟨ts, first, us, last, rfl⟩ := spelled
      simpa using Derives.span first last
  | callRange =>
      obtain ⟨ts, call, rfl⟩ := spelled
      simpa using Derives.callRange call
  | part column row =>
      obtain ⟨ts, range, rfl⟩ := spelled
      simpa using Derives.part range column row
  | inSheet =>
      obtain rfl := spelled
      exact .inSheet
  | currentIn =>
      obtain rfl := spelled
      exact .currentIn
  | current =>
      obtain rfl := spelled
      exact .current
  | callNone =>
      obtain rfl := spelled
      exact .callNone
  | callSome =>
      obtain ⟨ts, arguments, rfl⟩ := spelled
      simpa using Derives.callSome arguments
  | scalarArgument =>
      obtain ⟨ts, value, rfl⟩ := spelled
      simpa using Derives.scalarArgument value
  | rangeArgument =>
      obtain ⟨ts, value, rfl⟩ := spelled
      simpa using Derives.rangeArgument value
  | sheetArgument =>
      obtain rfl := spelled
      exact .sheetArgument
  | block =>
      obtain ⟨ts, first, us, others, rfl⟩ := spelled
      simpa using Derives.block first others
  | printSheet info =>
      obtain rfl := spells_tokens.mp spelled
      simpa using Derives.printSheet info
  | printRange info =>
      obtain ⟨us, range, rfl⟩ := spells_tokens.mp spelled
      simpa using Derives.printRange info range
  | printScalar info =>
      obtain ⟨us, value, rfl⟩ := spells_tokens.mp spelled
      simpa using Derives.printScalar info value
  | branchOne =>
      obtain ⟨ts, condition, us, positive, rfl⟩ := spelled
      simpa using Derives.branchOne condition positive
  | branchTwo =>
      obtain ⟨ts, condition, us, positive, vs, negative, rfl⟩ := spelled
      simpa using Derives.branchTwo condition positive negative
  | loop =>
      obtain ⟨ts, condition, us, body, rfl⟩ := spelled
      simpa using Derives.loop condition body
  | traverse =>
      obtain ⟨ts, ranges, us, body, rfl⟩ := spelled
      simpa using Derives.traverse ranges body
  | callStatement =>
      obtain ⟨ts, call, rfl⟩ := spelled
      simpa using Derives.callStatement call
  | returnScalar =>
      obtain ⟨ts, value, rfl⟩ := spelled
      simpa using Derives.returnScalar value
  | returnRange =>
      obtain ⟨ts, value, rfl⟩ := spelled
      simpa using Derives.returnRange value
  | assignScalar =>
      obtain ⟨ts, value, rfl⟩ := spelled
      simpa using Derives.assignScalar value
  | assignCell =>
      obtain ⟨ts, target, us, value, rfl⟩ := spelled
      simpa using Derives.assignCell target value
  | assignRange =>
      obtain ⟨ts, value, rfl⟩ := spelled
      simpa using Derives.assignRange value
  | assignSheet =>
      obtain rfl := spelled
      exact .assignSheet
  | scalarPlain =>
      obtain rfl := spelled
      exact .scalarPlain
  | scalarValue =>
      obtain ⟨ts, value, rfl⟩ := spelled
      simpa using Derives.scalarValue value
  | rangePlain =>
      obtain rfl := spelled
      exact .rangePlain
  | rangeValue =>
      obtain ⟨ts, value, rfl⟩ := spelled
      simpa using Derives.rangeValue value
  | sheetPlain =>
      obtain rfl := spelled
      exact .sheetPlain
  | sheetValue =>
      obtain ⟨ts, contents, rfl⟩ := spelled
      simpa using Derives.sheetValue contents
  | rows =>
      obtain ⟨ts, first, us, others, rfl⟩ := spelled
      simpa using Derives.rows first others
  | size width height =>
      obtain rfl := spelled
      exact .size width height
  | laterRowOne =>
      obtain ⟨ts, only, rfl⟩ := spelled
      simpa using Derives.laterRowOne only
  | laterRowCons =>
      obtain ⟨ts, first, us, others, rfl⟩ := spelled
      simpa using Derives.laterRowCons first others
  | scalarParameter =>
      obtain rfl := spelled
      exact .scalarParameter
  | rangeParameter =>
      obtain rfl := spelled
      exact .rangeParameter
  | sheetParameter =>
      obtain rfl := spelled
      exact .sheetParameter
  | parametersNone =>
      obtain rfl := spelled
      exact .parametersNone
  | parametersSome =>
      obtain ⟨ts, items, rfl⟩ := spelled
      simpa using Derives.parametersSome items
  | returnsScalar =>
      obtain rfl := spelled
      exact .returnsScalar
  | returnsRange =>
      obtain rfl := spelled
      exact .returnsRange
  | «variable» =>
      obtain ⟨ts, definition, rfl⟩ := spelled
      simpa using Derives.variable definition
  | function =>
      obtain ⟨ts, parameters, us, returnType, vs, locals, ws, body, rfl⟩ := spelled
      simpa using Derives.function parameters returnType locals body
  | subroutine =>
      obtain ⟨ts, parameters, us, locals, vs, body, rfl⟩ := spelled
      simpa using Derives.subroutine parameters locals body
  | program =>
      obtain ⟨ts, definitions, us, statements, rfl⟩ := spelled
      simpa using Derives.program definitions statements

/-- What derives from a nonterminal spells out one of its productions. -/
theorem Derives.exists_production {A : Nonterminal} {value : A.Value} {tokens : List Token}
    (derivation : Derives A tokens value) :
    ∃ items, Production A items value ∧ Spells [] items tokens := by
  cases derivation with
  | manyNil => exact ⟨_, .manyNil, rfl⟩
  | manyCons first others => exact ⟨_, .manyCons, _, first, _, others, rfl⟩
  | separatedOne only => exact ⟨_, .separatedOne, _, only, rfl⟩
  | separatedCons first others =>
      exact ⟨_, .separatedCons, _, first, _, others,
        by simp only [Spells, List.append_assoc]; rfl⟩
  | name => exact ⟨_, .name, rfl⟩
  | decimal => exact ⟨_, .decimal, rfl⟩
  | callOperand call => exact ⟨_, .callOperand, _, call, rfl⟩
  | cellOperand cell => exact ⟨_, .cellOperand, _, cell, rfl⟩
  | count range =>
      exact ⟨_, .count, _, range,
        by simp only [Spells, List.append_assoc]; rfl⟩
  | parentheses inside =>
      exact ⟨_, .parentheses, _, inside,
        by simp only [Spells, List.append_assoc]; rfl⟩
  | negate operand =>
      exact ⟨_, .negate, _, operand,
        by simp only [Spells, List.append_assoc]; rfl⟩
  | productOne operand => exact ⟨_, .productOne, _, operand, rfl⟩
  | productCons multiplies left right =>
      exact ⟨_, .productCons multiplies, _, left, _, right,
        by simp only [Spells, List.append_assoc]; rfl⟩
  | sumOne product => exact ⟨_, .sumOne, _, product, rfl⟩
  | sumCons adds left right =>
      exact ⟨_, .sumCons adds, _, left, _, right,
        by simp only [Spells, List.append_assoc]; rfl⟩
  | comparisonOne sum => exact ⟨_, .comparisonOne, _, sum, rfl⟩
  | comparisonCons compares left right =>
      exact ⟨_, .comparisonCons compares, _, left, _, right,
        by simp only [Spells, List.append_assoc]; rfl⟩
  | named => exact ⟨_, .named, rfl⟩
  | span first last =>
      exact ⟨_, .span, _, first, _, last,
        by simp only [Spells, List.append_assoc]; rfl⟩
  | callRange call =>
      exact ⟨_, .callRange, _, call,
        by simp only [Spells, List.append_assoc]; rfl⟩
  | part range column row =>
      exact ⟨_, .part column row, _, range,
        by simp only [Spells, List.append_assoc]; rfl⟩
  | inSheet => exact ⟨_, .inSheet, rfl⟩
  | currentIn => exact ⟨_, .currentIn, rfl⟩
  | current => exact ⟨_, .current, rfl⟩
  | callNone => exact ⟨_, .callNone, rfl⟩
  | callSome arguments =>
      exact ⟨_, .callSome, _, arguments,
        by simp only [Spells, List.append_assoc]; rfl⟩
  | scalarArgument value => exact ⟨_, .scalarArgument, _, value, rfl⟩
  | rangeArgument value => exact ⟨_, .rangeArgument, _, value, rfl⟩
  | sheetArgument => exact ⟨_, .sheetArgument, rfl⟩
  | block first others => exact ⟨_, .block, _, first, _, others, rfl⟩
  | printSheet info =>
      exact ⟨_, .printSheet info, spells_tokens.mpr
        (by simp only [Spells, List.append_assoc]; rfl)⟩
  | printRange info range =>
      exact ⟨_, .printRange info, spells_tokens.mpr
        ⟨_, range, by simp only [Spells, List.append_assoc]; rfl⟩⟩
  | printScalar info value =>
      exact ⟨_, .printScalar info, spells_tokens.mpr
        ⟨_, value, by simp only [Spells, List.append_assoc]; rfl⟩⟩
  | branchOne condition positive =>
      exact ⟨_, .branchOne, _, condition, _, positive,
        by simp only [Spells, List.append_assoc]; rfl⟩
  | branchTwo condition positive negative =>
      exact ⟨_, .branchTwo, _, condition, _, positive, _, negative,
        by simp only [Spells, List.append_assoc]; rfl⟩
  | loop condition body =>
      exact ⟨_, .loop, _, condition, _, body,
        by simp only [Spells, List.append_assoc]; rfl⟩
  | traverse ranges body =>
      exact ⟨_, .traverse, _, ranges, _, body,
        by simp only [Spells, List.append_assoc]; rfl⟩
  | callStatement call => exact ⟨_, .callStatement, _, call, rfl⟩
  | returnScalar value =>
      exact ⟨_, .returnScalar, _, value,
        by simp only [Spells, List.append_assoc]; rfl⟩
  | returnRange value =>
      exact ⟨_, .returnRange, _, value,
        by simp only [Spells, List.append_assoc]; rfl⟩
  | assignScalar value =>
      exact ⟨_, .assignScalar, _, value,
        by simp only [Spells, List.append_assoc]; rfl⟩
  | assignCell target value =>
      exact ⟨_, .assignCell, _, target, _, value,
        by simp only [Spells, List.append_assoc]; rfl⟩
  | assignRange value =>
      exact ⟨_, .assignRange, _, value,
        by simp only [Spells, List.append_assoc]; rfl⟩
  | assignSheet => exact ⟨_, .assignSheet, rfl⟩
  | scalarPlain => exact ⟨_, .scalarPlain, rfl⟩
  | scalarValue value =>
      exact ⟨_, .scalarValue, _, value,
        by simp only [Spells, List.append_assoc]; rfl⟩
  | rangePlain => exact ⟨_, .rangePlain, rfl⟩
  | rangeValue value =>
      exact ⟨_, .rangeValue, _, value,
        by simp only [Spells, List.append_assoc]; rfl⟩
  | sheetPlain => exact ⟨_, .sheetPlain, rfl⟩
  | sheetValue contents =>
      exact ⟨_, .sheetValue, _, contents,
        by simp only [Spells, List.append_assoc]; rfl⟩
  | rows first others =>
      exact ⟨_, .rows, _, first, _, others,
        by simp only [Spells, List.append_assoc]; rfl⟩
  | size width height => exact ⟨_, .size width height, rfl⟩
  | laterRowOne only => exact ⟨_, .laterRowOne, _, only, rfl⟩
  | laterRowCons first others =>
      exact ⟨_, .laterRowCons, _, first, _, others,
        by simp only [Spells, List.append_assoc]; rfl⟩
  | scalarParameter => exact ⟨_, .scalarParameter, rfl⟩
  | rangeParameter => exact ⟨_, .rangeParameter, rfl⟩
  | sheetParameter => exact ⟨_, .sheetParameter, rfl⟩
  | parametersNone => exact ⟨_, .parametersNone, rfl⟩
  | parametersSome items =>
      exact ⟨_, .parametersSome, _, items,
        by simp only [Spells, List.append_assoc]; rfl⟩
  | returnsScalar => exact ⟨_, .returnsScalar, rfl⟩
  | returnsRange => exact ⟨_, .returnsRange, rfl⟩
  | «variable» definition => exact ⟨_, .variable, _, definition, rfl⟩
  | function parameters returnType locals body =>
      exact ⟨_, .function, _, parameters, _, returnType, _, locals, _, body,
        by simp only [Spells, List.append_assoc]; rfl⟩
  | subroutine parameters locals body =>
      exact ⟨_, .subroutine, _, parameters, _, locals, _, body,
        by simp only [Spells, List.append_assoc]; rfl⟩
  | program definitions statements => exact ⟨_, .program, _, definitions, _, statements, rfl⟩


theorem derives_iff_production {A : Nonterminal} {value : A.Value} {tokens : List Token} :
    Derives A tokens value ↔ ∃ items, Production A items value ∧ Spells [] items tokens := by
  constructor
  · exact Derives.exists_production
  · rintro ⟨items, production, spelled⟩
    exact production.derives spelled

/-! ## Parts of derivations -/

/-- Whatever derives from a nonterminal that a derivation goes through may stand there. -/
theorem Grammar.Reaches.derives {A B : Nonterminal} {value : B.Value} {whole : A.Value}
    {front part back : List Token} (reaches : Reaches B value A whole front back)
    (derivation : Derives B part value) : Derives A (front ++ part ++ back) whole := by
  induction reaches with
  | here => simpa using derivation
  | through _ _ production ahead behind _ inside =>
      simpa using derives_iff_production.mpr ⟨_, production, ahead.around inside behind⟩

/-- What is spelled out by items is spelled out by the first of them and then by the others. -/
theorem Grammar.Spells.exists_middle {front tokens : List Token} {left right : List Item}
    (spelled : Spells front (left ++ right) tokens) :
    ∃ middle, Spells front left middle ∧ Spells middle right tokens := by
  induction left generalizing front with
  | nil => exact ⟨front, rfl, spelled⟩
  | cons item left induction =>
      cases item with
      | token token => exact induction spelled
      | phrase A value =>
          obtain ⟨part, derivation, rest⟩ := spelled
          obtain ⟨middle, first, second⟩ := induction rest
          exact ⟨middle, ⟨part, derivation, first⟩, second⟩

/-- The tokens in front do not take part. -/
theorem Grammar.Spells.exists_behind {front tokens : List Token} {items : List Item}
    (spelled : Spells front items tokens) :
    ∃ behind, tokens = front ++ behind ∧ Spells [] items behind := by
  induction items generalizing front with
  | nil => exact ⟨[], by rw [List.append_nil]; exact spelled, rfl⟩
  | cons item items induction =>
      cases item with
      | token token =>
          obtain ⟨behind, rfl, last⟩ := induction spelled
          exact ⟨token :: behind, by simp, last.behind [token]⟩
      | phrase A value =>
          obtain ⟨part, derivation, rest⟩ := spelled
          obtain ⟨behind, rfl, last⟩ := induction rest
          exact ⟨part ++ behind, by simp, part, derivation, by simpa using last.behind part⟩

/-- A derivation that goes through a nonterminal goes through the phrases of its production. -/
theorem Grammar.Reaches.step {A B C : Nonterminal} {whole : A.Value} {value : B.Value}
    {inner : C.Value} {front back before behind : List Token} {left right : List Item}
    (reaches : Reaches B value A whole front back)
    (production : Production B (left ++ .phrase C inner :: right) value)
    (ahead : Spells [] left before) (rest : Spells [] right behind) :
    Reaches C inner A whole (front ++ before) (behind ++ back) := by
  induction reaches with
  | here => simpa using Reaches.through left right production ahead rest .here
  | through left right outer first last _ induction =>
      simpa using Reaches.through left right outer first last induction

theorem Grammar.reduces_program {tokens : List Token} {program : Program}
    (derivation : Derives .program tokens program) : Reduces .program [] tokens [] :=
  ⟨program, program, .here, derivation⟩

/-- What is reduced to a nonterminal is spelled out by a production of it, and every phrase of
the production is reduced in turn.  So every part of a derivation is found from the program
downwards. -/
theorem Grammar.Reduces.exists_production {A : Nonterminal} {front part back : List Token}
    (reduces : Reduces A front part back) :
    ∃ items value, Production A items value ∧ Spells [] items part ∧
      ∀ left C inner right, items = left ++ .phrase C inner :: right →
        ∃ before middle behind, part = before ++ middle ++ behind ∧
          Reduces C (front ++ before) middle (behind ++ back) := by
  obtain ⟨whole, value, reaches, derivation⟩ := reduces
  obtain ⟨items, production, spelled⟩ := derives_iff_production.mp derivation
  refine ⟨items, value, production, spelled, ?_⟩
  rintro left C inner right rfl
  obtain ⟨before, ahead, middle, inside, rest⟩ := spelled.exists_middle
  obtain ⟨behind, rfl, last⟩ := rest.exists_behind
  exact ⟨before, middle, behind, rfl, whole, inner, reaches.step production ahead last, inside⟩

end SheetLang
