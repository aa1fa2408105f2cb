import SheetLang.Proofs.Grammar.Productions
import SheetLang.Proofs.Grammar.Signs
import SheetLang.Proofs.Parser.Acceptance

/-!
# Redundant parentheses

Around any part that a derivation reduces to a scalar expression, of whichever level, there
may be parentheses.  What stands in them may be any scalar, and they make up an operand without
a sign, from which every level derives, also where a row of a sheet must not open with a sign.
The value is that of what stands in the parentheses.
-/

namespace SheetLang

open Grammar

variable {tokens : List Token} {value : Expr} {signed : Bool}

theorem Derives.operand_maySign (derivation : Derives (.operand signed) tokens value) :
    Derives (.operand true) tokens value := by
  cases signed with
  | true => exact derivation
  | false => exact derivation.operand_signed

theorem Derives.product_maySign (derivation : Derives (.product signed) tokens value) :
    Derives (.product true) tokens value := by
  cases signed with
  | true => exact derivation
  | false => exact (Derives.product_unsigned_iff.mp derivation).1

theorem Derives.sum_maySign (derivation : Derives (.sum signed) tokens value) :
    Derives (.sum true) tokens value := by
  cases signed with
  | true => exact derivation
  | false => exact (Derives.sum_unsigned_iff.mp derivation).1

theorem Derives.parenthesized {E : Nonterminal} {value : E.Value} (scalar : E.isScalar = true)
    (derivation : Derives E tokens value) (opening closing : Writing) :
    Derives E (mark .leftParen opening :: tokens ++ [mark .rightParen closing]) value := by
  cases E with
  | comparison => exact .comparisonOne (.sumOne (.productOne (.parentheses derivation)))
  | sum signed =>
      exact .sumOne (.productOne (.parentheses (.comparisonOne derivation.sum_maySign)))
  | product signed =>
      exact .productOne (.parentheses (.comparisonOne (.sumOne derivation.product_maySign)))
  | operand signed =>
      exact .parentheses (.comparisonOne (.sumOne (.productOne derivation.operand_maySign)))
  | _ => cases scalar

/-- If the derivation of an accepted token list reduces a part of it to a scalar expression,
then the token list with that part in parentheses is accepted too, with the same program. -/
theorem parse_parentheses (E : Nonterminal) (front part back : List Token) (program : Program)
    (scalar : E.isScalar = true)
    (accepted : TokenStream.parse ⟨front ++ part ++ back, none⟩ = .ok program)
    (reduces : Reduces E front part back) (opening closing : Writing) :
    TokenStream.parse
        ⟨front ++ mark .leftParen opening :: part ++ mark .rightParen closing :: back, none⟩ =
      .ok program := by
  obtain ⟨whole, value, reaches, derivation⟩ := reduces
  have original := (TokenStream.parse_eq_ok_iff.mp accepted).1
  obtain ⟨-, rfl⟩ := original.determined rfl (reaches.derives derivation) rfl (ends_nil _)
    (ends_nil _)
  have parenthesized := reaches.derives (derivation.parenthesized scalar opening closing)
  apply TokenStream.parse_eq_ok_iff.mpr
  simpa using parenthesized

/-- The second row of a sheet, which must not open with a sign, may stand in parentheses. -/
theorem parse_parentheses_second_row :
    Nonterminal.isScalar (.sum false) = true ∧
    TokenStream.parse
        ⟨[word .sheet ("sheet", 1), ⟨.sheetName, "SS", 1⟩, mark .equal ("=", 1),
            mark .leftBrace ("\x7b", 1), ⟨.ident, "aa", 1⟩] ++
          [⟨.ident, "bb", 1⟩, mark .minus ("-", 1), ⟨.ident, "cc", 1⟩] ++
          [mark .rightBrace ("\x7d", 1), word .«return» ("return", 1), ⟨.ident, "dd", 1⟩],
          none⟩ =
      .ok ⟨[.variable (.sheet "SS" (some (.rows
        [[.name "aa"], [.binary .minus (.name "bb") (.name "cc")]])))],
        [.returnScalar (.name "dd")]⟩ ∧
    Reduces (.sum false)
      [word .sheet ("sheet", 1), ⟨.sheetName, "SS", 1⟩, mark .equal ("=", 1),
        mark .leftBrace ("\x7b", 1), ⟨.ident, "aa", 1⟩]
      [⟨.ident, "bb", 1⟩, mark .minus ("-", 1), ⟨.ident, "cc", 1⟩]
      [mark .rightBrace ("\x7d", 1), word .«return» ("return", 1), ⟨.ident, "dd", 1⟩] ∧
    TokenStream.parse
        ⟨[word .sheet ("sheet", 1), ⟨.sheetName, "SS", 1⟩, mark .equal ("=", 1),
            mark .leftBrace ("\x7b", 1), ⟨.ident, "aa", 1⟩] ++
          mark .leftParen ("(", 1) ::
            [⟨.ident, "bb", 1⟩, mark .minus ("-", 1), ⟨.ident, "cc", 1⟩] ++
          mark .rightParen (")", 1) ::
            [mark .rightBrace ("\x7d", 1), word .«return» ("return", 1), ⟨.ident, "dd", 1⟩],
          none⟩ =
      .ok ⟨[.variable (.sheet "SS" (some (.rows
        [[.name "aa"], [.binary .minus (.name "bb") (.name "cc")]])))],
        [.returnScalar (.name "dd")]⟩ := by
  suffices reduces : Reduces (.sum false) _ _ _ from
    ⟨rfl, rfl, reduces,
      parse_parentheses (.sum false) _ _ _ _ rfl rfl reduces ("(", 1) (")", 1)⟩
  have product (signed : Bool) (text : String) :
      Derives (.product signed) [⟨.ident, text, 1⟩] (.name text) := .productOne .name
  have difference : Derives (.sum false)
      ([⟨.ident, "bb", 1⟩] ++ mark .minus ("-", 1) :: [⟨.ident, "cc", 1⟩])
      (.binary .minus (.name "bb") (.name "cc")) :=
    .sumCons .minus (product false "bb") (.sumOne (product true "cc"))
  have first : Derives (.separated (.sum true)) [⟨.ident, "aa", 1⟩] [.name "aa"] :=
    .separatedOne (.sumOne (product true "aa"))
  have behind : Derives .block [word .«return» ("return", 1), ⟨.ident, "dd", 1⟩]
      [.returnScalar (.name "dd")] :=
    .block (.returnScalar (.comparisonOne (.sumOne (product true "dd")))) .manyNil
  -- From the row outwards to the program.
  have cell : Reaches (.sum false) (.binary .minus (.name "bb") (.name "cc")) (.sum false) _
      [] [] := .here
  have row := Reaches.through [] [] .laterRowOne rfl rfl cell
  have rows := Reaches.through [] [.phrase (.many .laterRow) []] .manyCons rfl
    ⟨_, .manyNil, rfl⟩ row
  have contents := Reaches.through
    [mark .leftBrace ("\x7b", 1), .phrase (.separated (.sum true)) [.name "aa"]]
    [mark .rightBrace ("\x7d", 1)] .rows ⟨_, first, rfl⟩ rfl rows
  have definition := Reaches.through
    [word .sheet ("sheet", 1), .token ⟨.sheetName, "SS", 1⟩, mark .equal ("=", 1)] []
    .sheetValue rfl rfl contents
  have definitions := Reaches.through [] [.phrase (.many .definition) []] .manyCons rfl
    ⟨_, .manyNil, rfl⟩ (.through [] [] .variable rfl rfl definition)
  exact ⟨_, _, .through [] [.phrase .block _] .program rfl ⟨_, behind, rfl⟩ definitions,
    difference⟩

end SheetLang
