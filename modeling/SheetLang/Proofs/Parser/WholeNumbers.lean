import SheetLang.Proofs.Grammar.Integers
import SheetLang.Proofs.Lexeme.WholeNumbers
import SheetLang.Proofs.Literal
import SheetLang.Proofs.Parser.Respelling
import SheetLang.Proofs.Parser.Trace
import SheetLang.Proofs.Program.Integers
import SheetLang.Proofs.TokenStream.Partition

/-!
# Whole numbers in the place of others

A program with another whole number in the place of one of its own is a program if that number
fits into 64 bits.  It holds the number there, and is the same program otherwise.  A number
that does not fit is what the source is refused with.
-/

namespace SheetLang

/-! ## Sources -/

theorem Lexeme.eq_splice_of_cut {source : String} {before after : List Lexeme} {lexeme : Lexeme}
    (found : cut source.toList = before ++ lexeme :: after) :
    source = splice before (String.ofList lexeme.text) after := by
  have whole := flatMap_text_cut source.toList
  rw [found, List.flatMap_append, List.flatMap_cons] at whole
  rw [splice, String.toList_ofList, whole, String.ofList_toList]

namespace TokenStream

variable {source : String} {before after : List Lexeme} {word : List Char} {sign : Token}
  {mark : Symbol} {line : Nat}

theorem ofSource_of_cut
    (found : Lexeme.cut source.toList = before ++ .token .integer word :: after)
    (line_eq : line = lineBehind (before.flatMap Lexeme.text)) :
    ofSource source =
      ⟨(ofLexemes 1 before).tokens ++
          ⟨.integer, String.ofList word, line⟩ :: (ofLexemes line after).tokens,
        (ofLexemes line after).fault⟩ := by
  have breaks : line = 1 + (before.map Lexeme.lineBreaks).sum := by
    rw [line_eq, lineBehind, Lexeme.sum_lineBreaks_front found (Lexeme.legal_of_cut found)]
  rw [ofSource, found, ofLexemes_append (Lexeme.legal_of_cut found), breaks]
  rfl

/-- Behind a symbol, or behind the gap behind it, nothing goes on with a number, if nothing
does behind the symbol. -/
theorem closed_of_getLast
    (found : Lexeme.cut source.toList = before ++ .token .integer word :: after)
    (ends : (ofLexemes 1 before).tokens.getLast? = some sign) (marks : sign.kind = .symbol mark)
    (closed : Closed mark.text.toList) :
    ∃ last, before.getLast? = some last ∧ Closed last.text := by
  obtain rfl | ⟨earlier, last, rfl⟩ := List.eq_nil_or_concat before
  · cases ends
  rw [List.concat_eq_append] at found ends ⊢
  refine ⟨last, by simp, ?_⟩
  have legal := Lexeme.legal_of_cut found
  rw [List.append_assoc, List.singleton_append] at found
  have stands := (Lexeme.stands_of_cut found).1
  cases last with
  | gap gap => exact stands.closed_gap
  | token kind text =>
      rw [ofLexemes_append (fun lexeme member => legal lexeme (List.mem_append_left _ member)),
        List.getLast?_append] at ends
      obtain rfl := Option.some.inj ends
      cases marks
      have written : text = mark.text.toList := beq_iff_eq.mp stands.legible.1
      rwa [Lexeme.text, written]
  | illegal character tail => cases legal _ (List.mem_append_right _ List.mem_cons_self)

/-- Around another whole number behind a symbol, the tokens stay what they are. -/
theorem stream_splice {text : String}
    (found : Lexeme.cut source.toList = before ++ .token .integer word :: after)
    (ends : (ofLexemes 1 before).tokens.getLast? = some sign) (marks : sign.kind = .symbol mark)
    (closed : Closed mark.text.toList) (shape : Shape.integer text.toList = true)
    (line_eq : line = lineBehind (before.flatMap Lexeme.text)) :
    ofSource (Lexeme.splice before text after) =
      ⟨(ofLexemes 1 before).tokens ++ ⟨.integer, text, line⟩ :: (ofLexemes line after).tokens,
        (ofLexemes line after).fault⟩ := by
  obtain ⟨last, final, behind⟩ := closed_of_getLast found ends marks closed
  have lexemes : Lexeme.cut (Lexeme.splice before text after).toList =
      before ++ .token .integer text.toList :: after := by
    rw [Lexeme.splice, String.toList_ofList]
    exact Lexeme.cut_integer found final behind shape
  rw [ofSource_of_cut lexemes line_eq, String.ofList_toList]

end TokenStream

theorem IntegerField.closed_sign (field : IntegerField) : Closed field.sign.text.toList := by
  cases field <;> exact .inl ⟨_, rfl, rfl⟩

/-! ## Derivations -/

section Replaced

variable {front back : List Token} {written text : String} {line : Nat}
  {program another : Program}
  (derivation : Derives .program (front ++ ⟨.integer, written, line⟩ :: back) program)

include derivation

/-- Any other whole number that fits may stand in the place of one. -/
theorem Derives.exists_replaced (fits : (Literal.int64? text).isSome = true) :
    ∃ another, Derives .program (front ++ ⟨.integer, text, line⟩ :: back) another := by
  have inRange := inRange_of_derives derivation
  have kept : Token.overflows ⟨.integer, written, line⟩ = false := inRange _ (by simp)
  have fit : Token.overflows ⟨.integer, text, line⟩ = false := by
    simp [Token.overflows, Option.isNone_eq_false_iff.mpr fits]
  have kinds : (front ++ ⟨.integer, written, line⟩ :: back).map Token.kind =
      (front ++ ⟨.integer, text, line⟩ :: back).map Token.kind := by
    simp
  have overflows : (front ++ ⟨.integer, written, line⟩ :: back).map Token.overflows =
      (front ++ ⟨.integer, text, line⟩ :: back).map Token.overflows := by
    simp [kept, fit]
  obtain ⟨_, another, _, accepted⟩ | ⟨place, refused, _⟩ :=
    Program.refusedAt?_of_kinds kinds overflows
  · exact ⟨another, Program.derives_of_ofTokens accepted⟩
  · rw [Program.refusedAt?, Program.ofTokens_of_derives derivation] at refused
    cases refused

/-- A whole number that does not fit is what is reported in the place of another. -/
theorem Derives.parse_replaced (beyond : Literal.int64? text = none) :
    (⟨front ++ ⟨.integer, text, line⟩ :: back, none⟩ : TokenStream).parse =
      .error (.syntactic text line) := by
  have inRange := (inRange_append.mp (inRange_of_derives derivation)).1
  have sentence : Sentence ((front ++ ⟨.integer, text, line⟩ :: back).map Token.kind) :=
    ⟨_, program, by simp, derivation⟩
  obtain ⟨count, longest⟩ :=
    exists_longestViable (front ++ ⟨.integer, text, line⟩ :: back)
  obtain rfl := longest.eq_length sentence
  refine TokenStream.parse_eq_error_of_verdict longest
    (@Verdict.heldBack _ _ ⟨.integer, text, line⟩ ?_)
  -- No number in front of it is out of range, and no sentence ends with a number.
  cases back with
  | nil =>
      rw [List.map_append] at sentence
      exact absurd sentence (not_sentence_of_integer _)
  | cons next rest =>
      refine ⟨front.length, next, by simp, by simp, by simp [Token.overflows, beyond], ?_, by simp,
        front.map Token.kind, rest.map Token.kind, by simpa using sentence⟩
      intro earlier before token found
      rw [List.getElem?_append_left before] at found
      exact inRange token (List.mem_of_getElem? found)

variable (second : Derives .program (front ++ ⟨.integer, text, line⟩ :: back) another)

include second

theorem Derives.eq_of_wholeNumber_eq
    (same : Literal.wholeNumber written = Literal.wholeNumber text) : program = another := by
  have first := derivation.rewritten Literal.int64?_toString_wholeNumber id
  have other := second.rewritten Literal.int64?_toString_wholeNumber id
  simp only [List.map_append, List.map_cons, Token.rewritten_integer, same] at first other
  exact Program.eq_of_derives first other

/-- How large a whole number is has no influence on how the program is built. -/
theorem Derives.erased_eq_of_replaced : another.erased = program.erased := by
  apply Program.erased_eq_of_blank (Program.ofTokens_of_derives second)
    (Program.ofTokens_of_derives derivation)
  rw [List.map_append, List.map_append, List.map_cons, List.map_cons]
  rfl

end Replaced

/-! ## Programs -/

theorem Program.getElem?_integers_outline {program : Program} {place : Nat} {field : IntegerField}
    {number : Int64} (held : program.integers[place]? = some (field, number)) :
    program.outline.integers[place]? = some (field.name, toString number.toInt) := by
  rw [program.integers_outline, List.getElem?_map, held]
  rfl

/-- A number that fits is held in the place of another, and its canonical text shows there and
may be written there. -/
theorem Derives.exists_holding {front back : List Token} {written text : String} {line : Nat}
    {program : Program} {field : IntegerField} {value number : Int64}
    (derivation : Derives .program (front ++ ⟨.integer, written, line⟩ :: back) program)
    (held : program.integers[front.countP (·.kind = .integer)]? = some (field, value))
    (read : Literal.int64? text = some number) :
    ∃ another, Derives .program (front ++ ⟨.integer, text, line⟩ :: back) another ∧
      another.integers =
        program.integers.set (front.countP (·.kind = .integer)) (field, number) ∧
      another.erased = program.erased ∧
      another.outline.integers[front.countP (·.kind = .integer)]? =
        some (field.name, toString number.toInt) ∧
      Derives .program (front ++ ⟨.integer, toString number.toInt, line⟩ :: back) another := by
  have decimal : Literal.int64? (toString number.toInt) = some number :=
    Literal.int64?_eq_some_iff.mpr (Literal.wholeNumber_toString _)
  obtain ⟨another, second⟩ := derivation.exists_replaced (by rw [read]; rfl)
  obtain ⟨again, third⟩ := derivation.exists_replaced (by rw [decimal]; rfl)
  obtain rfl : another = again := by
    apply second.eq_of_wholeNumber_eq third
    rw [Literal.int64?_eq_some_iff.mp read, Literal.wholeNumber_toString]
  have integers := derivation.integers_set second rfl rfl held read
  refine ⟨another, second, integers, derivation.erased_eq_of_replaced second, ?_, third⟩
  apply Program.getElem?_integers_outline
  rw [integers]
  exact List.getElem?_set_self (List.getElem?_eq_some_iff.mp held).1

/-- In the place of a whole number of a program, exactly the whole numbers of 64 bits make
programs.  Such a program is built in the same way and has the same whole numbers but for the
one there, in the field that the symbol in front of it tells; its outline shows the canonical
text of the number, which may be written for it.  Of a number of more bits, the text and the
line are reported. -/
theorem Program.ofSource_splice {source : String} {program : Program} {before after : List Lexeme}
    {written : List Char} (accepted : Program.ofSource source = .ok program)
    (found : Lexeme.cut source.toList = before ++ .token .integer written :: after) :
    let front := (TokenStream.ofLexemes 1 before).tokens
    let place := front.countP (·.kind = .integer)
    source = Lexeme.splice before (String.ofList written) after ∧
    ∃ field value, front.getLast?.map Token.kind = some (.symbol field.sign) ∧
      program.integers[place]? = some (field, value) ∧
      ∀ text : String, Shape.integer text.toList = true →
        ((∃ other, Program.ofSource (Lexeme.splice before text after) = .ok other) ↔
          -2 ^ 63 ≤ Literal.wholeNumber text ∧ Literal.wholeNumber text ≤ 2 ^ 63 - 1) ∧
        (∀ other, Program.ofSource (Lexeme.splice before text after) = .ok other →
          ∃ number decimal, number.toInt = Literal.wholeNumber text ∧
            other.integers = program.integers.set place (field, number) ∧
            other.erased = program.erased ∧
            Shape.canonical decimal.toList = true ∧
            Literal.wholeNumber decimal = Literal.wholeNumber text ∧
            other.outline.integers[place]? = some (field.name, decimal) ∧
            Program.ofSource (Lexeme.splice before decimal after) = .ok other) ∧
        ∀ fault, Program.ofSource (Lexeme.splice before text after) = .error fault →
          fault = .syntactic text (lineBehind (before.flatMap Lexeme.text)) := by
  intro front place
  generalize behind : lineBehind (before.flatMap Lexeme.text) = line
  obtain ⟨derivation, sound⟩ := TokenStream.parse_eq_ok_iff.mp accepted
  have own := TokenStream.ofSource_of_cut found behind.symm
  rw [own] at derivation sound
  obtain ⟨earlier, sign, field, value, split, mark, held⟩ := derivation.exists_field rfl
  have ends : front.getLast? = some sign := by simp [front, split]
  have opened (text : String) (shape : Shape.integer text.toList = true) :
      Program.ofSource (Lexeme.splice before text after) = TokenStream.parse
        ⟨front ++ ⟨.integer, text, line⟩ :: (TokenStream.ofLexemes line after).tokens, none⟩ := by
    rw [Program.ofSource,
      TokenStream.stream_splice found ends mark field.closed_sign shape behind.symm, sound]
  have same := Lexeme.eq_splice_of_cut found
  rw [Lexeme.text] at same
  refine ⟨same, field, value, ?_, held, fun text shape => ?_⟩
  · rw [ends, Option.map_some, mark]
  rw [← Literal.isSome_int64?_iff, opened text shape]
  cases read : Literal.int64? text with
  | none =>
      rw [derivation.parse_replaced read]
      refine ⟨iff_of_false ?_ Bool.false_ne_true, fun other same => ?_, fun fault refused => ?_⟩
      · rintro ⟨other, same⟩
        cases same
      · cases same
      · cases refused
        rfl
  | some number =>
      have value_eq := Literal.int64?_eq_some_iff.mp read
      obtain ⟨another, second, integers, erased, shown, canonical⟩ :=
        derivation.exists_holding held read
      rw [TokenStream.parse_eq_ok_iff.mpr ⟨second, rfl⟩]
      refine ⟨iff_of_true ⟨another, rfl⟩ rfl, fun other same => ?_, fun fault refused => ?_⟩
      · cases same
        refine ⟨number, toString number.toInt, value_eq.symm, integers, erased,
          Literal.canonical_toString _, ?_, shown, ?_⟩
        · rw [Literal.wholeNumber_toString, value_eq]
        · rw [opened _ (Literal.integer_toString _)]
          exact TokenStream.parse_eq_ok_iff.mpr ⟨canonical, rfl⟩
      · cases refused

/-- The least whole number of 64 bits in the place of a zero, with zeros in front of it, and one
that is too large. -/
theorem Program.ofSource_splice_row :
    Program.ofSource "_ra :=\n_rb[3,-0]" =
        .ok ⟨[], [.assignRange "_ra" (.part (.named "_rb") 3 0)]⟩ ∧
      (∃ other, Program.ofSource "_ra :=\n_rb[3,-009223372036854775808]" = .ok other ∧
        other.integers = [(.column, 3), (.row, Int64.minValue)]) ∧
      Program.ofSource "_ra :=\n_rb[3,9223372036854775808]" =
        .error (.syntactic "9223372036854775808" 2) := by
  have accepted : Program.ofSource "_ra :=\n_rb[3,-0]" =
      .ok ⟨[], [.assignRange "_ra" (.part (.named "_rb") 3 0)]⟩ := by
    have stream : TokenStream.ofSource "_ra :=\n_rb[3,-0]" =
        ⟨[⟨.rangeName, "_ra", 1⟩, ⟨.symbol .assign, ":=", 1⟩, ⟨.rangeName, "_rb", 2⟩,
          ⟨.symbol .leftBracket, "[", 2⟩, ⟨.integer, "3", 2⟩, ⟨.symbol .comma, ",", 2⟩,
          ⟨.integer, "-0", 2⟩, ⟨.symbol .rightBracket, "]", 2⟩], none⟩ := by
      decide
    rw [Program.ofSource, stream]
    rfl
  have found : Lexeme.cut "_ra :=\n_rb[3,-0]".toList =
      [.token .rangeName "_ra".toList, .gap [' '], .token (.symbol .assign) ":=".toList,
        .gap ['\n'], .token .rangeName "_rb".toList, .token (.symbol .leftBracket) ['['],
        .token .integer ['3'], .token (.symbol .comma) [',']] ++
        .token .integer ['-', '0'] :: [.token (.symbol .rightBracket) [']']] := by
    decide
  obtain ⟨-, field, value, sign, held, replaced⟩ := ofSource_splice accepted found
  have place : some (IntegerField.row, (0 : Int64)) = some (field, value) := held
  cases place
  obtain ⟨fits, holds, -⟩ := replaced "-009223372036854775808" (by decide)
  obtain ⟨beyond, -, refused⟩ := replaced "9223372036854775808" (by decide)
  refine ⟨accepted, ?_, ?_⟩
  · obtain ⟨other, parsed⟩ := fits.mpr (by decide)
    obtain ⟨number, -, same, integers, -⟩ := holds other parsed
    obtain rfl : number = Int64.minValue := Int64.toInt_inj.mp (same.trans (by decide))
    exact ⟨other, parsed, integers⟩
  · cases outcome : Program.ofSource "_ra :=\n_rb[3,9223372036854775808]" with
    | ok other => exact absurd (beyond.mp ⟨other, outcome⟩) (by decide)
    | error fault => rw [refused fault outcome]; rfl

end SheetLang
