import SheetLang.Proofs.Lexeme.Legibility
import SheetLang.Proofs.Parser.Trace

/-!
# The mark for the end

A fault of the grammar carries the text of a token, or the mark that stands for a missing
one.  Of all tokens only the name of a sheet can be spelled like the mark.  So a fault with
the mark is about the end of a source, unless that sheet name is rejected.
-/

namespace SheetLang

open Grammar

variable {stream : TokenStream} {token literal : Token} {rest : List Token}

/-- Only names of sheets are spelled like the mark for the end. -/
theorem Token.Kind.eq_sheetName_of_endMark {kind : Token.Kind}
    (admits : kind.admits Fault.endMark.toList = true) : kind = .sheetName := by
  cases kind with
  | sheetName => rfl
  | keyword word => cases word <;> exact absurd admits (by decide)
  | symbol mark => cases mark <;> exact absurd admits (by decide)
  | _ => exact absurd admits (by decide)

namespace TokenStream

/-! ## What a verdict is about -/

theorem Rejects.parse_eq (rejects : stream.Rejects token) :
    stream.parse = .error (.syntactic token.text token.line) := by
  obtain ⟨count, longest, none, found⟩ := rejects
  exact parse_eq_error_of_verdict longest (.unexpected none found)

theorem HoldsBack.parse_eq (holdsBack : stream.HoldsBack literal) :
    stream.parse = .error (.syntactic literal.text literal.line) := by
  obtain ⟨count, longest, held⟩ := holdsBack
  exact parse_eq_error_of_verdict longest (.heldBack held)

theorem HoldsBack.mem (holdsBack : stream.HoldsBack literal) : literal ∈ stream.tokens := by
  obtain ⟨count, -, place, next, -, found, -⟩ := holdsBack
  exact List.mem_of_getElem? found

theorem HoldsBack.kind_eq (holdsBack : stream.HoldsBack literal) : literal.kind = .integer := by
  obtain ⟨count, -, place, next, -, -, overflows, -⟩ := holdsBack
  exact Token.kind_of_overflows overflows

theorem rejects_of_unexpected
    (failure : Program.ofTokens stream.tokens = .error (.unexpected (token :: rest))) :
    stream.Rejects token := by
  obtain ⟨count, longest⟩ := exists_longestViable stream.tokens
  cases Program.rejected_of_ofTokens failure longest with
  | unexpected front split same none =>
      refine ⟨count, longest, none, ?_⟩
      simp [split, same]

theorem holdsBack_of_overflow
    (failure : Program.ofTokens stream.tokens = .error (.overflow literal rest)) :
    stream.HoldsBack literal := by
  obtain ⟨count, longest⟩ := exists_longestViable stream.tokens
  cases Program.rejected_of_ofTokens failure longest with
  | heldBack front split inRange held => exact ⟨count, longest, held⟩

theorem Rejects.not_incomplete (rejects : stream.Rejects token) : ¬stream.Incomplete := by
  intro incomplete
  obtain ⟨count, longest, -, found⟩ := rejects
  have whole := longest.2.2 _ (Nat.le_refl _) (by simpa using incomplete.viable)
  rw [List.getElem?_eq_none whole] at found
  cases found

/-! ## Sources -/

variable {source : String} {line : Nat}

theorem ne_endMark_of_mem (member : token ∈ (ofSource source).tokens)
    (other : token.kind ≠ .sheetName) : token.text ≠ Fault.endMark := by
  intro spelled
  have admits := (legible_of_mem member).1
  rw [spelled] at admits
  exact other (Token.Kind.eq_sheetName_of_endMark admits)

theorem fault_ofSource_ne_syntactic {text : String} :
    (ofSource source).fault ≠ some (.syntactic text line) := by
  intro faulty
  obtain ⟨last, found⟩ := fault_ofLexemes 1 (Lexeme.cut source.toList)
  obtain ⟨character, -, same⟩ := Option.map_eq_some_iff.mp (found.symm.trans faulty)
  cases same

/-- A fault with the mark is about the end or about a sheet. -/
theorem cases_of_endMark
    (failure : (ofSource source).parse = .error (.syntactic Fault.endMark line)) :
    (ofSource source).Incomplete ∧ line = (ofSource source).lastLine ∨
      (ofSource source).Rejects ⟨.sheetName, Fault.endMark, line⟩ := by
  obtain ⟨count, longest⟩ := exists_longestViable (ofSource source).tokens
  have verdict := (ofSource source).verdict_parse longest
  rw [failure] at verdict
  change Verdict _ _ (.error (.syntactic Fault.endMark line)) at verdict
  generalize reported : Fault.syntactic Fault.endMark line = fault at verdict
  cases verdict with
  | @heldBack literal held =>
      have holdsBack : (ofSource source).HoldsBack literal := ⟨count, longest, held⟩
      have other := ne_endMark_of_mem holdsBack.mem (by simp [holdsBack.kind_eq])
      exact absurd (Fault.syntactic.inj reported).1.symm other
  | @unexpected token none found =>
      obtain ⟨spelled, rfl⟩ := Fault.syntactic.inj reported
      have sheet : token.kind = .sheetName := by
        by_contra other
        exact ne_endMark_of_mem (List.mem_of_getElem? found) other spelled.symm
      rw [spelled, ← sheet]
      exact .inr ⟨count, longest, none, found⟩
  | lexical none whole faulty =>
      rw [← reported] at faulty
      exact absurd faulty fault_ofSource_ne_syntactic
  | incomplete none whole sound unfinished =>
      subst whole
      have viable : Viable ((ofSource source).tokens.map Token.kind) := by
        simpa using longest.2.1
      exact .inl ⟨⟨sound, none, viable, unfinished⟩, (Fault.syntactic.inj reported).2⟩

end TokenStream

/-- The mark for the end is reported of a source that only ends too early, on the line of its
last token, and of one that rejects a sheet of this name.  It is reported for no other token
and for no whole number out of range. -/
theorem Program.ofSource_endMark (source : String) :
    (∀ line, Program.ofSource source = .error (.syntactic Fault.endMark line) ↔
      (TokenStream.ofSource source).Incomplete ∧
          line = (TokenStream.ofSource source).lastLine ∨
        (TokenStream.ofSource source).Rejects ⟨.sheetName, Fault.endMark, line⟩) ∧
    (∀ token, (TokenStream.ofSource source).Rejects token → token.kind ≠ .sheetName →
      token.text ≠ Fault.endMark ∧
        Program.ofSource source = .error (.syntactic token.text token.line)) ∧
    ∀ literal, (TokenStream.ofSource source).HoldsBack literal →
      literal.text ≠ Fault.endMark ∧
        Program.ofSource source = .error (.syntactic literal.text literal.line) := by
  refine ⟨fun line => ⟨TokenStream.cases_of_endMark, ?_⟩, ?_, ?_⟩
  · rintro (⟨incomplete, rfl⟩ | rejects)
    · exact incomplete.parse_eq
    · exact rejects.parse_eq
  · intro token rejects other
    obtain ⟨count, -, -, found⟩ := id rejects
    exact ⟨TokenStream.ne_endMark_of_mem (List.mem_of_getElem? found) other, rejects.parse_eq⟩
  · intro literal holdsBack
    refine ⟨TokenStream.ne_endMark_of_mem holdsBack.mem ?_, holdsBack.parse_eq⟩
    simp [holdsBack.kind_eq]

/-- A reserved word that is rejected, and a whole number out of range behind which a sheet
with the name of the mark stands. -/
theorem Program.ofSource_endMark_integer :
    ("then" ≠ Fault.endMark ∧
      Program.ofSource "xs then" = .error (.syntactic "then" 1)) ∧
    "9223372036854775808" ≠ Fault.endMark ∧
      Program.ofSource "sheet SH = 2 *\n9223372036854775808 EOF" =
        .error (.syntactic "9223372036854775808" 2) := by
  have failure : Program.ofTokens (TokenStream.ofSource "xs then").tokens =
      .error (.unexpected [⟨.keyword .then, "then", 1⟩]) := by
    have stream : TokenStream.ofSource "xs then" =
        ⟨[⟨.ident, "xs", 1⟩, ⟨.keyword .then, "then", 1⟩], none⟩ := by
      decide
    rw [stream]
    rfl
  have overflow : Program.ofTokens
      (TokenStream.ofSource "sheet SH = 2 *\n9223372036854775808 EOF").tokens =
        .error (.overflow ⟨.integer, "9223372036854775808", 2⟩ [⟨.sheetName, "EOF", 2⟩]) := by
    have stream : TokenStream.ofSource "sheet SH = 2 *\n9223372036854775808 EOF" =
        ⟨[⟨.keyword .sheet, "sheet", 1⟩, ⟨.sheetName, "SH", 1⟩, ⟨.symbol .equal, "=", 1⟩,
          ⟨.integer, "2", 1⟩, ⟨.symbol .times, "*", 1⟩, ⟨.integer, "9223372036854775808", 2⟩,
          ⟨.sheetName, "EOF", 2⟩], none⟩ := by
      decide
    rw [stream]
    rfl
  constructor
  · exact (Program.ofSource_endMark _).2.1 _ (TokenStream.rejects_of_unexpected failure) (by decide)
  · exact (Program.ofSource_endMark _).2.2 _ (TokenStream.holdsBack_of_overflow overflow)

/-- A sheet with the name of the mark may be rejected although the source goes on. -/
theorem Program.ofSource_sheet_endMark :
    Program.ofSource "xs EOF" = .error (.syntactic Fault.endMark 1) ∧
      (TokenStream.ofSource "xs EOF").Rejects ⟨.sheetName, "EOF", 1⟩ ∧
      ¬(TokenStream.ofSource "xs EOF").Incomplete := by
  have failure : Program.ofTokens (TokenStream.ofSource "xs EOF").tokens =
      .error (.unexpected [⟨.sheetName, "EOF", 1⟩]) := by
    have stream : TokenStream.ofSource "xs EOF" =
        ⟨[⟨.ident, "xs", 1⟩, ⟨.sheetName, "EOF", 1⟩], none⟩ := by
      decide
    rw [stream]
    rfl
  have rejects := TokenStream.rejects_of_unexpected failure
  exact ⟨rejects.parse_eq, rejects, rejects.not_incomplete⟩

end SheetLang
