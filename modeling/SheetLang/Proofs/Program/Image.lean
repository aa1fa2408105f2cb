import SheetLang.Proofs.Parser.Acceptance
import SheetLang.Proofs.Program.Expressible

/-!
# The programs that have a source

A program has a source exactly if it is well-formed.
-/

namespace SheetLang

theorem Program.wellFormed_of_ofSource {source : String} {program : Program}
    (parsed : Program.ofSource source = .ok program) : program.WellFormed := by
  obtain ⟨derivation, -⟩ := TokenStream.parse_eq_ok_iff.mp parsed
  apply derivation.wellFormed
  intro token member
  exact TokenStream.legible_of_mem member

/-- The texts of tokens that derive the program, with a space behind each. -/
theorem Program.exists_source_of_wellFormed {program : Program} (wellFormed : program.WellFormed) :
    ∃ source, Program.ofSource source = .ok program := by
  obtain ⟨tokens, derivation, plain⟩ := Written.program wellFormed
  have read : TokenStream.ofSource (String.ofList (TokenStream.spaced tokens)) =
      ⟨tokens, none⟩ := by
    unfold TokenStream.ofSource
    rw [String.toList_ofList]
    exact TokenStream.ofLexemes_cut_spaced plain
  refine ⟨String.ofList (TokenStream.spaced tokens), ?_⟩
  unfold Program.ofSource
  rw [read]
  exact TokenStream.parse_eq_ok_iff.mpr ⟨derivation, rfl⟩

/-- The well-formed programs are exactly those that have a source.  No decimal literal
of a source is taken for a name. -/
theorem Program.exists_ofSource_iff_wellFormed :
    (∀ program : Program,
      (∃ source, Program.ofSource source = .ok program) ↔ program.WellFormed) ∧
    ∀ source, ∀ token ∈ (TokenStream.ofSource source).tokens, token.kind = .decimal →
      Expr.ofDecimal token.text = .decimal (Binary64.ofLiteral token.text) := by
  constructor
  · intro program
    constructor
    · intro found
      obtain ⟨source, parsed⟩ := found
      exact Program.wellFormed_of_ofSource parsed
    · exact Program.exists_source_of_wellFormed
  · intro source token member decimal
    have legible := TokenStream.legible_of_mem member
    rw [decimal] at legible
    exact Expr.ofDecimal_of_legible legible

end SheetLang
