import SheetLang.Grammar.Boundaries

/-!
# How derivations begin

The first token of a derivation tells its nonterminal apart from its rivals.
`Nonterminal.starts` lists the kinds that a first token may have, and
`Derives.opens` shows that every derivation begins with one of them.  One fact
goes a token further: where a scalar begins with the name of a sheet, a quote
follows, which no derivation of a bare sheet name goes on with.
-/

namespace SheetLang

open Grammar Parser

theorem startsDefinition_of_startsVariable {kind : Token.Kind}
    (start : startsVariable kind = true) : startsDefinition kind = true := by
  unfold startsDefinition
  split
  · rfl
  · rfl
  · exact start

/-- The tokens begin as a derivation from the nonterminal does. -/
def Opens (A : Nonterminal) (tokens : List Token) : Prop :=
  ∃ token rest, tokens = token :: rest ∧ A.starts token.kind = true

/-- What begins like one nonterminal begins like every other one that may start
with it, whatever follows. -/
theorem Opens.append {A B : Nonterminal} {front : List Token}
    (opens : Opens B front) (back : List Token)
    (starts : ∀ kind, B.starts kind = true → A.starts kind = true) :
    Opens A (front ++ back) := by
  obtain ⟨token, rest, rfl, start⟩ := opens
  exact ⟨token, rest ++ back, rfl, starts _ start⟩

theorem Opens.mono {A B : Nonterminal} (opens : Opens B tokens)
    (starts : ∀ kind, B.starts kind = true → A.starts kind = true) : Opens A tokens := by
  simpa using opens.append [] starts

theorem Opens.head_ne {A : Nonterminal} (opens : Opens A tokens) (kind : Token.Kind)
    (other : A.starts kind = false) (rest : List Token) :
    (tokens ++ rest).head?.map Token.kind ≠ some kind := by
  obtain ⟨token, more, rfl, start⟩ := opens
  intro equality
  simp only [List.cons_append, List.head?_cons, Option.map_some, Option.some.injEq] at equality
  rw [equality, other] at start
  cases start

namespace Derives

private theorem opens_of_proper {A : Nonterminal}
    (opening : Opens A tokens ∨ tokens = [] ∧ A.nullable = true)
    (proper : A.nullable = false) : Opens A tokens := by
  rcases opening with opens | ⟨_, nullable⟩
  · exact opens
  · rw [proper] at nullable
    cases nullable

private theorem opens_or_nil (derivation : Derives A tokens value) :
    Opens A tokens ∨ tokens = [] ∧ A.nullable = true := by
  induction derivation with
  | manyNil => exact .inr ⟨rfl, rfl⟩
  | manyCons _ _ first others =>
      rcases first with opens | ⟨rfl, _⟩
      · exact .inl (opens.append _ fun _ start => start)
      · rcases others with opens | ⟨rfl, _⟩
        · exact .inl opens
        · exact .inr ⟨rfl, rfl⟩
  | separatedOne _ only =>
      rcases only with opens | ⟨rfl, nullable⟩
      · exact .inl (opens.mono fun _ start => by simp [Nonterminal.starts, start])
      · exact .inr ⟨rfl, nullable⟩
  | separatedCons _ _ first _ =>
      rcases first with opens | ⟨rfl, nullable⟩
      · exact .inl (opens.append _ fun _ start => by simp [Nonterminal.starts, start])
      · exact .inl ⟨_, _, rfl, by simp [Nonterminal.starts, nullable, mark]⟩
  | name | decimal | count | parentheses | negate | named | span | callRange | inSheet
  | currentIn | current | callNone | callSome | sheetArgument | printSheet | printRange
  | printScalar | branchOne | branchTwo | loop | traverse | returnScalar | returnRange
  | assignScalar | assignRange | assignSheet | scalarPlain | scalarValue | rangePlain
  | rangeValue | sheetPlain | sheetValue | rows | size | scalarParameter | rangeParameter
  | sheetParameter | parametersNone | parametersSome | returnsScalar | returnsRange
  | function | subroutine => exact .inl ⟨_, _, rfl, rfl⟩
  | productOne _ front | sumOne _ front | comparisonOne _ front
  | laterRowOne _ front =>
      exact .inl ((opens_of_proper front rfl).mono fun _ start => by
        simpa [Nonterminal.starts] using start)
  | productCons _ _ _ front _ | sumCons _ _ _ front _ | comparisonCons _ _ _ front _
  | part _ _ _ front | block _ _ front _ | laterRowCons _ _ front _ =>
      exact .inl ((opens_of_proper front rfl).append _ fun _ start => by
        simpa [Nonterminal.starts] using start)
  | scalarArgument _ front | rangeArgument _ front =>
      exact .inl ((opens_of_proper front rfl).mono fun _ start => by
        simp_all [Nonterminal.starts])
  | callOperand _ front | cellOperand _ front | callStatement _ front =>
      exact .inl ((opens_of_proper front rfl).mono fun kind start => by
        cases kind <;> simp_all [Nonterminal.starts, startsAtom, startsStatement])
  | «variable» _ front =>
      exact .inl ((opens_of_proper front rfl).mono fun _ =>
        startsDefinition_of_startsVariable)
  | assignCell _ _ front _ =>
      exact .inl ((opens_of_proper front rfl).append _ fun kind start => by
        cases kind <;> simp_all [Nonterminal.starts, startsStatement])
  | program _ _ definitions statements =>
      rcases definitions with opens | ⟨rfl, _⟩
      · exact .inl (opens.append _ fun _ start => by simp_all [Nonterminal.starts])
      · exact .inl ((opens_of_proper statements rfl).mono fun _ start => by
          simp_all [Nonterminal.starts])

/-- A derivation that is not empty begins with a token that its nonterminal may
start with. -/
theorem opens (derivation : Derives A tokens value) (proper : A.nullable = false) :
    Opens A tokens :=
  opens_of_proper derivation.opens_or_nil proper

theorem many_opens {A : Nonterminal} {items : List A.Value}
    (derivation : Derives (.many A) tokens items) : Opens A tokens ∨ tokens = [] :=
  derivation.opens_or_nil.imp id And.left

theorem length_pos (derivation : Derives A tokens value) (proper : A.nullable = false) :
    0 < tokens.length := by
  obtain ⟨token, rest, rfl, _⟩ := derivation.opens proper
  simp

theorem call_head (derivation : Derives .call tokens value) (rest : List Token) :
    (tokens ++ rest).head?.map Token.kind = some .funcName := by
  cases derivation <;> rfl

theorem cell_head (derivation : Derives .cell tokens value) (rest : List Token) :
    (tokens ++ rest).head?.map Token.kind = some .sheetName ∨
      (tokens ++ rest).head?.map Token.kind = some (.symbol .dollar) := by
  cases derivation with
  | inSheet => exact .inl rfl
  | currentIn => exact .inr rfl
  | current => exact .inr rfl

private def isScalar : Nonterminal → Bool
  | .cell | .operand _ | .product _ | .sum _ | .comparison => true
  | _ => false

private def Quoted (tokens : List Token) : Prop :=
  ∀ token rest, tokens = token :: rest → token.kind = .sheetName →
    ∃ writing more, rest = mark .quote writing :: more

private theorem Quoted.append {front : List Token} (quoted : Quoted front)
    (pos : 0 < front.length) (back : List Token) : Quoted (front ++ back) := by
  intro token rest equality sheet
  cases front with
  | nil => cases pos
  | cons first others =>
      simp only [List.cons_append, List.cons.injEq] at equality
      obtain ⟨rfl, rfl⟩ := equality
      obtain ⟨writing, more, rfl⟩ := quoted _ _ rfl sheet
      exact ⟨writing, more ++ back, rfl⟩

private theorem quoted (derivation : Derives A tokens value) :
    isScalar A = true → Quoted tokens := by
  induction derivation with
  | inSheet =>
      rintro - token rest equality -
      simp only [List.cons.injEq] at equality
      obtain ⟨-, rfl⟩ := equality
      exact ⟨_, _, rfl⟩
  | name | decimal | count | parentheses | negate | currentIn | current =>
      rintro - token rest equality sheet
      simp only [List.cons_append, List.cons.injEq] at equality
      rw [← equality.1] at sheet
      cases sheet
  | callOperand call _ =>
      rintro - token rest equality sheet
      obtain ⟨first, others, rfl, start⟩ := call.opens rfl
      simp_all [Nonterminal.starts]
  | cellOperand _ operand | productOne _ operand | sumOne _ operand
  | comparisonOne _ operand => exact fun _ => operand rfl
  | productCons _ left _ operand _ | sumCons _ left _ operand _
  | comparisonCons _ left _ operand _ =>
      exact fun _ => (operand rfl).append (left.length_pos rfl) _
  | _ => rintro ⟨⟩

/-- Where a scalar begins with the name of a sheet, a quote stands behind it. -/
theorem comparison_quote (derivation : Derives .comparison (token :: rest) value)
    (sheet : token.kind = .sheetName) :
    ∃ writing more, rest = mark .quote writing :: more :=
  derivation.quoted rfl _ _ rfl sheet

end Derives

end SheetLang
