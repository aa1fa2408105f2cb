import SheetLang.Proofs.Grammar.Openings
import SheetLang.Proofs.Parser.Reading

/-!
# Parsers in lockstep

Two token lists that agree in kinds up to some place, and have the same kind of
token there, are read by a parser in the same steps, as far as that place.  Texts
and lines have no influence on what a parser does, nor have the tokens behind the
one that it looks at.

The places are given by what follows them, `stop` in the one list and `halt` in the
other.  A run that has gone beyond them promises nothing.
-/

namespace SheetLang

open Grammar

/-- Tokens that no parser tells apart. -/
structure Alike (token other : Token) : Prop where
  kind : token.kind = other.kind
  overflows : token.overflows = other.overflows

/-- The lists agree up to the two places and have the same kind of token there. -/
inductive Aligned (stop halt : List Token) : List Token → List Token → Prop where
  | here : stop.head?.map Token.kind = halt.head?.map Token.kind → Aligned stop halt stop halt
  | next : Alike token other → Aligned stop halt tokens others →
      Aligned stop halt (token :: tokens) (other :: others)

namespace Aligned

variable {stop halt : List Token}

theorem length_le (aligned : Aligned stop halt tokens others) :
    stop.length ≤ tokens.length := by
  induction aligned with
  | here => exact Nat.le_refl _
  | next _ _ induction => exact Nat.le_succ_of_le induction

theorem length_eq (aligned : Aligned stop halt tokens others) :
    tokens.length + halt.length = others.length + stop.length := by
  induction aligned with
  | here => exact Nat.add_comm _ _
  | next _ _ induction =>
      simp only [List.length_cons]
      omega

theorem head_eq (aligned : Aligned stop halt tokens others) :
    tokens.head?.map Token.kind = others.head?.map Token.kind := by
  cases aligned with
  | here same => exact same
  | next alike _ => simp [alike.kind]

/-- Both lists are empty, or both have a token of the same kind, behind which they
are aligned unless the place has been passed. -/
theorem cases (aligned : Aligned stop halt tokens others) :
    tokens = [] ∧ others = [] ∨
      ∃ token rest other more, tokens = token :: rest ∧ others = other :: more ∧
        token.kind = other.kind ∧
        (rest.length < stop.length ∨ Alike token other ∧ Aligned stop halt rest more) := by
  cases aligned with
  | next alike rest => exact .inr ⟨_, _, _, _, rfl, rfl, alike.kind, .inr ⟨alike, rest⟩⟩
  | here same =>
      cases stop with
      | nil =>
          cases halt with
          | nil => exact .inl ⟨rfl, rfl⟩
          | cons other more => cases same
      | cons token rest =>
          cases halt with
          | nil => cases same
          | cons other more =>
              refine .inr ⟨_, _, _, _, rfl, rfl, ?_, .inl (Nat.lt_succ_self _)⟩
              simpa using same

end Aligned

namespace Parser

def remaining : Except Rejection (α × List Token) → List Token
  | .ok (_, rest) => rest
  | .error rejection => rejection.rest

/-- No run puts tokens back. -/
def Shrinks (parser : Parser α) : Prop :=
  ∀ tokens, (remaining (parser tokens)).length ≤ tokens.length

/-- Runs that accept take at least one token. -/
def Takes (parser : Parser α) : Prop :=
  ∀ ⦃tokens value rest⦄, parser tokens = .ok (value, rest) → rest.length < tokens.length

theorem bind_apply (parser : Parser α) (next : α → Parser β) (tokens : List Token) :
    (parser >>= next) tokens =
      match parser tokens with
      | .ok (value, rest) => next value rest
      | .error rejection => .error rejection := by
  change Except.bind (parser tokens) _ = _
  cases parser tokens <;> rfl

theorem remaining_bind_le {parser : Parser α} {next : α → Parser β}
    (later : ∀ value, Shrinks (next value)) (tokens : List Token) :
    (remaining ((parser >>= next) tokens)).length ≤ (remaining (parser tokens)).length := by
  rw [bind_apply]
  cases parser tokens with
  | error rejection => exact Nat.le_refl _
  | ok result => exact later result.1 result.2

theorem Shrinks.bind {parser : Parser α} {next : α → Parser β} (first : Shrinks parser)
    (later : ∀ value, Shrinks (next value)) : Shrinks (parser >>= next) :=
  fun tokens => Nat.le_trans (remaining_bind_le later tokens) (first tokens)

end Parser

open Parser

theorem shrinks_pure (value : α) : Shrinks (pure value : Parser α) :=
  fun _ => Nat.le_refl _

theorem shrinks_token (kind : Token.Kind) : Shrinks (text kind) := by
  intro tokens
  cases tokens with
  | nil => exact Nat.le_refl _
  | cons token rest =>
      simp only [Parser.text]
      split
      · exact Nat.le_succ _
      · exact Nat.le_refl _

theorem shrinks_symbol (mark : Symbol) : Shrinks (symbol mark) :=
  (shrinks_token _).bind fun _ => shrinks_pure _

theorem shrinks_integer : Shrinks integer := by
  intro tokens
  cases outcome : integer tokens with
  | ok result =>
      obtain ⟨value, rest⟩ := result
      obtain ⟨text, line, rfl, _⟩ := integer_eq_ok.mp outcome
      exact Nat.le_succ _
  | error rejection =>
      rcases integer_eq_error outcome with
        rfl | ⟨literal, rest, rfl, _, ⟨rfl, _⟩ | ⟨_, _, rfl, rfl, _⟩⟩
      · exact Nat.le_refl _
      · exact Nat.le_succ _
      · exact Nat.le_succ _

theorem takes_token (kind : Token.Kind) : Takes (text kind) := by
  intro tokens value rest success
  obtain ⟨line, rfl⟩ := text_eq_ok.mp success
  exact Nat.lt_succ_self _

theorem Takes.bind {parser : Parser α} {next : α → Parser β} (first : Takes parser)
    (later : ∀ value, Shrinks (next value)) : Takes (parser >>= next) := by
  intro tokens value rest success
  obtain ⟨found, middle, run, laterRun⟩ := bind_eq_ok.mp success
  have left := later found middle
  rw [laterRun] at left
  exact Nat.lt_of_le_of_lt left (first run)

theorem takes_symbol (mark : Symbol) : Takes (symbol mark) :=
  Takes.bind (takes_token _) fun _ => shrinks_pure _

theorem takes_keyword (word : Keyword) : Takes (keyword word) :=
  Takes.bind (takes_token _) fun _ => shrinks_pure _

theorem Reads.shrinks {language : List Token → α → Prop} (reads : Reads parser language) :
    Shrinks parser := by
  intro tokens
  cases outcome : parser tokens with
  | ok result =>
      obtain ⟨value, rest⟩ := result
      obtain ⟨used, rfl, _, _⟩ := reads.accepted outcome
      simp [remaining]
  | error rejection =>
      cases reads.rejected outcome with
      | unexpected used => simp [remaining, Rejection.rest]
      | behindOverflow used =>
          simp only [remaining, Rejection.rest, List.length_append, List.length_cons]
          omega
      | overflow used =>
          simp only [remaining, Rejection.rest, List.length_append, List.length_cons]
          omega

theorem Reads.takes (A : Nonterminal) {parser : Parser A.Value}
    (reads : Reads parser (Derives A)) (proper : A.nullable = false) : Takes parser := by
  intro tokens value rest success
  obtain ⟨used, rfl, _, derivation⟩ := reads.accepted success
  have positive := derivation.length_pos proper
  simp only [List.length_append]
  omega

theorem Reads.run_nil {A : Nonterminal} {parser : Parser A.Value}
    (reads : Reads parser (Derives A)) (proper : A.nullable = false) :
    parser [] = .error (.unexpected []) := by
  cases outcome : parser [] with
  | ok result =>
      have taken := Reads.takes A reads proper outcome
      cases taken
  | error rejection =>
      generalize empty : ([] : List Token) = tokens at outcome
      cases reads.rejected outcome with
      | unexpected used =>
          obtain ⟨rfl, rfl⟩ := List.append_eq_nil_iff.mp empty.symm
          rfl
      | behindOverflow used => simp at empty
      | overflow used => simp at empty

/-- Rejections at aligned places. -/
inductive Matching (stop halt : List Token) : Rejection → Rejection → Prop where
  | unexpected : Aligned stop halt rest more →
      Matching stop halt (.unexpected rest) (.unexpected more)
  | overflow : Alike literal other → Aligned stop halt rest more →
      Matching stop halt (.overflow literal rest) (.overflow other more)

/-- The first run has passed its place, or both end alike at aligned places. -/
inductive Agree (stop halt : List Token) : Except Rejection (α × List Token) →
    Except Rejection (α × List Token) → Prop where
  | beyond : (remaining outcome).length < stop.length → Agree stop halt outcome result
  | accepted : Aligned stop halt rest more →
      Agree stop halt (.ok (value, rest)) (.ok (result, more))
  | rejected : Matching stop halt rejection other →
      Agree stop halt (.error rejection) (.error other)

/-- The parsers agree on lists that are aligned, and in which fewer tokens than the
size stand before the place. -/
structure Lockstep (stop halt : List Token) (size : Nat) (parser other : Parser α) :
    Prop where
  shrinks : Shrinks parser
  agree : ∀ {tokens others}, Aligned stop halt tokens others →
    tokens.length < size + stop.length → Agree stop halt (parser tokens) (other others)

theorem Agree.bind {stop halt : List Token} {parser other : Parser α} {next after : α → Parser β}
    (first : Agree stop halt (parser tokens) (other others))
    (shrinks : ∀ value, Shrinks (next value))
    (later : ∀ {value rest result more}, parser tokens = .ok (value, rest) →
      Aligned stop halt rest more → Agree stop halt (next value rest) (after result more)) :
    Agree stop halt ((parser >>= next) tokens) ((other >>= after) others) := by
  rw [bind_apply, bind_apply]
  generalize firstRun : parser tokens = outcome at first
  generalize other others = result at first
  cases first with
  | beyond passed =>
      cases outcome with
      | error rejection => exact .beyond passed
      | ok found =>
          obtain ⟨value, rest⟩ := found
          exact .beyond (Nat.lt_of_le_of_lt (shrinks value rest) passed)
  | accepted aligned => exact later firstRun aligned
  | rejected matching => exact .rejected matching

/-- What takes the next token may look at the token behind it. -/
theorem Agree.peekSecond {stop halt : List Token} {next after : Option Token.Kind → Parser α}
    (aligned : Aligned stop halt tokens others)
    (taken : ∀ kind, (remaining (next kind tokens)).length < tokens.length)
    (later : ∀ kind, Agree stop halt (next kind tokens) (after kind others)) :
    Agree stop halt ((Parser.peekSecond >>= next) tokens)
      ((Parser.peekSecond >>= after) others) := by
  rw [peekSecond_run, peekSecond_run]
  cases aligned with
  | here => exact .beyond (taken _)
  | next _ behind =>
      simp only [List.tail_cons]
      rw [behind.head_eq]
      exact later _

namespace Lockstep

variable {stop halt : List Token} {size : Nat}

theorem mono (lockstep : Lockstep stop halt size parser other) (smaller : few ≤ size) :
    Lockstep stop halt few parser other :=
  ⟨lockstep.shrinks, fun aligned short => lockstep.agree aligned (by omega)⟩

theorem pure (value result : α) :
    Lockstep stop halt size (Pure.pure value) (Pure.pure result) :=
  ⟨fun _ => Nat.le_refl _, fun aligned _ => .accepted aligned⟩

/-- Whatever reads the same phrases agrees where no token is left. -/
theorem of_reads (A : Nonterminal) {parser other : Parser A.Value}
    (reads : Reads parser (Derives A)) (otherReads : Reads other (Derives A))
    (proper : A.nullable = false)
    (small : size = 0 ∨ size + stop.length ≤ 1 ∨ size + halt.length ≤ 1) :
    Lockstep stop halt size parser other := by
  refine ⟨reads.shrinks, fun {tokens others} aligned short => ?_⟩
  have lengths := aligned.length_eq
  have within := aligned.length_le
  rcases aligned.cases with
    ⟨rfl, rfl⟩ | ⟨token, rest, other, more, rfl, rfl, _, passed | ⟨_, later⟩⟩
  · rw [reads.run_nil proper, otherReads.run_nil proper]
    exact .rejected (.unexpected aligned)
  · simp only [List.length_cons] at lengths within short
    omega
  · have behind := later.length_le
    simp only [List.length_cons] at lengths within short
    omega

theorem bind {parser other : Parser α} {next after : α → Parser β}
    (first : Lockstep stop halt size parser other)
    (later : ∀ value result, Lockstep stop halt size (next value) (after result)) :
    Lockstep stop halt size (parser >>= next) (other >>= after) := by
  have shrinks (value : α) : Shrinks (next value) := (later value value).shrinks
  refine ⟨first.shrinks.bind shrinks, fun {tokens others} aligned short => ?_⟩
  refine (first.agree aligned short).bind shrinks fun {value rest result more} success onward => ?_
  have left := first.shrinks tokens
  rw [success] at left
  exact (later value result).agree onward (Nat.lt_of_le_of_lt left short)

/-- Behind a parser that takes a token, one token less stands before the place. -/
theorem bindTaking {parser other : Parser α} {next after : α → Parser β}
    (first : Lockstep stop halt (size + 1) parser other) (takes : Takes parser)
    (later : ∀ value result, Lockstep stop halt size (next value) (after result)) :
    Lockstep stop halt (size + 1) (parser >>= next) (other >>= after) := by
  have shrinks (value : α) : Shrinks (next value) := (later value value).shrinks
  refine ⟨first.shrinks.bind shrinks, fun {tokens others} aligned short => ?_⟩
  refine (first.agree aligned short).bind shrinks fun {value rest result more} success onward => ?_
  have left := takes success
  exact (later value result).agree onward (by omega)

theorem peek {next after : Option Token.Kind → Parser α}
    (later : ∀ kind, Lockstep stop halt size (next kind) (after kind)) :
    Lockstep stop halt size (Parser.peek >>= next) (Parser.peek >>= after) := by
  refine ⟨fun tokens => ?_, fun {tokens others} aligned short => ?_⟩
  · rw [peek_run]
    exact (later _).shrinks tokens
  · rw [peek_run, peek_run, aligned.head_eq]
    exact (later _).agree aligned short

theorem token (kind : Token.Kind) :
    Lockstep stop halt size (Parser.text kind) (Parser.text kind) := by
  refine ⟨shrinks_token kind, fun {tokens others} aligned short => ?_⟩
  rcases aligned.cases with ⟨rfl, rfl⟩ | ⟨token, rest, other, more, rfl, rfl, same, onward⟩
  · exact .rejected (.unexpected aligned)
  · simp only [Parser.text, same]
    split
    · rcases onward with passed | ⟨_, onward⟩
      · exact .beyond passed
      · exact .accepted onward
    · exact .rejected (.unexpected aligned)

theorem symbol (symbol : Symbol) :
    Lockstep stop halt size (Parser.symbol symbol) (Parser.symbol symbol) :=
  (token _).bind fun _ _ => .pure _ _

theorem keyword (keyword : Keyword) :
    Lockstep stop halt size (Parser.keyword keyword) (Parser.keyword keyword) :=
  (token _).bind fun _ _ => .pure _ _

theorem optionalSymbol {symbol : Symbol} {next after : Bool → Parser α}
    (later : ∀ found, Lockstep stop halt size (next found) (after found)) :
    Lockstep stop halt size (Parser.optionalSymbol symbol >>= next)
      (Parser.optionalSymbol symbol >>= after) := by
  unfold Parser.optionalSymbol
  simp only [bind_assoc]
  refine .peek fun kind => ?_
  split
  · simp only [bind_assoc, pure_bind]
    exact (Lockstep.symbol symbol).bind fun _ _ => later true
  · simpa using later false

theorem integer : Lockstep stop halt size Parser.integer Parser.integer := by
  refine ⟨shrinks_integer, fun {tokens others} aligned short => ?_⟩
  rcases aligned.cases with ⟨rfl, rfl⟩ | ⟨token, rest, other, more, rfl, rfl, same, onward⟩
  · exact .rejected (.unexpected aligned)
  · by_cases number : token.kind = .integer
    · have otherNumber : other.kind = .integer := same ▸ number
      rw [integer_cons number, integer_cons otherNumber]
      rcases onward with passed | ⟨alike, onward⟩
      · refine .beyond ?_
        split
        · exact passed
        · split
          · exact passed
          · exact passed
      · have overflows := alike.overflows
        simp only [Token.overflows, number, otherNumber, beq_self_eq_true,
          Bool.true_and] at overflows
        rw [onward.head_eq]
        cases fits : Literal.int64? token.text with
        | some value =>
            rw [fits] at overflows
            obtain ⟨result, otherFits⟩ := Option.isSome_iff_exists.mp
              (Option.isNone_eq_false_iff.mp overflows.symm)
            rw [otherFits]
            exact .accepted onward
        | none =>
            rw [fits] at overflows
            rw [Option.isNone_iff_eq_none.mp overflows.symm]
            simp only
            split
            · exact .rejected (.overflow alike onward)
            · exact .rejected (.unexpected onward)
    · rw [integer_cons_of_ne number, integer_cons_of_ne (same ▸ number)]
      exact .rejected (.unexpected aligned)

/-- Only behind an operator there is a token less before the place. -/
theorem operator {level : Symbol → Option BinaryOperator}
    {next after : Option BinaryOperator → Parser α}
    (present : ∀ found, Lockstep stop halt size (next (some found)) (after (some found)))
    (absent : Lockstep stop halt (size + 1) (next none) (after none)) :
    Lockstep stop halt (size + 1) (Parser.operator level >>= next)
      (Parser.operator level >>= after) := by
  unfold Parser.operator
  simp only [bind_assoc]
  refine .peek fun kind => ?_
  split
  · split
    case h_1 found leveled =>
      simp only [bind_assoc, pure_bind]
      exact (Lockstep.symbol _).bindTaking (takes_symbol _) fun _ _ => present found
    · simpa using absent
  · simpa using absent

private theorem shrinks_manyAtMost (starts : Token.Kind → Bool) {item : Parser α}
    (shrinks : Shrinks item) (bound : Nat) : Shrinks (Parser.manyAtMost starts item bound) := by
  induction bound with
  | zero => exact fun _ => Nat.le_refl _
  | succ bound induction =>
      intro tokens
      unfold Parser.manyAtMost
      rw [peek_run]
      split
      · exact shrinks.bind (fun _ => induction.bind fun _ => shrinks_pure _) tokens
      · exact Nat.le_refl _

private theorem manyAtMost_nil {starts : Token.Kind → Bool} {item : Parser α} (bound : Nat) :
    Parser.manyAtMost starts item bound [] = .ok ([], []) := by
  cases bound with
  | zero => rfl
  | succ bound => simp [Parser.manyAtMost]

private theorem agree_manyAtMost {starts : Token.Kind → Bool} {item other : Parser α}
    (items : Lockstep stop halt size item other) (takes : Takes item) (bound limit : Nat)
    (aligned : Aligned stop halt tokens others) (short : tokens.length < size + stop.length)
    (enough : tokens.length ≤ bound) (sufficient : others.length ≤ limit) :
    Agree stop halt (Parser.manyAtMost starts item bound tokens)
      (Parser.manyAtMost starts other limit others) := by
  induction bound generalizing limit tokens others with
  | zero =>
      obtain rfl := List.eq_nil_of_length_eq_zero (Nat.le_zero.mp enough)
      rcases aligned.cases with ⟨_, rfl⟩ | ⟨token, rest, other, more, impossible, _⟩
      · rw [manyAtMost_nil, manyAtMost_nil]
        exact .accepted aligned
      · cases impossible
  | succ bound induction =>
      rcases aligned.cases with ⟨rfl, rfl⟩ | ⟨token, rest, other, more, rfl, rfl, same, _⟩
      · rw [manyAtMost_nil, manyAtMost_nil]
        exact .accepted aligned
      · cases limit with
        | zero => cases sufficient
        | succ limit =>
            have shrinks := shrinks_manyAtMost starts items.shrinks bound
            unfold Parser.manyAtMost
            rw [peek_run, peek_run, aligned.head_eq]
            split
            · refine (items.agree aligned short).bind
                (fun _ => shrinks.bind fun _ => shrinks_pure _) fun success onward => ?_
              have taken := takes success
              have lengths := aligned.length_eq
              have lengthsLeft := onward.length_eq
              refine (induction limit onward (by omega) (by omega) (by omega)).bind
                (fun _ => shrinks_pure _) fun _ further => ?_
              exact .accepted further
            · exact .accepted aligned

theorem many {starts : Token.Kind → Bool} {item other : Parser α}
    (items : Lockstep stop halt size item other) (takes : Takes item) :
    Lockstep stop halt size (Parser.many starts item) (Parser.many starts other) := by
  refine ⟨fun tokens => shrinks_manyAtMost starts items.shrinks _ tokens, ?_⟩
  intro tokens others aligned short
  exact agree_manyAtMost items takes _ _ aligned short (Nat.le_refl _) (Nat.le_refl _)

theorem commaSeparated {first before item other : Parser α}
    (heads : Lockstep stop halt size first before) (items : Lockstep stop halt size item other) :
    Lockstep stop halt size (Parser.commaSeparated first item)
      (Parser.commaSeparated before other) := by
  have tails : Lockstep stop halt size (do Parser.symbol .comma; item)
      (do Parser.symbol .comma; other) := (symbol .comma).bind fun _ _ => items
  have takes : Takes (do Parser.symbol .comma; item) :=
    Takes.bind (takes_symbol .comma) fun _ => items.shrinks
  exact heads.bind fun _ _ => (tails.many takes).bind fun _ _ => .pure _ _

end Lockstep

end SheetLang
