import Mathlib.Data.List.Basic
import SheetLang.Grammar.Lookahead
import SheetLang.Parser.Trace
import SheetLang.Proofs.Parser.Localisation
import SheetLang.Proofs.TokenStream.LineBreaks

/-!
# Parsing token by token

What is rejected at a token is rejected whatever comes behind that token, because the parser
reads both lists in the same steps up to there.  So nothing is gained by looking further, and
asking a reader for one token after the other gives the result of all its tokens at once.
-/

namespace SheetLang

variable {tokens used rest : List Token} {token : Token} {rejection : Rejection}

/-! ## Rejections that last -/

/-- The rejection at the same place with other tokens behind it. -/
def Rejection.before (rest : List Token) : Rejection → Rejection
  | unexpected _ => unexpected rest
  | overflow literal _ => overflow literal rest

@[simp]
theorem Rejection.rest_before (rest : List Token) (rejection : Rejection) :
    (rejection.before rest).rest = rest := by
  cases rejection <;> rfl

theorem aligned_append_self {stop halt : List Token} (front : List Token)
    (heads : stop.head?.map Token.kind = halt.head?.map Token.kind) :
    Aligned stop halt (front ++ stop) (front ++ halt) := by
  induction front with
  | nil => exact .here heads
  | cons token front induction => exact .next ⟨rfl, rfl⟩ induction

/-- Nothing is aligned with one place but the other. -/
theorem Aligned.eq_halt {stop halt others : List Token}
    (aligned : Aligned stop halt stop others) : others = halt := by
  cases aligned with
  | here => rfl
  | next alike behind => exact absurd behind.length_le (Nat.not_succ_le_self _)

theorem Program.exists_used (failure : Program.ofTokens tokens = .error rejection) :
    ∃ used, tokens = used ++ rejection.rest := by
  cases Program.stuck_of_ofTokens failure with
  | unexpected used => exact ⟨used, rfl⟩
  | @behindOverflow literal rest used => exact ⟨used ++ [literal], by simp [Rejection.rest]⟩
  | @overflow literal next rest used => exact ⟨used ++ [literal], by simp [Rejection.rest]⟩

/-- The whole number out of range stands right before the tokens that were not read. -/
theorem Program.exists_used_of_overflow {literal : Token}
    (failure : Program.ofTokens tokens = .error (.overflow literal rest)) :
    ∃ used, tokens = used ++ literal :: rest := by
  generalize same : Rejection.overflow literal rest = rejection at failure
  cases Program.stuck_of_ofTokens failure with
  | unexpected | behindOverflow => cases same
  | overflow used =>
      cases same
      exact ⟨used, rfl⟩

/-- What is rejected at a token is rejected there with any tokens behind it. -/
theorem Program.ofTokens_of_rejected
    (failure : Program.ofTokens (used ++ token :: rest) = .error rejection)
    (place : rejection.rest = token :: rest) (more : List Token) :
    Program.ofTokens (used ++ token :: more) = .error (rejection.before (token :: more)) := by
  have aligned : Aligned (token :: rest) (token :: more) (used ++ token :: rest)
      (used ++ token :: more) := aligned_append_self used rfl
  have agree := Parser.agree_program aligned
  have second : ∃ other, Program.ofTokens (used ++ token :: more) = .error other ∧
      Matching (token :: rest) (token :: more) rejection other := by
    unfold Program.ofTokens at failure ⊢
    generalize Parser.program (Nested.upTo (used ++ token :: rest).length) _ = outcome
      at agree failure
    generalize Parser.program (Nested.upTo (used ++ token :: more).length) _ = result at agree ⊢
    cases agree with
    | beyond passed =>
        have left : Parser.remaining outcome = token :: rest := by
          split at failure
          · cases failure
          · cases failure
            exact place
          · cases failure
            exact place
        rw [left] at passed
        exact absurd passed (Nat.lt_irrefl _)
    | rejected matching =>
        cases failure
        exact ⟨_, rfl, matching⟩
    | accepted onward =>
        rcases onward.cases with ⟨rfl, -⟩ | ⟨first, behind, next, others, rfl, rfl, -⟩
        · cases failure
        · cases failure
          exact ⟨_, rfl, .unexpected onward⟩
  obtain ⟨other, rejected, matching⟩ := second
  cases matching with
  | unexpected behind =>
      cases place
      rw [rejected, behind.eq_halt]
      rfl
  | overflow alike behind =>
      cases place
      obtain rfl := behind.eq_halt
      -- Both whole numbers are the last token before the place.
      obtain ⟨front, split⟩ := Program.exists_used_of_overflow failure
      obtain ⟨others, same⟩ := Program.exists_used_of_overflow rejected
      rw [List.append_cons front] at split
      rw [List.append_cons others] at same
      have last := (List.append_cancel_right split).symm.trans (List.append_cancel_right same)
      obtain ⟨-, literals⟩ := List.append_inj' last rfl
      cases literals
      exact rejected

/-! ## Refusals -/

theorem Program.refusal?_eq_some_iff :
    Program.refusal? tokens = some rejection ↔
      Program.ofTokens tokens = .error rejection ∧ rejection.rest ≠ [] := by
  unfold Program.refusal?
  split
  case h_1 program accepted =>
    simp [accepted]
  case h_2 incomplete =>
    constructor
    · intro impossible
      cases impossible
    · rintro ⟨failure, more⟩
      rw [incomplete] at failure
      cases failure
      exact absurd rfl more
  case h_3 found notIncomplete failure =>
    constructor
    · intro refused
      cases refused
      refine ⟨failure, fun ended => ?_⟩
      cases Program.stuck_of_ofTokens failure with
      | unexpected used | behindOverflow used =>
          cases ended
          exact notIncomplete rfl
      | overflow used => cases ended
    · rintro ⟨other, -⟩
      rw [failure] at other
      cases other
      rfl

/-- Tokens that are refused are a list that can be gone on with, if any, and one token. -/
theorem Program.rest_eq_of_refusal? (going : Program.refusal? used = none)
    (refused : Program.refusal? (used ++ [token]) = some rejection) :
    rejection.rest = [token] := by
  obtain ⟨failure, more⟩ := Program.refusal?_eq_some_iff.mp refused
  obtain ⟨front, split⟩ := Program.exists_used failure
  obtain ⟨others, last, back⟩ := (List.eq_nil_or_concat rejection.rest).resolve_left more
  rw [List.concat_eq_append] at back
  rw [back, ← List.append_assoc] at split
  obtain ⟨rfl, same⟩ := List.append_inj' split rfl
  cases same
  cases others with
  | nil => exact back
  | cons first others =>
      -- The rejection would have been found without the last token.
      rw [List.cons_append] at back
      rw [List.append_assoc, List.cons_append] at failure
      have earlier := Program.ofTokens_of_rejected failure back others
      have refused := Program.refusal?_eq_some_iff.mpr ⟨earlier, by simp⟩
      rw [going] at refused
      cases refused

theorem Program.rejected_of_refusal? (refused : Program.refusal? used = some rejection) :
    Program.ofTokens used = .error rejection :=
  (Program.refusal?_eq_some_iff.mp refused).1

/-- Tokens that can be gone on with are no program at most because they end too early. -/
theorem Program.ofTokens_of_refusal?_eq_none (going : Program.refusal? used = none)
    (failure : Program.ofTokens used = .error rejection) : rejection = .unexpected [] := by
  by_cases ended : rejection.rest = []
  · cases Program.stuck_of_ofTokens failure with
    | unexpected | behindOverflow =>
        cases ended
        rfl
    | overflow => cases ended
  · rw [Program.refusal?_eq_some_iff.mpr ⟨failure, ended⟩] at going
    cases going

/-! ## Streams -/

namespace TokenStream

/-- A rejection is reported at its place, whatever the stream goes on with. -/
theorem faultOf_before (stream other : TokenStream) (more : List Token)
    (place : rejection.rest = token :: rest) :
    stream.faultOf (rejection.before (token :: more)) = other.faultOf rejection := by
  cases rejection with
  | unexpected =>
      cases place
      rfl
  | overflow => rfl

theorem parse_of_rejected {stream : TokenStream} (other : TokenStream)
    (failure : Program.ofTokens (used ++ token :: rest) = .error rejection)
    (place : rejection.rest = token :: rest) (more : List Token)
    (split : stream.tokens = used ++ token :: more) :
    stream.parse = .error (other.faultOf rejection) ∧ stream.pulled = used ++ [token] := by
  have rejected := Program.ofTokens_of_rejected failure place more
  constructor
  · rw [parse, split, rejected]
    exact congrArg _ (faultOf_before _ _ more place)
  · rw [pulled, split, rejected]
    have places : (used ++ token :: more).length - (token :: more).length = used.length := by
      rw [List.length_append, Nat.add_sub_cancel]
    simp only [Rejection.rest_before, places]
    rw [List.append_cons used token more]
    exact List.take_left' (by simp)

/-- A stream that is not rejected is looked at as a whole. -/
theorem pulled_of_refusal?_eq_none {stream : TokenStream}
    (going : Program.refusal? stream.tokens = none) : stream.pulled = stream.tokens := by
  unfold pulled
  split
  case h_1 rejection failure =>
    obtain rfl := Program.ofTokens_of_refusal?_eq_none going failure
    exact List.take_of_length_le (Nat.le_succ _)
  · rfl

theorem parse_of_refusal?_eq_none {stream : TokenStream} {fault : Fault}
    (going : Program.refusal? stream.tokens = none) (faulty : stream.fault = some fault) :
    stream.parse = .error fault := by
  unfold parse
  split
  case h_1 rejection failure =>
    obtain rfl := Program.ofTokens_of_refusal?_eq_none going failure
    rw [faultOf, faulty]
    rfl
  · rw [faulty]

/-! ### How much of a stream is looked at -/

theorem pulled_prefix (stream : TokenStream) : stream.pulled <+: stream.tokens := by
  unfold pulled
  split
  · exact List.take_prefix _ _
  · exact List.prefix_refl _

theorem exists_lookedAt (tokens : List Token) (longest : LongestViable tokens count) :
    ∃ looked, LookedAt tokens count looked := by
  by_cases held : ∃ literal, HeldBack tokens count literal
  · obtain ⟨literal, held⟩ := held
    exact ⟨_, .heldBack held⟩
  · have none := not_exists.mp held
    rcases Nat.lt_or_eq_of_le longest.1 with before | whole
    · exact ⟨_, .unexpected none before⟩
    · exact ⟨_, .all none whole⟩

/-- A whole number out of range behind others in range is the first token like it. -/
theorem idxOf_overflowing {front : List Token} {literal : Token} (inRange : InRange front)
    (overflows : literal.overflows = true) :
    (front ++ literal :: rest).idxOf literal = front.length := by
  have missing : literal ∉ front := by
    intro member
    rw [inRange literal member] at overflows
    cases overflows
  rw [List.idxOf_append_of_notMem missing, List.idxOf_cons_self, Nat.add_zero]

/-- The parser looks at as many tokens as the grammar says. -/
theorem pulled_eq_take {stream : TokenStream} (longest : LongestViable stream.tokens count)
    (lookedAt : LookedAt stream.tokens count looked) :
    stream.pulled = stream.tokens.take looked := by
  unfold pulled
  cases outcome : Program.ofTokens stream.tokens with
  | ok program =>
      have derivation := Program.derives_of_ofTokens outcome
      have inRange := inRange_of_derives derivation
      cases lookedAt with
      | heldBack held =>
          refine absurd held (not_heldBack_of_inRange (fun token member => ?_) _)
          exact inRange token (List.mem_of_mem_take member)
      | unexpected none before =>
          rw [longest.eq_length ⟨_, _, rfl, derivation⟩] at before
          exact absurd before (Nat.lt_irrefl _)
      | all => rw [List.take_length]
  | error rejection =>
      dsimp only
      cases Program.rejected_of_ofTokens outcome longest with
      | @heldBack literal next rest front split inRange held =>
          cases lookedAt with
          | heldBack other =>
              obtain rfl := other.unique held
              obtain ⟨_, _, _, _, overflows, _⟩ := held
              rw [split, idxOf_overflowing inRange overflows]
              simp only [Rejection.rest, List.length_append, List.length_cons]
              congr 1
              omega
          | unexpected none | all none => exact absurd held (none _)
      | @unexpected rest front split same none =>
          cases lookedAt with
          | heldBack held => exact absurd held (none _)
          | unexpected =>
              rw [same, split, Rejection.rest, List.length_append, Nat.add_sub_cancel]
          | all none whole =>
              have ended : rest.length = 0 := by
                rw [split, List.length_append] at whole
                omega
              rw [List.take_length, Rejection.rest, ended]
              exact List.take_of_length_le (Nat.le_succ _)

/-! ### What is decided early -/

theorem incomplete_of_ofTokens {stream : TokenStream}
    (failure : Program.ofTokens stream.tokens = .error (.unexpected []))
    (sound : stream.fault = none) : stream.Incomplete := by
  obtain ⟨count, longest⟩ := exists_longestViable stream.tokens
  generalize same : Rejection.unexpected [] = rejection at failure
  cases Program.rejected_of_ofTokens failure longest with
  | heldBack => cases same
  | unexpected front split whole none unfinished =>
      cases same
      obtain rfl : count = stream.tokens.length := by rw [whole, split, List.append_nil]
      refine ⟨sound, none, ?_, unfinished rfl⟩
      simpa using longest.2.1

theorem parse_eq_error_of_verdict {stream : TokenStream} {fault : Fault}
    (longest : LongestViable stream.tokens count) (verdict : Verdict stream count (.error fault)) :
    stream.parse = .error fault := by
  have same := (stream.verdict_parse longest).unique verdict
  cases parsed : stream.parse with
  | ok =>
      rw [parsed] at same
      cases same
  | error found =>
      rw [parsed] at same
      cases same
      rfl

/-- Of a stream that ends too early, nothing but its end is reported. -/
theorem Incomplete.parse_eq {stream : TokenStream} (incomplete : stream.Incomplete) :
    stream.parse = .error (.syntactic Fault.endMark stream.lastLine) := by
  have longest : LongestViable stream.tokens stream.tokens.length :=
    ⟨Nat.le_refl _, by simpa using incomplete.viable, fun _ within _ => within⟩
  exact parse_eq_error_of_verdict longest
    (.incomplete incomplete.inRange rfl incomplete.sound incomplete.unfinished)

/-- What a stream is refused with, other streams that go the same way as far as it was looked
at are refused with as well. -/
theorem parse_eq_of_pulled_prefix {stream other : TokenStream} {fault : Fault}
    (failure : stream.parse = .error fault) (complete : ¬stream.Incomplete)
    (alike : stream.pulled <+: other.tokens)
    (faulty : stream.fault = some fault → other = ⟨stream.pulled, some fault⟩) :
    other.parse = .error fault := by
  cases refused : Program.refusal? stream.tokens with
  | some rejection =>
      obtain ⟨rejected, more⟩ := Program.refusal?_eq_some_iff.mp refused
      obtain ⟨token, rest, place⟩ := List.exists_cons_of_ne_nil more
      obtain ⟨used, split⟩ := Program.exists_used rejected
      rw [place] at split
      rw [split] at rejected
      obtain ⟨parsed, pulled⟩ := parse_of_rejected stream rejected place rest split
      rw [pulled] at alike
      obtain ⟨later, longer⟩ := alike
      rw [List.append_assoc] at longer
      rw [(parse_of_rejected stream rejected place later longer.symm).1, ← parsed]
      exact failure
  | none =>
      have pulled := pulled_of_refusal?_eq_none refused
      cases ended : stream.fault with
      | some last =>
          have parsed := parse_of_refusal?_eq_none refused ended
          rw [failure] at parsed
          cases parsed
          rw [faulty ended, pulled, ← ended]
          exact failure
      | none =>
          unfold parse at failure
          cases outcome : Program.ofTokens stream.tokens with
          | ok program => simp [outcome, ended] at failure
          | error rejection =>
              obtain rfl := Program.ofTokens_of_refusal?_eq_none refused outcome
              exact absurd (incomplete_of_ofTokens outcome ended) complete

end TokenStream

/-! ## Readers -/

@[simp]
theorem Trace.told_cons {State : Type} (trace : Trace State) (state : State) (token : Token)
    (tokens : List Token) (parsed : Except Fault Program) :
    trace.told state (token :: tokens) parsed =
      trace.told (trace.token state token) tokens parsed := by
  cases parsed <;> rfl

namespace Reader

/-- Parsing token by token comes to the result of the whole stream, and the trace is told of
the tokens that are looked at. -/
theorem parseBehind_eq {State : Type} (trace : Trace State) (read : List Token) (state : State)
    (reader : Reader) (going : Program.refusal? read = none) (stream : TokenStream)
    (same : stream = ⟨read ++ reader.stream.tokens, reader.stream.fault⟩) :
    ∃ asked, stream.pulled = read ++ asked ∧
      reader.parseBehind trace read state =
        (stream.parse, trace.told state asked stream.parse) := by
  have delivers := reader.stream_eq_next
  fun_induction parseBehind trace read state reader with
  | case1 read state reader token after item longer next rejection refused =>
      rw [item] at delivers
      rw [delivers] at same
      have place := Program.rest_eq_of_refusal? going refused
      have failure := Program.rejected_of_refusal? refused
      obtain ⟨parsed, pulled⟩ := TokenStream.parse_of_rejected ⟨longer, none⟩ failure place
        after.stream.tokens (congrArg TokenStream.tokens same)
      refine ⟨[token], pulled, ?_⟩
      rw [parsed]
      rfl
  | case2 read state reader token after item longer next going' induction =>
      rw [item] at delivers
      rw [delivers] at same
      obtain ⟨asked, pulled, parsed⟩ := induction going' (by simpa [longer] using same)
        after.stream_eq_next
      refine ⟨token :: asked, by simpa [longer] using pulled, ?_⟩
      rw [parsed, Trace.told_cons]
  | case3 read state reader fault after item =>
      rw [item] at delivers
      simp only [delivers, List.append_nil] at same
      subst same
      have parsed : TokenStream.parse ⟨read, some fault⟩ = .error fault :=
        TokenStream.parse_of_refusal?_eq_none going rfl
      rw [parsed]
      refine ⟨[], ?_, rfl⟩
      rw [List.append_nil]
      exact TokenStream.pulled_of_refusal?_eq_none going
  | case4 read state reader after item parsed =>
      rw [item] at delivers
      simp only [delivers, List.append_nil] at same
      subst same
      refine ⟨[], ?_, rfl⟩
      rw [List.append_nil]
      exact TokenStream.pulled_of_refusal?_eq_none going

/-- A parse depends on what a reader delivers only. -/
theorem parseTraced_eq {State : Type} (reader : Reader) (trace : Trace State) (state : State) :
    reader.parseTraced trace state =
      (reader.stream.parse, trace.told state reader.stream.pulled reader.stream.parse) := by
  obtain ⟨asked, pulled, parsed⟩ :=
    parseBehind_eq trace [] state reader rfl reader.stream rfl
  rw [List.nil_append] at pulled
  rw [pulled]
  exact parsed

end Reader

/-! ## Traced parses -/

/-- A trace is told of exactly the tokens that have to be looked at, and then of the nodes of
the program, if there is one.  So nothing behind those tokens takes part in the result. -/
theorem Program.ofSource_traced :
    (∀ (State : Type) (trace : Trace State) (state : State) (source : String),
      ∃ count looked,
        LongestViable (TokenStream.ofSource source).tokens count ∧
        Verdict (TokenStream.ofSource source) count
          ((Program.ofSource source).map fun _ => ()) ∧
        LookedAt (TokenStream.ofSource source).tokens count looked ∧
        (∀ program, Program.ofSource source = .ok program →
          (Reader.ofSource source).parseTraced trace state =
            (.ok program, program.outline.postorder.foldl trace.reduced
              (((TokenStream.ofSource source).tokens.take looked).foldl trace.token state))) ∧
        ∀ fault, Program.ofSource source = .error fault →
          (Reader.ofSource source).parseTraced trace state =
            (.error fault,
              ((TokenStream.ofSource source).tokens.take looked).foldl trace.token state)) ∧
    (∀ (source : String) (fault : Fault) (count looked : Nat),
      Program.ofSource source = .error fault → ¬(TokenStream.ofSource source).Incomplete →
      LongestViable (TokenStream.ofSource source).tokens count →
      LookedAt (TokenStream.ofSource source).tokens count looked →
      ∀ other : String,
        (TokenStream.ofSource source).tokens.take looked <+:
          (TokenStream.ofSource other).tokens →
        (∀ character line, fault = .lexical character line →
          TokenStream.ofSource other =
            ⟨(TokenStream.ofSource source).tokens.take looked, some fault⟩) →
        Program.ofSource other = .error fault) ∧
    ∀ (source : String) (fault : Fault),
      Program.ofSource source = .error fault → ¬(TokenStream.ofSource source).Incomplete →
      ∀ later : String, Program.ofSource (source ++ "\n" ++ later) = .error fault := by
  refine ⟨fun State trace state source => ?_, ?_, ?_⟩
  · obtain ⟨count, longest⟩ := exists_longestViable (TokenStream.ofSource source).tokens
    obtain ⟨looked, lookedAt⟩ := TokenStream.exists_lookedAt _ longest
    have parsed : (Reader.ofSource source).parseTraced trace state =
        (Program.ofSource source,
          trace.told state (TokenStream.ofSource source).pulled (Program.ofSource source)) :=
      Reader.parseTraced_eq (Reader.ofSource source) trace state
    rw [TokenStream.pulled_eq_take longest lookedAt] at parsed
    refine ⟨count, looked, longest, TokenStream.verdict_parse _ longest, lookedAt, ?_, ?_⟩
    · intro program accepted
      rw [parsed, accepted, Trace.told]
    · intro fault refused
      rw [parsed, refused, Trace.told]
  · intro source fault count looked failure complete longest lookedAt other alike faulty
    have pulled := TokenStream.pulled_eq_take longest lookedAt
    rw [← pulled] at alike faulty
    refine TokenStream.parse_eq_of_pulled_prefix failure complete alike fun ended => ?_
    obtain ⟨line, found⟩ := TokenStream.fault_ofLexemes 1 (Lexeme.cut source.toList)
    obtain ⟨character, -, same⟩ := Option.map_eq_some_iff.mp (found.symm.trans ended)
    exact faulty character line same.symm
  · intro source fault failure complete later
    cases ended : (TokenStream.ofSource source).fault with
    | some last =>
        rw [Program.ofSource, TokenStream.ofSource_append_newline_of_fault ended]
        exact failure
    | none =>
        refine TokenStream.parse_eq_of_pulled_prefix failure complete ?_ fun faulty => ?_
        · rw [TokenStream.ofSource_behind_newline ended]
          exact (TokenStream.pulled_prefix _).trans (List.prefix_append _ _)
        · rw [ended] at faulty
          cases faulty

/-- What is asked for and what is made of it, as a list of texts. -/
def Trace.texts : Trace (List String) :=
  ⟨fun texts token => texts ++ [token.text], fun texts node => texts ++ [node.label]⟩

/-- A trace of a program has all tokens first and then the nodes.  A whole number out of range
is reported before what stands behind the next token, on the same line or on a later one, and
no node is reported then. -/
theorem Program.ofSource_traced_sum :
    ((Reader.ofSource "print_scalar ab + 1.0").parseTraced Trace.texts []).2 =
        ["print_scalar", "ab", "+", "1.0",
          "Operator:+", "Ident:ab", "Decimal:1.0", "BinaryOp", "Print:scalar", "Program"] ∧
      ((Reader.ofSource "sheet SH = 2 * 9223372036854775808 xs").parseTraced Trace.texts []).2 =
        ["sheet", "SH", "=", "2", "*", "9223372036854775808", "xs"] ∧
      Program.ofSource "sheet SH = 2 * 9223372036854775808 xs then" =
        .error (.syntactic "9223372036854775808" 1) ∧
      Program.ofSource ("sheet SH = 2 * 9223372036854775808 xs" ++ "\n" ++ "é") =
        .error (.syntactic "9223372036854775808" 1) := by
  have sum : TokenStream.ofSource "print_scalar ab + 1.0" =
      ⟨[⟨.keyword .printScalar, "print_scalar", 1⟩, ⟨.ident, "ab", 1⟩, ⟨.symbol .plus, "+", 1⟩,
        ⟨.decimal, "1.0", 1⟩], none⟩ := by
    decide
  have accepted : Program.ofSource "print_scalar ab + 1.0" =
      .ok ⟨[], [.print none (.scalar
        (.binary .plus (.name "ab") (.decimal (Binary64.ofLiteral "1.0"))))]⟩ := by
    rw [Program.ofSource, sum]
    rfl
  have stream : TokenStream.ofSource "sheet SH = 2 * 9223372036854775808 xs" =
      ⟨[⟨.keyword .sheet, "sheet", 1⟩, ⟨.sheetName, "SH", 1⟩, ⟨.symbol .equal, "=", 1⟩,
        ⟨.integer, "2", 1⟩, ⟨.symbol .times, "*", 1⟩, ⟨.integer, "9223372036854775808", 1⟩,
        ⟨.ident, "xs", 1⟩], none⟩ := by
    decide
  have other : TokenStream.ofSource "sheet SH = 2 * 9223372036854775808 xs then" =
      ⟨[⟨.keyword .sheet, "sheet", 1⟩, ⟨.sheetName, "SH", 1⟩, ⟨.symbol .equal, "=", 1⟩,
        ⟨.integer, "2", 1⟩, ⟨.symbol .times, "*", 1⟩, ⟨.integer, "9223372036854775808", 1⟩,
        ⟨.ident, "xs", 1⟩, ⟨.keyword .then, "then", 1⟩], none⟩ := by
    decide
  have failure : Program.ofSource "sheet SH = 2 * 9223372036854775808 xs" =
      .error (.syntactic "9223372036854775808" 1) := by
    rw [Program.ofSource, stream]
    rfl
  have complete :
      ¬(TokenStream.ofSource "sheet SH = 2 * 9223372036854775808 xs").Incomplete := by
    intro incomplete
    have ended := incomplete.parse_eq
    rw [← Program.ofSource, failure, stream] at ended
    simp only [Except.error.injEq, Fault.syntactic.injEq] at ended
    exact absurd ended.1 (by decide)
  have overflowing := Program.ofSource_traced.1 (List String) Trace.texts []
    "sheet SH = 2 * 9223372036854775808 xs"
  obtain ⟨count, looked, longest, -, lookedAt, -, told⟩ := overflowing
  refine ⟨?_, ?_, ?_, ?_⟩
  · obtain ⟨count, looked, longest, -, lookedAt, told, -⟩ :=
      Program.ofSource_traced.1 (List String) Trace.texts [] "print_scalar ab + 1.0"
    rw [told _ accepted, ← TokenStream.pulled_eq_take longest lookedAt, sum]
    decide +kernel
  · rw [told _ failure, ← TokenStream.pulled_eq_take longest lookedAt, stream]
    rfl
  · refine Program.ofSource_traced.2.1 _ _ count looked failure complete longest lookedAt _ ?_ ?_
    · refine (List.take_prefix _ _).trans ?_
      rw [stream, other]
      decide
    · intro character line impossible
      cases impossible
  · exact Program.ofSource_traced.2.2 _ _ failure complete "é"

end SheetLang
