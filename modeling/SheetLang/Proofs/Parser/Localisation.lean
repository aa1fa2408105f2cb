import Mathlib.Data.Nat.Find
import SheetLang.Grammar.Verdict
import SheetLang.Proofs.Grammar.IntegerFollowers
import SheetLang.Proofs.Parser.Acceptance
import SheetLang.Proofs.Parser.ProgramLockstep

/-!
# Where a fault is found

The tokens that the parser passes over begin a sentence, by soundness.  No more of
them do: if the token at which it stops went on with a sentence, it would go on with
the parser, too, since the sentence is accepted and the parser reads both in the same
steps.

Whole numbers out of range are the exception, as their fault is reported only when the
next token is seen.  It is the next token that is at fault if it cannot stand behind
any whole number.
-/

namespace SheetLang

open Grammar SheetLang.Parser

/-! ## Kinds behind whole numbers -/

/-- Whether a token list of these kinds is accepted whose whole numbers are in range. -/
private def accepts (kinds : List Token.Kind) : Bool :=
  (Program.ofTokens (kinds.map fun kind => ⟨kind, "1", 1⟩)).toBool

private theorem sentence_of_accepts {kinds : List Token.Kind} (accepted : accepts kinds = true) :
    Sentence kinds := by
  unfold accepts at accepted
  cases outcome : Program.ofTokens (kinds.map fun kind => ⟨kind, "1", 1⟩) with
  | error rejection =>
      rw [outcome] at accepted
      cases accepted
  | ok program =>
      refine ⟨_, program, ?_, Program.derives_of_ofTokens outcome⟩
      simp [Function.comp_def]

/-- What a sentence begins with in which a whole number stands before a kind. -/
private def introduction : Token.Kind → List Token.Kind
  | .symbol .times => [.keyword .sheet, .sheetName, .symbol .equal]
  | .symbol .comma => [.rangeName, .symbol .assign, .rangeName, .symbol .leftBracket]
  | .symbol .rightBracket =>
    [.rangeName, .symbol .assign, .rangeName, .symbol .leftBracket, .integer, .symbol .comma]
  | _ => [.keyword .sheet, .sheetName, .symbol .equal, .integer, .symbol .times]

/-- What ends the sentence. -/
private def conclusion : Token.Kind → List Token.Kind
  | .symbol .times => .integer :: statement
  | .symbol .comma => [.integer, .symbol .rightBracket]
  | .symbol .rightBracket => []
  | .keyword .scalar => .ident :: statement
  | .keyword .range => .rangeName :: statement
  | .keyword .sheet => .sheetName :: statement
  | .keyword .function =>
    [.funcName, .symbol .leftBracket, .symbol .rightBracket, .keyword .«return»,
      .keyword .scalar, .keyword .is] ++ statement ++ .keyword .«end» :: statement
  | .keyword .subroutine =>
    [.funcName, .symbol .leftBracket, .symbol .rightBracket, .keyword .is] ++ statement ++
      .keyword .«end» :: statement
  | .keyword .«if» => [.ident, .keyword .«then»] ++ statement ++ [.keyword .endif]
  | .keyword .«while» => [.ident, .keyword .«do»] ++ statement ++ [.keyword .done]
  | .keyword .«for» => [.rangeName, .keyword .«do»] ++ statement ++ [.keyword .done]
  | .keyword .printSheet => [.sheetName]
  | .keyword .printRange => [.rangeName]
  | .funcName => [.symbol .leftBracket, .symbol .rightBracket]
  | .rangeName => [.symbol .assign, .rangeName]
  | .sheetName => [.symbol .assign, .sheetName]
  | .ident | .symbol .dollar => [.symbol .assign, .ident]
  | _ => [.ident]
where
  statement : List Token.Kind := [.sheetName, .symbol .assign, .sheetName]

private theorem accepts_around {kind : Token.Kind} (follows : followsInteger kind = true) :
    accepts (introduction kind ++ .integer :: kind :: conclusion kind) = true := by
  cases kind with
  | keyword word =>
      cases word <;> first | exact absurd follows (by decide) | decide
  | symbol mark =>
      cases mark <;> first | exact absurd follows (by decide) | decide
  | _ => first | exact absurd follows (by decide) | decide

theorem followsInteger_iff {kind : Token.Kind} :
    FollowsInteger kind ↔ followsInteger kind = true := by
  constructor
  · intro follows
    obtain ⟨before, after, sentence⟩ := follows
    exact followsInteger_of_sentence sentence
  · intro follows
    exact ⟨_, _, sentence_of_accepts (accepts_around follows)⟩

/-! ## Prefixes of sentences -/

theorem Viable.of_append {front back : List Token.Kind} (viable : Viable (front ++ back)) :
    Viable front := by
  obtain ⟨more, sentence⟩ := viable
  exact ⟨back ++ more, by simpa using sentence⟩

theorem Begins.viable (begins : Begins (Derives .program) tokens) :
    Viable (tokens.map Token.kind) := by
  obtain ⟨whole, program, derivation, more, kinds⟩ := begins
  exact ⟨more, whole, program, kinds.symm, derivation⟩

theorem exists_longestViable (tokens : List Token) : ∃ count, LongestViable tokens count := by
  classical
  have begins : Begins (Derives .program) [] :=
    .nil (reads_program (Nested.sound_upTo 0)).inhabited
  let begun (count : Nat) : Prop := Viable ((tokens.take count).map Token.kind)
  have empty : begun 0 := by simpa [begun] using begins.viable
  refine ⟨Nat.findGreatest begun tokens.length, Nat.findGreatest_le _, ?_, ?_⟩
  · exact Nat.findGreatest_spec (Nat.zero_le _) empty
  · exact fun other within viable => Nat.le_findGreatest within viable

theorem LongestViable.le {tokens : List Token} (longest : LongestViable tokens count)
    (split : tokens = front ++ back) (viable : Viable (front.map Token.kind)) :
    front.length ≤ count := by
  subst split
  exact longest.2.2 _ (by simp) (by simpa using viable)

theorem LongestViable.eq_length {tokens : List Token} (longest : LongestViable tokens count)
    (sentence : Sentence (tokens.map Token.kind)) : count = tokens.length := by
  refine Nat.le_antisymm longest.1 (longest.le (List.append_nil _).symm ⟨[], ?_⟩)
  simpa using sentence

/-- What goes on with no sentence ends the longest part that does. -/
theorem LongestViable.eq {tokens : List Token} (longest : LongestViable tokens count)
    (split : tokens = front ++ back) (viable : Viable (front.map Token.kind))
    (blocked : ∀ token rest, back = token :: rest → ¬Viable ((front ++ [token]).map Token.kind)) :
    count = front.length := by
  refine Nat.le_antisymm (Nat.le_of_not_lt fun more => ?_) (longest.le split viable)
  subst split
  cases back with
  | nil =>
      have within := longest.1
      simp only [List.append_nil] at within
      omega
  | cons token rest =>
      have whole := longest.2.1
      have split : (front ++ token :: rest).take count =
          (front ++ [token]) ++ rest.take (count - (front.length + 1)) := by
        have behind : count - front.length = (count - (front.length + 1)) + 1 := by omega
        rw [List.take_append, List.take_of_length_le (by omega), behind, List.take_succ_cons]
        simp
      rw [split, List.map_append] at whole
      exact blocked token rest rfl whole.of_append

/-! ## What is rejected -/

theorem aligned_append {front other stop halt : List Token}
    (kinds : front.map Token.kind = other.map Token.kind) (inRange : InRange front)
    (otherInRange : InRange other)
    (heads : stop.head?.map Token.kind = halt.head?.map Token.kind) :
    Aligned stop halt (front ++ stop) (other ++ halt) := by
  induction front generalizing other with
  | nil =>
      obtain rfl := List.map_eq_nil_iff.mp kinds.symm
      exact .here heads
  | cons token front induction =>
      obtain ⟨second, others, rfl, kind, rest⟩ := List.map_eq_cons_iff.mp kinds.symm
      rw [inRange_cons] at inRange otherInRange
      refine .next ⟨kind.symm, ?_⟩ (induction rest.symm inRange.2 otherInRange.2)
      rw [inRange.1, otherInRange.1]

theorem inRange_of_derives (derivation : Derives .program tokens value) : InRange tokens := by
  have complete := Nested.complete_upTo tokens.length
  have run := completes_program complete [] derivation (Nat.le_succ _) (ends_nil _)
  rw [List.append_nil] at run
  obtain ⟨used, split, inRange, _⟩ := (reads_program (Nested.sound_upTo _)).accepted run
  rw [List.append_nil] at split
  rwa [split]

theorem Program.not_derives_of_unexpected {used stop front halt : List Token}
    (failure : Program.ofTokens (used ++ stop) = .error (.unexpected stop))
    (inRange : InRange used) (kinds : used.map Token.kind = front.map Token.kind)
    (heads : stop.head?.map Token.kind = halt.head?.map Token.kind) :
    ¬Derives .program (front ++ halt) value := by
  intro derivation
  have frontInRange := (inRange_append.mp (inRange_of_derives derivation)).1
  have aligned := aligned_append kinds inRange frontInRange heads
  have agree := agree_program aligned
  have completes := completes_program (Nested.complete_upTo (front ++ halt).length)
  have run := completes [] derivation (Nat.le_succ _) (ends_nil _)
  rw [List.append_nil] at run
  rw [run] at agree
  unfold Program.ofTokens at failure
  generalize program (Nested.upTo (used ++ stop).length) (used ++ stop) = outcome at agree failure
  cases agree with
  | beyond passed =>
      have left : remaining outcome = stop := by
        split at failure
        · cases failure
        · cases failure
          rfl
        · cases failure
          rfl
      rw [left] at passed
      exact Nat.lt_irrefl _ passed
  | accepted onward =>
      rcases onward.cases with ⟨rfl, _⟩ | ⟨_, _, _, _, _, impossible, _⟩
      · cases failure
      · cases impossible

theorem Program.not_viable_of_unexpected {used rest : List Token} {token : Token}
    (failure : Program.ofTokens (used ++ token :: rest) = .error (.unexpected (token :: rest)))
    (inRange : InRange used) : ¬Viable ((used ++ [token]).map Token.kind) := by
  intro viable
  obtain ⟨more, tokens, value, kinds, derivation⟩ := viable
  rw [List.map_append, List.append_assoc] at kinds
  obtain ⟨front, back, rfl, frontKinds, kinds⟩ := List.map_eq_append_iff.mp kinds
  obtain ⟨other, others, rfl, kind, _⟩ := List.map_eq_cons_iff.mp kinds
  refine Program.not_derives_of_unexpected failure inRange frontKinds.symm ?_ derivation
  simp [kind]

theorem Program.not_sentence_of_unexpected {used : List Token}
    (failure : Program.ofTokens used = .error (.unexpected [])) (inRange : InRange used) :
    ¬Sentence (used.map Token.kind) := by
  intro sentence
  obtain ⟨tokens, value, kinds, derivation⟩ := sentence
  rw [← List.append_nil used] at failure
  rw [← List.append_nil tokens] at derivation
  exact Program.not_derives_of_unexpected failure inRange kinds.symm rfl derivation

theorem not_viable_behind_integer {front : List Token} {literal token : Token}
    (number : literal.kind = .integer) (other : followsInteger token.kind = false) :
    ¬Viable ((front ++ [literal] ++ [token]).map Token.kind) := by
  intro viable
  obtain ⟨more, sentence⟩ := viable
  have split : (front ++ [literal] ++ [token]).map Token.kind ++ more =
      front.map Token.kind ++ .integer :: token.kind :: more := by
    simp [number]
  rw [split] at sentence
  rw [followsInteger_of_sentence sentence] at other
  cases other

/-- The parser gets stuck where soundness says. -/
theorem Program.stuck_of_ofTokens (failure : Program.ofTokens tokens = .error rejection) :
    Stuck (Derives .program) tokens rejection := by
  have reads := reads_program (Nested.sound_upTo tokens.length)
  unfold Program.ofTokens at failure
  split at failure
  · cases failure
  case h_2 value token rest run =>
    cases failure
    obtain ⟨used, split, inRange, derivation⟩ := reads.accepted run
    rw [split]
    exact .unexpected used ⟨used, value, derivation, List.prefix_refl _⟩ inRange
  case h_3 found run =>
    cases failure
    exact reads.rejected run

/-! ## Verdicts -/

section

variable {tokens used rest : List Token} {count : Nat}

theorem not_heldBack_of_inRange (inRange : InRange (tokens.take count)) (literal : Token) :
    ¬HeldBack tokens count literal := by
  intro held
  obtain ⟨place, next, within, found, overflows, _⟩ := held
  have taken : (tokens.take count)[place]? = some literal := by
    rwa [List.getElem?_take_of_lt within]
  have fits := inRange literal (List.mem_of_getElem? taken)
  rw [fits] at overflows
  cases overflows

/-- Only at the first whole number out of range is there anything to hold back. -/
theorem HeldBack.next_follows {literal first : Token}
    (held : HeldBack (used ++ first :: rest) count literal) (inRange : InRange used)
    (overflows : first.overflows = true) :
    ∃ next others, rest = next :: others ∧ FollowsInteger next.kind := by
  obtain ⟨place, next, _, found, large, earlier, behind, follows⟩ := held
  have place_eq : place = used.length := by
    rcases Nat.lt_trichotomy place used.length with before | same | after
    · rw [List.getElem?_append_left before] at found
      have fits := inRange literal (List.mem_of_getElem? found)
      rw [fits] at large
      cases large
    · exact same
    · have fits := earlier used.length after first (by simp)
      rw [fits] at overflows
      cases overflows
  subst place_eq
  cases rest with
  | nil => simp at behind
  | cons second others =>
      have seen : (used ++ first :: second :: others)[used.length + 1]? = some second := by
        simp
      rw [seen] at behind
      obtain rfl := Option.some.inj behind
      exact ⟨second, others, rfl, follows⟩

theorem HeldBack.unique {first second : Token} (held : HeldBack tokens count first)
    (other : HeldBack tokens count second) : first = second := by
  obtain ⟨place, _, _, found, large, earlier, _⟩ := held
  obtain ⟨spot, _, _, seen, huge, before, _⟩ := other
  rcases Nat.lt_trichotomy place spot with less | rfl | more
  · have fits := before place less first found
    rw [fits] at large
    cases large
  · rw [found] at seen
    exact Option.some.inj seen
  · have fits := earlier spot more second seen
    rw [fits] at huge
    cases huge

end

theorem Verdict.unique (verdict : Verdict stream count outcome)
    (other : Verdict stream count result) : outcome = result := by
  cases verdict with
  | heldBack held =>
      cases other with
      | heldBack found => rw [held.unique found]
      | unexpected none | lexical none | incomplete none | accepted none =>
          exact absurd held (none _)
  | unexpected none found =>
      cases other with
      | heldBack held => exact absurd held (none _)
      | unexpected _ seen =>
          rw [found] at seen
          cases seen
          rfl
      | lexical _ whole | incomplete _ whole | accepted _ whole =>
          rw [whole] at found
          simp at found
  | lexical none whole faulty =>
      cases other with
      | heldBack held => exact absurd held (none _)
      | unexpected _ found =>
          rw [whole] at found
          simp at found
      | lexical _ _ seen => simp_all
      | incomplete _ _ sound => simp_all
      | accepted _ _ sound => simp_all
  | incomplete none whole sound not =>
      cases other with
      | heldBack held => exact absurd held (none _)
      | unexpected _ found =>
          rw [whole] at found
          simp at found
      | lexical _ _ seen => simp_all
      | incomplete => rfl
      | accepted _ _ _ sentence => exact absurd sentence not
  | accepted none whole sound sentence =>
      cases other with
      | heldBack held => exact absurd held (none _)
      | unexpected _ found =>
          rw [whole] at found
          simp at found
      | lexical _ _ seen => simp_all
      | incomplete _ _ _ not => exact absurd sentence not
      | accepted => rfl

/-- Without a fault of its own, the stream is judged by where its tokens stop. -/
theorem Verdict.of_unexpected {stream : TokenStream} {front rest : List Token}
    (none : ∀ literal, ¬HeldBack stream.tokens front.length literal)
    (split : stream.tokens = front ++ rest)
    (incomplete : rest = [] → ¬Sentence (stream.tokens.map Token.kind)) :
    Verdict stream front.length (.error (stream.faultOf (.unexpected rest))) := by
  cases rest with
  | cons token rest => exact .unexpected none (by simp [split])
  | nil =>
      have whole : front.length = stream.tokens.length := by simp [split]
      cases faulty : stream.fault with
      | some fault =>
          have reported : stream.faultOf (.unexpected []) = fault := by
            simp [TokenStream.faultOf, faulty]
          rw [reported]
          exact .lexical none whole faulty
      | none =>
          have reported : stream.faultOf (.unexpected []) =
              .syntactic Fault.endMark stream.lastLine := by
            simp [TokenStream.faultOf, faulty]
          rw [reported]
          exact .incomplete none whole faulty (incomplete rfl)

theorem Verdict.of_accepted {stream : TokenStream}
    (derivation : Derives .program stream.tokens value)
    (longest : LongestViable stream.tokens count) (program : Program) :
    Verdict stream count (Except.map (fun _ => ()) (match stream.fault with
      | some fault => .error fault
      | none => .ok program)) := by
  have sentence : Sentence (stream.tokens.map Token.kind) := ⟨_, _, rfl, derivation⟩
  have whole := longest.eq_length sentence
  have none := @not_heldBack_of_inRange stream.tokens count
    fun token member => inRange_of_derives derivation token (List.mem_of_mem_take member)
  cases faulty : stream.fault with
  | some fault => exact .lexical none whole faulty
  | none => exact .accepted none whole faulty sentence

/-- Where tokens are rejected of which so many begin a sentence: at a whole number out of
range if it is held back, and else at the token that goes on with no sentence. -/
inductive Rejected (tokens : List Token) (count : Nat) : Rejection → Prop where
  | heldBack (front : List Token) : tokens = front ++ literal :: next :: rest →
      InRange front → HeldBack tokens count literal →
      Rejected tokens count (.overflow literal (next :: rest))
  | unexpected (front : List Token) : tokens = front ++ rest → count = front.length →
      (∀ literal, ¬HeldBack tokens count literal) →
      (rest = [] → ¬Sentence (tokens.map Token.kind)) →
      Rejected tokens count (.unexpected rest)

theorem Program.rejected_of_ofTokens {tokens : List Token}
    (failure : Program.ofTokens tokens = .error rejection)
    (longest : LongestViable tokens count) : Rejected tokens count rejection := by
  cases Program.stuck_of_ofTokens failure with
  | @unexpected rest used begins inRange =>
      obtain rfl : count = used.length :=
        longest.eq rfl begins.viable fun token others stopped => by
          subst stopped
          exact Program.not_viable_of_unexpected failure inRange
      refine .unexpected used rfl rfl (not_heldBack_of_inRange ?_) fun ended => ?_
      · simpa using inRange
      · subst ended
        rw [List.append_nil] at failure ⊢
        exact Program.not_sentence_of_unexpected failure inRange
  | @behindOverflow literal rest used begins inRange overflows follows =>
      have number := Token.kind_of_overflows overflows
      have split : used ++ literal :: rest = (used ++ [literal]) ++ rest := by simp
      obtain rfl : count = (used ++ [literal]).length :=
        longest.eq split begins.viable fun token others stopped =>
          not_viable_behind_integer number (follows token (by simp [stopped]))
      refine .unexpected _ split rfl (fun other held => ?_) fun ended => ?_
      · obtain ⟨next, others, rfl, behind⟩ := held.next_follows inRange overflows
        have follower := followsInteger_iff.mp behind
        rw [follows next rfl] at follower
        cases follower
      · subst ended
        rw [List.map_append, List.map_singleton, number]
        exact not_sentence_of_integer _
  | @overflow literal next rest used begins inRange overflows follows =>
      have split : used ++ literal :: next :: rest = (used ++ [literal]) ++ next :: rest := by simp
      have within := longest.le split begins.viable
      rw [List.length_append, List.length_singleton] at within
      refine .heldBack used rfl inRange ⟨used.length, next, within, ?_, overflows, ?_, ?_, ?_⟩
      · simp
      · intro earlier before token found
        rw [List.getElem?_append_left before] at found
        exact inRange token (List.mem_of_getElem? found)
      · simp
      · exact followsInteger_iff.mpr follows

theorem TokenStream.verdict_parse (stream : TokenStream)
    (longest : LongestViable stream.tokens count) :
    Verdict stream count (stream.parse.map fun _ => ()) := by
  unfold TokenStream.parse
  cases outcome : Program.ofTokens stream.tokens with
  | ok program => exact .of_accepted (Program.derives_of_ofTokens outcome) longest program
  | error rejection =>
      cases Program.rejected_of_ofTokens outcome longest with
      | heldBack front split inRange held => exact .heldBack held
      | unexpected front split same none incomplete =>
          subst same
          exact .of_unexpected none split incomplete

/-- The fault that a source is refused with, or its acceptance, is the verdict of the
grammar; and the kinds behind whole numbers are known. -/
theorem ofSource_localised :
    (∀ source, ∃ count, LongestViable (TokenStream.ofSource source).tokens count ∧
      ∀ outcome, Verdict (TokenStream.ofSource source) count outcome ↔
        (Program.ofSource source).map (fun _ => ()) = outcome) ∧
    ∀ kind, FollowsInteger kind ↔
      kind ∈ [.symbol .times, .symbol .comma, .symbol .rightBracket, .keyword .scalar,
        .keyword .range, .keyword .sheet, .keyword .function, .keyword .subroutine,
        .keyword .printSheet, .keyword .printRange, .keyword .printScalar, .keyword .«if»,
        .keyword .«while», .keyword .«for», .keyword .«return», .ident, .rangeName,
        .sheetName, .funcName, .symbol .dollar] := by
  refine ⟨fun source => ?_, fun kind => ?_⟩
  · obtain ⟨count, longest⟩ := exists_longestViable (TokenStream.ofSource source).tokens
    have verdict := (TokenStream.ofSource source).verdict_parse longest
    refine ⟨count, longest, fun outcome => ⟨verdict.unique, fun same => ?_⟩⟩
    rw [← same]
    exact verdict
  · rw [followsInteger_iff]
    cases kind with
    | keyword word => cases word <;> decide
    | symbol mark => cases mark <;> decide
    | _ => decide

end SheetLang
