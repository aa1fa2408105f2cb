import SheetLang.Proofs.Grammar.Inversions
import SheetLang.Proofs.Parser.Steps

/-!
# What parsers read

A parser reads a language of token lists with values if all that it accepts
belongs to the language, and all that it rejects is rejected no earlier than the
language forces: up to the place where it stops, the kinds of the tokens begin a
member of the language.  Whole numbers outside 64 bits stop it as well, and none
is passed over.

The rules follow a parser step by step.  After a step the language is what may
come behind the tokens already taken, so that no rule has to guess how a token
list is split.
-/

namespace SheetLang

open Grammar

/-- All whole numbers among the tokens fit into 64 bits. -/
def InRange (tokens : List Token) : Prop :=
  ∀ token ∈ tokens, token.overflows = false

@[simp] theorem inRange_nil : InRange [] := by
  simp [InRange]

@[simp] theorem inRange_cons {token : Token} {tokens : List Token} :
    InRange (token :: tokens) ↔ token.overflows = false ∧ InRange tokens := by
  simp [InRange]

@[simp] theorem inRange_append {front back : List Token} :
    InRange (front ++ back) ↔ InRange front ∧ InRange back := by
  simp [InRange, or_imp, forall_and]

@[simp] theorem overflows_eq_false_of_kind {kind : Token.Kind} (different : kind ≠ .integer)
    (text : String) (line : Nat) : (⟨kind, text, line⟩ : Token).overflows = false := by
  simp [Token.overflows, different]

/-- The kinds of the tokens begin a member of the language. -/
def Begins (language : List Token → α → Prop) (tokens : List Token) : Prop :=
  ∃ whole value, language whole value ∧
    tokens.map Token.kind <+: whole.map Token.kind

/-- Where a parser may stop that rejects a token list. -/
inductive Stuck (language : List Token → α → Prop) : List Token → Rejection → Prop where
  /-- At a token, or at the end, with all whole numbers before it in range. -/
  | unexpected (used : List Token) : Begins language used → InRange used →
      Stuck language (used ++ rest) (.unexpected rest)
  /-- Behind a whole number out of range, at what cannot follow a whole number. -/
  | behindOverflow (used : List Token) : Begins language (used ++ [literal]) → InRange used →
      literal.overflows = true →
      (∀ next ∈ rest.head?, Parser.followsInteger next.kind = false) →
      Stuck language (used ++ literal :: rest) (.unexpected rest)
  /-- At a whole number out of range. -/
  | overflow (used : List Token) : Begins language (used ++ [literal]) → InRange used →
      literal.overflows = true → Parser.followsInteger next.kind = true →
      Stuck language (used ++ literal :: next :: rest) (.overflow literal (next :: rest))

/-- The parser accepts members of the language only, and gets stuck where the
language forces it. -/
structure Reads (parser : Parser α) (language : List Token → α → Prop) : Prop where
  inhabited : ∃ tokens value, language tokens value
  accepted : ∀ {tokens rest value}, parser tokens = .ok (value, rest) →
    ∃ used, tokens = used ++ rest ∧ InRange used ∧ language used value
  rejected : ∀ {tokens rejection}, parser tokens = .error rejection →
    Stuck language tokens rejection

theorem Begins.nil {language : List Token → α → Prop}
    (inhabited : ∃ tokens value, language tokens value) : Begins language [] := by
  obtain ⟨whole, value, member⟩ := inhabited
  exact ⟨whole, value, member, List.nil_prefix⟩

theorem Stuck.after {language : List Token → α → Prop} {later : List Token → β → Prop}
    (front : List Token) (inRange : InRange front)
    (begins : ∀ used, Begins later used → Begins language (front ++ used))
    (stuck : Stuck later tokens rejection) : Stuck language (front ++ tokens) rejection := by
  cases stuck with
  | unexpected used viable before =>
      rw [← List.append_assoc]
      exact .unexpected _ (begins _ viable) (inRange_append.mpr ⟨inRange, before⟩)
  | behindOverflow used viable before overflows follows =>
      rw [← List.append_assoc]
      refine .behindOverflow _ ?_ (inRange_append.mpr ⟨inRange, before⟩) overflows follows
      simpa using begins _ viable
  | overflow used viable before overflows follows =>
      rw [← List.append_assoc]
      refine .overflow _ ?_ (inRange_append.mpr ⟨inRange, before⟩) overflows follows
      simpa using begins _ viable

theorem Stuck.mono {language larger : List Token → α → Prop}
    (subset : ∀ tokens value, language tokens value → larger tokens value)
    (stuck : Stuck language tokens rejection) : Stuck larger tokens rejection := by
  refine stuck.after [] inRange_nil ?_
  intro used begins
  obtain ⟨whole, value, member, prefixed⟩ := begins
  exact ⟨whole, value, subset _ _ member, prefixed⟩

theorem Begins.after {language : List Token → α → Prop} {front : List Token}
    (begins : Begins (fun tokens value => language (front ++ tokens) value) used) :
    Begins language (front ++ used) := by
  obtain ⟨whole, value, member, prefixed⟩ := begins
  refine ⟨front ++ whole, value, member, ?_⟩
  simpa using prefixed

namespace Reads

variable {language : List Token → α → Prop}

theorem mono {larger : List Token → α → Prop} (reads : Reads parser language)
    (subset : ∀ tokens value, language tokens value → larger tokens value) :
    Reads parser larger := by
  refine ⟨?_, fun success => ?_, fun failure => ?_⟩
  · obtain ⟨tokens, value, member⟩ := reads.inhabited
    exact ⟨tokens, value, subset _ _ member⟩
  · obtain ⟨used, split, inRange, member⟩ := reads.accepted success
    exact ⟨used, split, inRange, subset _ _ member⟩
  · exact (reads.rejected failure).mono subset

theorem pure {value : α} (member : language [] value) : Reads (Pure.pure value) language := by
  refine ⟨⟨[], value, member⟩, fun success => ?_, fun failure => ?_⟩
  · cases success
    exact ⟨[], rfl, inRange_nil, member⟩
  · cases failure

theorem reject (inhabited : ∃ tokens value, language tokens value) :
    Reads Parser.reject language := by
  refine ⟨inhabited, fun success => ?_, fun failure => ?_⟩
  · cases success
  · cases failure
    exact .unexpected [] (.nil inhabited) inRange_nil

/-- Whatever a first parser has taken, the next one reads what may come behind
it. -/
theorem bind {front : List Token → β → Prop} {parser : Parser β} {next : β → Parser α}
    (first : Reads parser front)
    (later : ∀ tokens value, front tokens value →
      Reads (next value) fun rest result => language (tokens ++ rest) result) :
    Reads (parser >>= next) language := by
  have extend : ∀ used, Begins front used → Begins language used := by
    intro used begins
    obtain ⟨whole, value, member, prefixed⟩ := begins
    obtain ⟨more, result, complete⟩ := (later _ _ member).inhabited
    refine ⟨whole ++ more, result, complete, ?_⟩
    rw [List.map_append]
    exact prefixed.trans (List.prefix_append _ _)
  refine ⟨?_, fun success => ?_, fun failure => ?_⟩
  · obtain ⟨tokens, value, member⟩ := first.inhabited
    obtain ⟨more, result, complete⟩ := (later _ _ member).inhabited
    exact ⟨tokens ++ more, result, complete⟩
  · obtain ⟨value, middle, firstSuccess, laterSuccess⟩ := Parser.bind_eq_ok.mp success
    obtain ⟨used, rfl, inRange, member⟩ := first.accepted firstSuccess
    obtain ⟨more, rfl, moreInRange, complete⟩ := (later _ _ member).accepted laterSuccess
    exact ⟨used ++ more, by simp, by simp [inRange, moreInRange], complete⟩
  · rcases Parser.bind_eq_error.mp failure with
      firstFailure | ⟨value, middle, firstSuccess, laterFailure⟩
    · exact (first.rejected firstFailure).after [] inRange_nil extend
    · obtain ⟨used, rfl, inRange, member⟩ := first.accepted firstSuccess
      exact ((later _ _ member).rejected laterFailure).after used inRange fun _ => Begins.after

theorem peek {next : Option Token.Kind → Parser α}
    (later : ∀ kind, Reads (next kind) language) : Reads (Parser.peek >>= next) language := by
  refine ⟨(later none).inhabited, fun success => ?_, fun failure => ?_⟩
  · obtain ⟨kind, middle, seen, laterSuccess⟩ := Parser.bind_eq_ok.mp success
    cases seen
    exact (later _).accepted laterSuccess
  · rcases Parser.bind_eq_error.mp failure with impossible | ⟨kind, middle, seen, laterFailure⟩
    · cases impossible
    · cases seen
      exact (later _).rejected laterFailure

theorem peekSecond {next : Option Token.Kind → Parser α}
    (later : ∀ kind, Reads (next kind) language) :
    Reads (Parser.peekSecond >>= next) language := by
  refine ⟨(later none).inhabited, fun success => ?_, fun failure => ?_⟩
  · obtain ⟨kind, middle, seen, laterSuccess⟩ := Parser.bind_eq_ok.mp success
    cases seen
    exact (later _).accepted laterSuccess
  · rcases Parser.bind_eq_error.mp failure with impossible | ⟨kind, middle, seen, laterFailure⟩
    · cases impossible
    · cases seen
      exact (later _).rejected laterFailure

theorem token (kind : Token.Kind) (different : kind ≠ .integer) :
    Reads (Parser.text kind) fun tokens text => ∃ line, tokens = [⟨kind, text, line⟩] := by
  have inhabited : ∃ tokens text, ∃ line : Nat, tokens = [(⟨kind, text, line⟩ : Token)] :=
    ⟨_, "", 0, rfl⟩
  refine ⟨inhabited, fun success => ?_, fun failure => ?_⟩
  · obtain ⟨line, rfl⟩ := Parser.text_eq_ok.mp success
    exact ⟨[_], rfl, by simp [different], line, rfl⟩
  · cases Parser.text_eq_error failure
    exact .unexpected [] (.nil inhabited) inRange_nil

theorem text {kind : Token.Kind} {next : String → Parser α}
    (later : ∀ text line,
      Reads (next text) fun rest result => language (⟨kind, text, line⟩ :: rest) result)
    (different : kind ≠ .integer := by decide) :
    Reads (Parser.text kind >>= next) language := by
  refine (Reads.token kind different).bind ?_
  intro tokens text taken
  obtain ⟨line, rfl⟩ := taken
  exact later text line

theorem symbol {symbol : Symbol} {next : Unit → Parser α}
    (later : ∀ writing,
      Reads (next ()) fun rest result => language (mark symbol writing :: rest) result) :
    Reads (Parser.symbol symbol >>= next) language := by
  have taken : Reads (Parser.symbol symbol) fun tokens _ =>
      ∃ writing, tokens = [mark symbol writing] :=
    .text (fun text line => .pure ⟨(text, line), rfl⟩) (by simp)
  refine taken.bind ?_
  intro tokens nothing front
  obtain ⟨writing, rfl⟩ := front
  exact later writing

theorem keyword {keyword : Keyword} {next : Unit → Parser α}
    (later : ∀ writing,
      Reads (next ()) fun rest result => language (word keyword writing :: rest) result) :
    Reads (Parser.keyword keyword >>= next) language := by
  have taken : Reads (Parser.keyword keyword) fun tokens _ =>
      ∃ writing, tokens = [word keyword writing] :=
    .text (fun text line => .pure ⟨(text, line), rfl⟩) (by simp)
  refine taken.bind ?_
  intro tokens nothing front
  obtain ⟨writing, rfl⟩ := front
  exact later writing

theorem optionalSymbol {symbol : Symbol} {next : Bool → Parser α}
    (present : ∀ writing,
      Reads (next true) fun rest result => language (mark symbol writing :: rest) result)
    (absent : Reads (next false) language) :
    Reads (Parser.optionalSymbol symbol >>= next) language := by
  have taken : Reads (Parser.optionalSymbol symbol) fun tokens found =>
      (∃ writing, tokens = [mark symbol writing] ∧ found = true) ∨
        tokens = [] ∧ found = false := by
    unfold Parser.optionalSymbol
    refine .peek fun kind => ?_
    split
    · exact .symbol fun writing => .pure (.inl ⟨writing, rfl, rfl⟩)
    · exact .pure (.inr ⟨rfl, rfl⟩)
  refine taken.bind ?_
  intro tokens found front
  rcases front with ⟨writing, rfl, rfl⟩ | ⟨rfl, rfl⟩
  · exact present writing
  · exact absent

private theorem number :
    Reads Parser.integer fun tokens value => ∃ text line,
      tokens = [⟨.integer, text, line⟩] ∧ Literal.int64? text = some value := by
  have inhabited : ∃ tokens value, ∃ (text : String) (line : Nat),
      tokens = [(⟨.integer, text, line⟩ : Token)] ∧ Literal.int64? text = some value :=
    ⟨_, 0, "0", 0, rfl, by decide⟩
  refine ⟨inhabited, fun {tokens rest value} success => ?_, fun {tokens rejection} failure => ?_⟩
  · obtain ⟨text, line, rfl, fits⟩ := Parser.integer_eq_ok.mp success
    exact ⟨[⟨.integer, text, line⟩], rfl, by simp [Token.overflows, fits], text, line, rfl, fits⟩
  · rcases Parser.integer_eq_error failure with
      rfl | ⟨literal, rest, rfl, overflows, cases⟩
    · exact .unexpected [] (.nil inhabited) inRange_nil
    · have begins : Begins (fun tokens value => ∃ (text : String) (line : Nat),
          tokens = [(⟨.integer, text, line⟩ : Token)] ∧ Literal.int64? text = some value)
          [literal] := by
        refine ⟨[⟨.integer, "0", 0⟩], 0, ⟨"0", 0, rfl, by decide⟩, ?_⟩
        simp [Token.kind_of_overflows overflows]
      rcases cases with ⟨rfl, follows⟩ | ⟨next, others, rfl, rfl, follows⟩
      · exact .behindOverflow [] begins inRange_nil overflows follows
      · exact .overflow [] begins inRange_nil overflows follows

theorem integer {next : Int64 → Parser α}
    (later : ∀ text line value, Literal.int64? text = some value →
      Reads (next value) fun rest result => language (⟨.integer, text, line⟩ :: rest) result) :
    Reads (Parser.integer >>= next) language := by
  refine number.bind ?_
  intro tokens value front
  obtain ⟨text, line, rfl, fits⟩ := front
  exact later text line value fits

theorem many (A : Nonterminal) {starts : Token.Kind → Bool} {item : Parser A.Value}
    (reads : Reads item (Derives A)) : Reads (Parser.many starts item) (Derives (.many A)) := by
  have bounded : ∀ bound,
      Reads (Parser.manyAtMost starts item bound) (Derives (.many A)) := by
    intro bound
    induction bound with
    | zero => exact .pure .manyNil
    | succ bound induction =>
        refine .peek fun kind => ?_
        split
        · refine reads.bind fun _ _ first => ?_
          refine induction.bind fun _ _ others => ?_
          exact .pure (by simpa using Derives.manyCons first others)
        · exact .pure .manyNil
  exact ⟨(bounded 0).inhabited, (bounded _).accepted, (bounded _).rejected⟩

/-- Behind a first item, items are read with commas in front of them. -/
theorem commaSeparated (A : Nonterminal) {front : List Token → A.Value → Prop}
    {language : List Token → List A.Value → Prop} {first item : Parser A.Value}
    (head : Reads first front) (reads : Reads item (Derives A))
    (compose : ∀ {tokens rest value others}, front tokens value → MoreItems A rest others →
      language (tokens ++ rest) (value :: others)) :
    Reads (Parser.commaSeparated first item) language := by
  have bounded : ∀ bound, Reads (Parser.manyAtMost (· == .symbol .comma)
      (do Parser.symbol .comma; item) bound) (MoreItems A) := by
    intro bound
    induction bound with
    | zero => exact .pure .none
    | succ bound induction =>
        refine .peek fun kind => ?_
        split
        · simp only [bind_assoc]
          refine .symbol fun writing => ?_
          refine reads.bind fun _ _ first => ?_
          refine induction.bind fun _ _ others => ?_
          exact .pure (.some (by simpa using others.separated first))
        · exact .pure .none
  have tail : Reads (Parser.many (· == .symbol .comma) (do Parser.symbol .comma; item))
      (MoreItems A) :=
    ⟨(bounded 0).inhabited, (bounded _).accepted, (bounded _).rejected⟩
  refine head.bind fun _ _ first => ?_
  refine tail.bind fun _ _ others => ?_
  exact .pure (by simpa using compose first others)

theorem separated (A : Nonterminal) {item : Parser A.Value}
    (reads : Reads item (Derives A)) :
    Reads (Parser.commaSeparated item item) (Derives (.separated A)) :=
  .commaSeparated A reads reads fun first others => others.separated first

end Reads

end SheetLang
