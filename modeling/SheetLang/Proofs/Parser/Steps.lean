import SheetLang.Grammar.Sentence
import SheetLang.Parser.Expression

/-!
# Single steps of parsers

When the basic parsers accept, what they leave, and where they reject.  A
sequence of two parsers accepts if both do, and rejects where the first of them
rejects.
-/

namespace SheetLang

open Grammar

@[simp] theorem mark_kind (symbol : Symbol) (writing : Writing) :
    (mark symbol writing).kind = .symbol symbol := rfl

@[simp] theorem word_kind (keyword : Keyword) (writing : Writing) :
    (word keyword writing).kind = .keyword keyword := rfl

theorem Token.kind_of_overflows {token : Token} (overflows : token.overflows = true) :
    token.kind = .integer := by
  simp only [Token.overflows, Bool.and_eq_true, beq_iff_eq] at overflows
  exact overflows.1

namespace Parser

theorem bind_eq_ok {parser : Parser α} {next : α → Parser β}
    {tokens rest : List Token} {value : β} :
    (parser >>= next) tokens = .ok (value, rest) ↔
      ∃ first middle, parser tokens = .ok (first, middle) ∧
        next first middle = .ok (value, rest) := by
  change (Except.bind (parser tokens) fun result => next result.1 result.2) = _ ↔ _
  cases parser tokens with
  | error rejection => simp [Except.bind]
  | ok result =>
      obtain ⟨first, middle⟩ := result
      constructor
      · intro success
        exact ⟨first, middle, rfl, success⟩
      · rintro ⟨_, _, equality, success⟩
        cases equality
        exact success

theorem bind_eq_error {parser : Parser α} {next : α → Parser β}
    {tokens : List Token} {rejection : Rejection} :
    (parser >>= next) tokens = .error rejection ↔
      parser tokens = .error rejection ∨
        ∃ first middle, parser tokens = .ok (first, middle) ∧
          next first middle = .error rejection := by
  change (Except.bind (parser tokens) fun result => next result.1 result.2) = _ ↔ _
  cases parser tokens with
  | error found => simp [Except.bind]
  | ok result =>
      obtain ⟨first, middle⟩ := result
      constructor
      · intro failure
        exact .inr ⟨first, middle, rfl, failure⟩
      · rintro (equality | ⟨_, _, equality, failure⟩)
        · cases equality
        · cases equality
          exact failure

theorem text_eq_ok {kind : Token.Kind} {tokens rest : List Token} {value : String} :
    text kind tokens = .ok (value, rest) ↔ ∃ line, tokens = ⟨kind, value, line⟩ :: rest := by
  cases tokens with
  | nil => simp [text]
  | cons token others =>
      obtain ⟨found, written, line⟩ := token
      by_cases same : found = kind
      · simp [text, same]
      · simp [text, same]

theorem text_eq_error {kind : Token.Kind} {tokens : List Token} {rejection : Rejection}
    (failure : text kind tokens = .error rejection) : rejection = .unexpected tokens := by
  cases tokens with
  | nil =>
      cases failure
      rfl
  | cons token others =>
      by_cases same : token.kind = kind
      · simp [text, same] at failure
      · simpa [text, same] using failure.symm

theorem integer_eq_ok {tokens rest : List Token} {value : Int64} :
    integer tokens = .ok (value, rest) ↔
      ∃ text line, tokens = ⟨.integer, text, line⟩ :: rest ∧
        Literal.int64? text = some value := by
  constructor
  · intro success
    simp only [integer] at success
    split at success
    · cases success
    case h_2 literal others taken =>
      obtain ⟨line, rfl⟩ := text_eq_ok.mp taken
      split at success
      case h_1 number fits =>
        cases success
        exact ⟨literal, line, rfl, fits⟩
      · split at success
        · split at success <;> cases success
        · cases success
  · rintro ⟨literal, line, rfl, fits⟩
    have taken : text .integer (⟨.integer, literal, line⟩ :: rest) = .ok (literal, rest) :=
      text_eq_ok.mpr ⟨line, rfl⟩
    simp only [integer, taken, fits]

/-- A whole number out of range is held back until the next token is seen. -/
theorem integer_eq_error {tokens : List Token} {rejection : Rejection}
    (failure : integer tokens = .error rejection) :
    rejection = .unexpected tokens ∨
      ∃ literal rest, tokens = literal :: rest ∧ literal.overflows = true ∧
        (rejection = .unexpected rest ∧
            (∀ next ∈ rest.head?, followsInteger next.kind = false) ∨
          ∃ next others, rest = next :: others ∧ rejection = .overflow literal rest ∧
            followsInteger next.kind = true) := by
  simp only [integer] at failure
  split at failure
  case h_1 found taken =>
    cases failure
    exact .inl (text_eq_error taken)
  case h_2 literal rest taken =>
    obtain ⟨line, rfl⟩ := text_eq_ok.mp taken
    split at failure
    · cases failure
    case h_2 large =>
      refine .inr ⟨⟨.integer, literal, line⟩, rest, rfl, by simp [Token.overflows, large], ?_⟩
      cases rest with
      | nil =>
          cases failure
          exact .inl ⟨rfl, by simp⟩
      | cons next others =>
          simp only at failure
          by_cases follows : followsInteger next.kind = true
          · rw [if_pos follows] at failure
            cases failure
            exact .inr ⟨next, others, rfl, rfl, follows⟩
          · rw [if_neg follows] at failure
            cases failure
            exact .inl ⟨rfl, by simpa using follows⟩

/-- What becomes of a whole number depends on its size, and if it is out of range
on the kind of the next token. -/
theorem integer_cons {token : Token} {rest : List Token} (number : token.kind = .integer) :
    integer (token :: rest) =
      match Literal.int64? token.text with
      | some value => .ok (value, rest)
      | none =>
        if (rest.head?.map Token.kind).any followsInteger then .error (.overflow token rest)
        else .error (.unexpected rest) := by
  cases fits : Literal.int64? token.text with
  | some value => simp [integer, text, number, fits]
  | none =>
      cases rest with
      | nil => simp [integer, text, number, fits]
      | cons next others =>
          by_cases follows : followsInteger next.kind = true
          · simp [integer, text, number, fits, follows]
          · simp [integer, text, number, fits, follows]

theorem integer_cons_of_ne {token : Token} {rest : List Token} (other : token.kind ≠ .integer) :
    integer (token :: rest) = .error (.unexpected (token :: rest)) := by
  simp [integer, text, other]

/-! ## Running a sequence -/

section

variable {next : α → Parser β} {tokens rest : List Token}

theorem bind_run {parser : Parser α} {value : α}
    (success : parser tokens = .ok (value, rest)) :
    (parser >>= next) tokens = next value rest := by
  change (Except.bind (parser tokens) fun result => next result.1 result.2) = _
  rw [success]
  rfl

@[simp] theorem pure_run {value : β} : (pure value : Parser β) tokens = .ok (value, tokens) :=
  rfl

@[simp] theorem peek_run {next : Option Token.Kind → Parser β} :
    (peek >>= next) tokens = next (tokens.head?.map Token.kind) tokens :=
  bind_run rfl

@[simp] theorem peekSecond_run {next : Option Token.Kind → Parser β} :
    (peekSecond >>= next) tokens = next (tokens.tail.head?.map Token.kind) tokens :=
  bind_run rfl

@[simp] theorem text_run {kind : Token.Kind} {text : String} {line : Nat}
    {next : String → Parser β} :
    (Parser.text kind >>= next) (⟨kind, text, line⟩ :: rest) = next text rest :=
  bind_run (text_eq_ok.mpr ⟨line, rfl⟩)

@[simp] theorem symbol_run {symbol : Symbol} {writing : Writing} {next : Unit → Parser β} :
    (Parser.symbol symbol >>= next) (mark symbol writing :: rest) = next () rest := by
  apply bind_run
  unfold Parser.symbol
  exact text_run

@[simp] theorem keyword_run {keyword : Keyword} {writing : Writing} {next : Unit → Parser β} :
    (Parser.keyword keyword >>= next) (word keyword writing :: rest) = next () rest := by
  apply bind_run
  unfold Parser.keyword
  exact text_run

theorem integer_run {text : String} {line : Nat} {value : Int64} {next : Int64 → Parser β}
    (fits : Literal.int64? text = some value) :
    (integer >>= next) (⟨.integer, text, line⟩ :: rest) = next value rest :=
  bind_run (integer_eq_ok.mpr ⟨text, line, rfl, fits⟩)

@[simp] theorem optionalSymbol_run {symbol : Symbol} {writing : Writing} {next : Bool → Parser β} :
    (optionalSymbol symbol >>= next) (mark symbol writing :: rest) = next true rest := by
  apply bind_run
  unfold optionalSymbol
  rw [peek_run]
  simp only [List.head?_cons, Option.map_some, mark, ↓reduceIte]
  exact symbol_run

theorem optionalSymbol_run_absent {symbol : Symbol} {next : Bool → Parser β}
    (absent : tokens.head?.map Token.kind ≠ some (.symbol symbol)) :
    (optionalSymbol symbol >>= next) tokens = next false tokens := by
  apply bind_run
  unfold optionalSymbol
  rw [peek_run, if_neg absent]
  rfl

end

end Parser

end SheetLang
