import SheetLang.Fault
import SheetLang.Lexeme

/-!
# Token streams

A reader goes through the lexemes of a source and keeps the line it is on.  It
delivers one item at a time, or all the remaining ones as a token stream: the
tokens up to the end of the source or up to its lexical fault.  Nothing follows
a fault.
-/

namespace SheetLang

/-- Tokens in source order, and the fault that ends them, if one does. -/
structure TokenStream where
  tokens : List Token
  fault : Option Fault
  deriving DecidableEq

namespace TokenStream

/-- The stream of lexemes that begin on a line. -/
def ofLexemes (line : Nat) : List Lexeme → TokenStream
  | [] => ⟨[], none⟩
  | .gap text :: rest => ofLexemes (line + text.count '\n') rest
  | .token kind text :: rest =>
    let later := ofLexemes line rest
    ⟨⟨kind, String.ofList text, line⟩ :: later.tokens, later.fault⟩
  | .illegal character _ :: _ => ⟨[], some (.lexical character line)⟩

/-- The stream of a whole source. -/
def ofSource (source : String) : TokenStream :=
  ofLexemes 1 (Lexeme.cut source.toList)

/-- All tokens, unless there is a fault among the items. -/
def complete (stream : TokenStream) : Except Fault (List Token) :=
  match stream.fault with
  | some fault => .error fault
  | none => .ok stream.tokens

end TokenStream

/-- A place between two lexemes of a source. -/
structure Reader where
  /-- The lexemes that are still to be read. -/
  pending : List Lexeme
  /-- The line of the item read last. -/
  line : Nat
  /-- Where the lexeme read last starts, in bytes from the start of the source. -/
  start : Nat
  /-- Where the pending lexemes start, in bytes from the start of the source. -/
  offset : Nat
  deriving DecidableEq

namespace Reader

def ofSource (source : String) : Reader :=
  ⟨Lexeme.cut source.toList, 1, 0, 0⟩

def byteSize (text : List Char) : Nat :=
  text.foldr (fun character size => character.utf8Size + size) 0

/-- Reads lexemes up to and including the next token or the fault. -/
def nextFrom (line start offset : Nat) :
    List Lexeme → Option (Except Fault Token) × Reader
  | [] => (none, ⟨[], line, start, offset⟩)
  | lexeme :: rest =>
    let after := offset + byteSize lexeme.text
    match lexeme with
    | .gap text => nextFrom (line + text.count '\n') offset after rest
    | .token kind text =>
      (some (.ok ⟨kind, String.ofList text, line⟩), ⟨rest, line, offset, after⟩)
    | .illegal character _ =>
      (some (.error (.lexical character line)), ⟨[], line, offset, after⟩)

/-- The next item of the source: a token, or the fault that ends it; none where
there is nothing more to read. -/
def next (reader : Reader) : Option (Except Fault Token) × Reader :=
  nextFrom reader.line reader.start reader.offset reader.pending

/-- The items that are still to be read. -/
def stream (reader : Reader) : TokenStream :=
  TokenStream.ofLexemes reader.line reader.pending

private theorem ofLexemes_eq_nextFrom (line start offset : Nat) (pending : List Lexeme) :
    TokenStream.ofLexemes line pending =
      match nextFrom line start offset pending with
      | (none, _) => ⟨[], none⟩
      | (some (.ok token), after) => ⟨token :: after.stream.tokens, after.stream.fault⟩
      | (some (.error fault), _) => ⟨[], some fault⟩ := by
  induction pending generalizing line start offset with
  | nil => rfl
  | cons lexeme rest induction =>
    cases lexeme with
    | gap text => exact induction _ _ _
    | token kind text => rfl
    | illegal character tail => rfl

/-- The next item is the first of the stream, and the others follow. -/
theorem stream_eq_next (reader : Reader) :
    reader.stream =
      match reader.next with
      | (none, _) => ⟨[], none⟩
      | (some (.ok token), after) => ⟨token :: after.stream.tokens, after.stream.fault⟩
      | (some (.error fault), _) => ⟨[], some fault⟩ :=
  ofLexemes_eq_nextFrom _ _ _ _

private theorem pending_nextFrom (line start offset : Nat) (pending : List Lexeme)
    (ended : ∀ token, (nextFrom line start offset pending).1 ≠ some (.ok token)) :
    (nextFrom line start offset pending).2.pending = [] := by
  induction pending generalizing line start offset with
  | nil => rfl
  | cons lexeme rest induction =>
    cases lexeme with
    | gap text => exact induction _ _ _ ended
    | token kind text => exact absurd rfl (ended _)
    | illegal character tail => rfl

/-- Nothing is left to read after a fault and after the last token. -/
theorem pending_next (reader : Reader)
    (ended : ∀ token, reader.next.1 ≠ some (.ok token)) :
    reader.next.2.pending = [] :=
  pending_nextFrom _ _ _ _ ended

private theorem length_pending_nextFrom (line start offset : Nat) (pending : List Lexeme)
    (token : Token) (delivered : (nextFrom line start offset pending).1 = some (.ok token)) :
    (nextFrom line start offset pending).2.pending.length < pending.length := by
  induction pending generalizing line start offset with
  | nil => cases delivered
  | cons lexeme rest induction =>
    cases lexeme with
    | gap text => exact Nat.lt_succ_of_lt (induction _ _ _ delivered)
    | token kind text => exact Nat.lt_succ_self _
    | illegal character tail => cases delivered

/-- Less is left to read after a token. -/
theorem length_pending_next {reader : Reader} {token : Token}
    (delivered : reader.next.1 = some (.ok token)) :
    reader.next.2.pending.length < reader.pending.length :=
  length_pending_nextFrom _ _ _ _ token delivered

/-- Reads lexemes to the end. -/
def finishFrom (line start offset : Nat) : List Lexeme → Reader
  | [] => ⟨[], line, start, offset⟩
  | lexeme :: rest =>
    finishFrom (line + lexeme.lineBreaks) offset (offset + byteSize lexeme.text) rest

/-- Reads everything that is left. -/
def finish (reader : Reader) : Reader :=
  finishFrom reader.line reader.start reader.offset reader.pending

/-- The remaining tokens, or the fault among them. -/
def tokenize (reader : Reader) : Except Fault (List Token) × Reader :=
  (reader.stream.complete, reader.finish)

end Reader

end SheetLang
