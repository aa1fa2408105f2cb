import SheetLang.Grammar.Sentence
import SheetLang.TokenStream

/-!
# Verdicts

What is to be said about a token stream, by the grammar alone: at which token its
first fault is found, whether it ends too early, or that it is a program.

Three faults compete: a token that goes on with no sentence, the lexical fault that
ends the stream, and a whole number out of range.  The last of these is found only
when the next token has been looked at, and counts only if that token can stand behind
a whole number.
-/

namespace SheetLang

/-- So many of the tokens begin a sentence, and no more of them do. -/
def LongestViable (tokens : List Token) (count : Nat) : Prop :=
  count ≤ tokens.length ∧ Viable ((tokens.take count).map Token.kind) ∧
    ∀ other ≤ tokens.length, Viable ((tokens.take other).map Token.kind) → other ≤ count

/-- The first of so many tokens that is a whole number out of range, where the token
behind it can stand behind a whole number. -/
def HeldBack (tokens : List Token) (count : Nat) (literal : Token) : Prop :=
  ∃ place next, place < count ∧ tokens[place]? = some literal ∧ literal.overflows = true ∧
    (∀ earlier < place, ∀ token, tokens[earlier]? = some token → token.overflows = false) ∧
    tokens[place + 1]? = some next ∧ FollowsInteger next.kind

/-- The verdict about a stream so many of whose tokens begin a sentence. -/
inductive Verdict (stream : TokenStream) (count : Nat) : Except Fault Unit → Prop where
  /-- A whole number is out of range. -/
  | heldBack : HeldBack stream.tokens count literal →
      Verdict stream count (.error (.syntactic literal.text literal.line))
  /-- A token goes on with no sentence. -/
  | unexpected : (∀ literal, ¬HeldBack stream.tokens count literal) →
      stream.tokens[count]? = some token →
      Verdict stream count (.error (.syntactic token.text token.line))
  /-- All tokens before the lexical fault begin a sentence. -/
  | lexical : (∀ literal, ¬HeldBack stream.tokens count literal) →
      count = stream.tokens.length → stream.fault = some fault →
      Verdict stream count (.error fault)
  | incomplete : (∀ literal, ¬HeldBack stream.tokens count literal) →
      count = stream.tokens.length → stream.fault = none →
      ¬Sentence (stream.tokens.map Token.kind) →
      Verdict stream count
        (.error (.syntactic "EOF" ((stream.tokens.getLast?.map Token.line).getD 1)))
  | accepted : (∀ literal, ¬HeldBack stream.tokens count literal) →
      count = stream.tokens.length → stream.fault = none →
      Sentence (stream.tokens.map Token.kind) →
      Verdict stream count (.ok ())

end SheetLang
