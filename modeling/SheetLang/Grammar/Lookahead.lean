import SheetLang.Grammar.Verdict

/-!
# Lookahead

How many tokens of a stream have to be seen before its verdict is known, which token the
verdict is about, and the one verdict that more tokens can change.
-/

namespace SheetLang

/-- So many of the tokens are looked at: those up to the one behind a whole number that is
held back, or else those up to the first that goes on with no sentence, or else all. -/
inductive LookedAt (tokens : List Token) (count : Nat) : Nat → Prop where
  | heldBack : HeldBack tokens count literal →
      LookedAt tokens count (tokens.idxOf literal + 2)
  | unexpected : (∀ literal, ¬HeldBack tokens count literal) → count < tokens.length →
      LookedAt tokens count (count + 1)
  | all : (∀ literal, ¬HeldBack tokens count literal) → count = tokens.length →
      LookedAt tokens count tokens.length

namespace TokenStream

/-- The first token that goes on with no sentence, where no whole number is held back. -/
def Rejects (stream : TokenStream) (token : Token) : Prop :=
  ∃ count, LongestViable stream.tokens count ∧
    (∀ literal, ¬HeldBack stream.tokens count literal) ∧ stream.tokens[count]? = some token

/-- The whole number out of range that is held back. -/
def HoldsBack (stream : TokenStream) (literal : Token) : Prop :=
  ∃ count, LongestViable stream.tokens count ∧ HeldBack stream.tokens count literal

/-- Nothing is wrong with the stream but that it ends too early. -/
structure Incomplete (stream : TokenStream) : Prop where
  sound : stream.fault = none
  inRange : ∀ literal, ¬HeldBack stream.tokens stream.tokens.length literal
  viable : Viable (stream.tokens.map Token.kind)
  unfinished : ¬Sentence (stream.tokens.map Token.kind)

end TokenStream

end SheetLang
