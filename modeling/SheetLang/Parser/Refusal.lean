import SheetLang.Parser.Program

/-!
# Refusals

Where among its tokens a source is refused, apart from what is said about it there.
-/

namespace SheetLang

/-- The place of the token that is rejected, or the number of tokens if it is missing.  A
whole number stands right before the tokens that were not read. -/
def Rejection.place (tokens : List Token) : Rejection → Nat
  | .unexpected rest => tokens.length - rest.length
  | .overflow _ rest => tokens.length - rest.length - 1

/-- The place at which the parser rejects tokens. -/
def Program.refusedAt? (tokens : List Token) : Option Nat :=
  match Program.ofTokens tokens with
  | .ok _ => none
  | .error rejection => some (rejection.place tokens)

/-- What is reported about a place: the text and the line of the token there, or that the
tokens end too early, on the line of the last of them. -/
def Fault.atPlace (tokens : List Token) (place : Nat) : Fault :=
  match tokens[place]? with
  | some token => .syntactic token.text token.line
  | none => .syntactic Fault.endMark ((tokens.getLast?.map Token.line).getD 1)

end SheetLang
