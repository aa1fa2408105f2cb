import SheetLang.Parser.Program
import SheetLang.Program.Outline

/-!
# Traces

A parse asks a reader for one token after the other.  It ends with the first token that
cannot be gone on with, or with the fault or the end that the reader comes to.  A trace is
told of every token that was asked for and, once there is a program, of every node of it.
-/

namespace SheetLang

/-- What becomes of a state that is told of a parse. -/
structure Trace (State : Type) where
  token : State → Token → State
  reduced : State → Outline → State

/-- The state once it has been told of these tokens and, after a success, of the nodes of
the program, each of them after those below it. -/
def Trace.told {State : Type} (trace : Trace State) (state : State) (tokens : List Token) :
    Except Fault Program → State
  | .ok program => program.outline.postorder.foldl trace.reduced (tokens.foldl trace.token state)
  | .error _ => tokens.foldl trace.token state

/-- Why tokens are rejected whatever comes behind them.  Tokens that only end too early are
not rejected in this way. -/
def Program.refusal? (tokens : List Token) : Option Rejection :=
  match Program.ofTokens tokens with
  | .ok _ => none
  | .error (.unexpected []) => none
  | .error rejection => some rejection

namespace Reader

/-- Parses what a reader delivers behind tokens that it delivered before. -/
def parseBehind {State : Type} (trace : Trace State) (read : List Token) (state : State)
    (reader : Reader) : Except Fault Program × State :=
  match _item : reader.next with
  | (some (.ok token), after) =>
    let read := read ++ [token]
    let state := trace.token state token
    match Program.refusal? read with
    | some rejection => (.error (TokenStream.faultOf ⟨read, none⟩ rejection), state)
    | none => parseBehind trace read state after
  | (some (.error fault), _) => (.error fault, state)
  | (none, _) =>
    let parsed := TokenStream.parse ⟨read, none⟩
    (parsed, trace.told state [] parsed)
termination_by reader.pending.length
decreasing_by
  have delivered : reader.next.1 = some (.ok token) := by rw [_item]
  have left := length_pending_next delivered
  rwa [_item] at left

/-- Parses what a reader delivers, and tells a trace of it. -/
def parseTraced {State : Type} (reader : Reader) (trace : Trace State) (state : State) :
    Except Fault Program × State :=
  reader.parseBehind trace [] state

end Reader

end SheetLang
