import SheetLang.Parser.Trace
import SheetLang.TokenStream.Partition

/-!
# Calls

A reader may be asked for one item, for all items that are left, and for its line, in any
order, and at last be given to the parser.
-/

namespace SheetLang

/-- A trace that keeps the tokens that it is told of. -/
def Trace.keep : Trace (List Token) where
  token tokens token := tokens ++ [token]
  reduced tokens _ := tokens

namespace Reader

/-- What a reader can be asked for. -/
inductive Call where
  | next
  | line
  | tokenize
  deriving DecidableEq

/-- What a reader answers. -/
inductive Answer where
  | item (item : Option (Except Fault Token))
  | line (line : Nat)
  | tokens (tokens : Except Fault (List Token))

/-- The answer to a call, and the reader after it. -/
def answer (reader : Reader) : Call → Answer × Reader
  | .next => (.item reader.next.1, reader.next.2)
  | .line => (.line reader.line, reader)
  | .tokenize => (.tokens reader.tokenize.1, reader.tokenize.2)

def after (reader : Reader) (calls : List Call) : Reader :=
  calls.foldl (fun reader call => (reader.answer call).2) reader

/-- The items that are left after some calls. -/
def left (items : List (Except Fault Token)) (calls : List Call) :
    List (Except Fault Token) :=
  if .tokenize ∈ calls then [] else items.drop (calls.count .next)

end Reader

end SheetLang
