import SheetLang.Cursor
import SheetLang.Parser.Calls

/-!
# Cursors in step

What it means that both ways of keeping a place agree, that the notes on a way are in order,
and that a cursor is where a reader of lexemes is.
-/

namespace SheetLang

/-- The characters that are left are the source from the offset on, and the piece that is
read starts at or before the offset, between characters. -/
structure Cursor.InStep (source : String) (cursor : Cursor) : Prop where
  source_eq : cursor.source = source
  start_le : cursor.start ≤ cursor.offset
  offset_le : cursor.offset ≤ source.utf8ByteSize
  start_isValid : String.Pos.Raw.IsValid source ⟨cursor.start⟩
  offset_isValid : String.Pos.Raw.IsValid source ⟨cursor.offset⟩
  left : between? source cursor.offset source.utf8ByteSize = some (String.ofList cursor.left)

/-- A note is in order if the cursor is in step, the loop ended at its target, the cut is
between characters, or the piece has at least one character. -/
def Note.Sound (source : String) : Note → Prop
  | .point cursor => cursor.InStep source
  | .stop target reached => reached = target
  | .cut text place => String.Pos.Raw.IsValid text ⟨place⟩
  | .piece before after => ∃ passed, passed ≠ [] ∧ before.left = passed ++ after.left

/-- A cursor is where a reader is.  Behind a fault a reader has nothing left to read, although
the cursor may have characters left. -/
structure Cursor.Agrees (cursor : Cursor) (reader : Reader) : Prop where
  line : cursor.line = reader.line
  start : cursor.start = reader.start
  offset : cursor.failed = false → cursor.offset = reader.offset
  pending : reader.pending = if cursor.failed then [] else Lexeme.cut cursor.left

namespace Reader

/-- The items that come with an answer. -/
def Answer.items : Answer → List (Except Fault Token)
  | .item read => read.toList
  | .line _ => []
  | .tokens (.ok read) => read.map .ok
  | .tokens (.error fault) => [.error fault]

def answers : Reader → List Call → List Answer
  | _, [] => []
  | reader, call :: calls => (reader.answer call).1 :: (reader.answer call).2.answers calls

end Reader

end SheetLang
