import LuaLint.Text.Split

/-!
# Lines and positions of a source

A source is a sequence of bytes. Its lines are the pieces between line feeds, so a source that ends
with a line feed has an empty last line. A position is a line, counted from one, and a column, the
number of bytes since the start of the line.

Offsets may be any whole numbers. One past the end lies in the last line, with a column that goes on
counting; a negative one is counted from the end for the line, and keeps its sign for the column.
-/

namespace LuaLint

/-- A place in a source as people name it. -/
structure Position where
  line : Nat
  column : Int
deriving Repr, DecidableEq

namespace Source

/-- The byte that ends a line. -/
def lineFeed : UInt8 := 0x0A

/-- The lines, without the bytes that end them. -/
def lines (source : List UInt8) : List (List UInt8) := Text.split lineFeed source

/-- The bytes before an offset. -/
def before (source : List UInt8) (offset : Int) : List UInt8 :=
  source.take (if offset < 0 then source.length + offset else offset).toNat

/-- Where the last line of some bytes starts. -/
def lastLineStart (bytes : List UInt8) : Nat :=
  bytes.length - (bytes.reverse.takeWhile (· ≠ lineFeed)).length

/-- The position of an offset. -/
def position (source : List UInt8) (offset : Int) : Position :=
  { line := (before source offset).count lineFeed + 1
    column := offset - lastLineStart (before source offset) }

end Source

end LuaLint
