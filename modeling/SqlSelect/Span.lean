/-
Places in a source text.

A `Span` is a range of byte offsets. A `Position` is what a reader counts:
a line, ended by line feeds only, and a column in characters. Both are
counted from one.
-/
import SqlSelect.Text.Bytes

namespace SqlSelect

/-- The bytes from `start` up to, but not including, `stop`. -/
structure Span where
  start : Nat
  stop : Nat
  deriving DecidableEq

namespace Span

/-- Whether both ends are the same offset. -/
def isEmpty (s : Span) : Bool := s.start == s.stop

/-- The number of bytes, for a span whose ends stand in order. -/
def length? (s : Span) : Option Nat :=
  if s.start ≤ s.stop then some (s.stop - s.start) else none

/-- The least span that covers both. -/
def merge (s t : Span) : Span := ⟨min s.start t.start, max s.stop t.stop⟩

end Span

/-- A line and a column, both counted from one. -/
structure Position where
  line : Nat
  column : Nat
  deriving DecidableEq

namespace Position

/-- The place after a character that stands at `p`. -/
def after (p : Position) (c : Char) : Position :=
  if c = '\n' then ⟨p.line + 1, 1⟩ else ⟨p.line, p.column + 1⟩

/-- The place reached from `p` by the characters that lie wholly within the
next `bytes` bytes. -/
def advance (p : Position) : Nat → List Char → Position
  | _, [] => p
  | bytes, c :: later =>
    if c.utf8Size ≤ bytes then (p.after c).advance (bytes - c.utf8Size) later else p

/-- The place of a byte offset in a text. An offset inside a character
stands for the start of it, one past the end for the end. -/
def ofOffset (source : List Char) (offset : Nat) : Position :=
  (Position.mk 1 1).advance offset source

end Position

end SqlSelect
