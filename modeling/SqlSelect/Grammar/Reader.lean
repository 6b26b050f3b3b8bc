/-
The cursor in the tokens of a text.

A `Reader` holds a text and the tokens that it divides into, and stands at one
of them. A token is marked by the span of its spelling, a stretch of tokens
takes up the least span that covers the first and the last mark, and a fault
is an `Error`, with its line and column counted out in the text.

The index is all that moves. To go back is to take an earlier index again;
the tokens stay, and so does what has been reported.
-/
import SqlSelect.Grammar.Select

namespace SqlSelect.Grammar

/-- The end of a text, as a token. -/
def Reader.ending (source : String) : Token :=
  let stop := Text.byteLength source.toList
  ⟨.eof, ⟨stop, stop⟩⟩

/-- A cursor in the tokens of a text. -/
structure Reader where
  source : String
  /-- The tokens of the text, or none if they have not been read yet. -/
  tokens : List Token
  /-- The index of the current token. -/
  position : Nat
  /-- What stands past the last token. -/
  eof : Token
  /-- Whether this is an attempt that may be taken back. -/
  speculating : Bool
  events : List (Event Span)

namespace Reader

/-- The token `ahead` tokens after the current one. -/
def tokenAt (r : Reader) (ahead : Nat) : Token := r.tokens.getD (r.position + ahead) r.eof

/-- The span of the token before the current one. Before the first token
there is none, and the end of the text stands for it. -/
def previousSpan (r : Reader) : Span :=
  match r.position with
  | 0 => r.eof.span
  | before + 1 => (r.tokens.getD before r.eof).span

/-- The reader one token further on, the end of the input apart. -/
def advance (r : Reader) : Reader :=
  if (r.tokenAt 0).kind = .eof then r else { r with position := r.position + 1 }

instance : Cursor Reader Span Span Error where
  kindAt r ahead := (r.tokenAt ahead).kind
  upcoming r := (r.tokens.drop r.position).map Token.kind
  left r := r.tokens.length - r.position
  index := position
  markAt r ahead := (r.tokenAt ahead).span
  previous := previousSpan
  between _ := Span.merge
  fault r cause span := Error.locate r.source.toList cause span
  step := advance
  back before r := { r with position := before.position }
  trial := speculating
  setTrial speculating r := { r with speculating }
  report event r := { r with events := r.events ++ [event] }

end Reader

end SqlSelect.Grammar
