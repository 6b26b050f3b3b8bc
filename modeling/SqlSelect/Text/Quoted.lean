/-
Texts in double quotes with every character visible.

A character that has no form of its own, or that would be drawn onto the
one before it, is written as its code point.
-/
import SqlSelect.Text.Combining
import SqlSelect.Text.Unprintable

namespace SqlSelect.Text

/-- A character between the quotes. -/
def visibleChar (c : Char) : List Char :=
  match c with
  | '"' => ['\\', '"']
  | '\\' => ['\\', '\\']
  | '\n' => ['\\', 'n']
  | '\t' => ['\\', 't']
  | '\r' => ['\\', 'r']
  | '\x00' => ['\\', '0']
  | _ =>
    if isCombining c || isUnprintable c then
      ['\\', 'u', '\x7b'] ++ Nat.toDigits 16 c.toNat ++ ['\x7d']
    else [c]

/-- A text in double quotes. -/
def quoted (s : String) : String :=
  "\"" ++ String.ofList (s.toList.flatMap visibleChar) ++ "\""

end SqlSelect.Text
