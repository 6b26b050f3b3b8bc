/-
The outcome of reading one token.

A scanner looks at a text from the first character of a token on. It says
what it found and how many characters that takes up, so that the text of
a token is always the first so many characters, and the next token is
looked for behind them.
-/
import SqlSelect.Error

namespace SqlSelect

/-- A token, or why there is none, and the number of its characters. -/
structure Lexeme where
  found : Except LexicalFault Kind
  length : Nat

namespace Lexeme

/-- A token. -/
def ok (kind : Kind) (length : Nat) : Lexeme := ⟨.ok kind, length⟩

/-- A fault. -/
def fault (fault : LexicalFault) (length : Nat) : Lexeme := ⟨.error fault, length⟩

end Lexeme

end SqlSelect
