/-
Blanks and comments, which separate tokens and are otherwise ignored.

A comment runs from two dashes to the end of the line, or from an opening
to the next closing mark; comments do not nest.
-/
import SqlSelect.Text.Ranges

namespace SqlSelect.Trivia

open Text (isBlank)

/-- What stands behind the trivia at the start of a text. -/
inductive Skipped where
  /-- A token, or nothing, behind so many characters. -/
  | token (count : Nat)
  /-- A comment that never closes, behind so many characters. -/
  | unclosed (count : Nat)
  deriving DecidableEq

mutual

/-- Skips blanks and comments, of which `count` characters are passed. -/
def skip (count : Nat) : List Char → Skipped
  | [] => .token count
  | '-' :: '-' :: later => skipLine (count + 2) later
  | '/' :: '*' :: later => skipBlock count (count + 2) later
  | c :: later => if isBlank c then skip (count + 1) later else .token count

/-- Skips the rest of a line comment and what follows it. -/
def skipLine (count : Nat) : List Char → Skipped
  | [] => .token count
  | c :: later => if c = '\n' then skip (count + 1) later else skipLine (count + 1) later

/-- Skips the rest of the block comment that opens behind `opening`
characters, and what follows it. -/
def skipBlock (opening count : Nat) : List Char → Skipped
  | [] => .unclosed opening
  | '*' :: '/' :: later => skip (count + 2) later
  | _ :: later => skipBlock opening (count + 1) later

end

end SqlSelect.Trivia
