/-
The grammar of statements.

A statement contains statements in its `FROM` list, each after an opening
parenthesis, so the number of tokens left bounds the depth. With no token
left the statement is missing.
-/
import SqlSelect.Grammar.Clause

namespace SqlSelect.Grammar

variable {σ μ π ε : Type} [Cursor σ μ π ε]

/-- Moves over `BY` and reads what follows. -/
def afterBy {α : Type} (body : ParserOf σ ε α) : ParserOf σ ε α := do
  expectKeyword .BY
  body

/-- Reads `DISTINCT`, or `ALL`, which says nothing. -/
def distinct : ParserOf σ ε Bool := do
  if ← consumeKeyword .DISTINCT then return true
  else
    let _ ← consumeKeyword .ALL
    return false

/-- Reads a statement, given how to read the statements inside it. -/
def selectOf (inner : ParserOf σ ε Select) : ParserOf σ ε Select := do
  expectKeyword .SELECT
  let distinct ← distinct
  let columns ← columns
  let sources ← clause .FROM (sources inner)
  let filter ← clause .WHERE (expression 0)
  let groups ← clause .GROUP (afterBy groups)
  let having ← clause .HAVING (expression 0)
  let order ← clause .ORDER (afterBy (commaSeparated sortKey))
  let limit ← limitClause
  return { distinct, columns, sources, filter, groups, having, order, limit }

/-- Reads a statement from at most `bound` tokens. -/
def selectWithin : Nat → ParserOf σ ε Select
  | 0 => unexpected Keyword.SELECT.spelling
  | bound + 1 => selectOf (selectWithin bound)

/-- Reads a whole input: one statement, which a semicolon may end, and
nothing after it. -/
def input : ParserOf σ ε Select := do
  let statement ← selectWithin (← tokensLeft)
  let _ ← consume .semicolon
  match ← current with
  | .eof => return statement
  | _ => failHere .trailing

end SqlSelect.Grammar
