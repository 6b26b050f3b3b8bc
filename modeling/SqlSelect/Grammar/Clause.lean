/-
The grammar of the clauses of a statement.

As with expressions, the productions that contain statements take the
parser of statements as an argument.
-/
import SqlSelect.Grammar.Expr

namespace SqlSelect.Grammar

/-- Whether a list is over: at the end of the input, of the statement or of
the parentheses around it, or at one of the given keywords. -/
def endsClause (keywords : List Keyword) (kind : Kind) : Bool :=
  match kind with
  | .eof | .symbol .semicolon | .symbol .rightParen => true
  | _ => kind.keyword?.any keywords.contains

-- ====================================================== select list

variable {σ μ π ε : Type} [Cursor σ μ π ε]

/-- The keywords that can follow a select list. -/
def afterColumns : List Keyword :=
  [.FROM, .WHERE, .GROUP, .HAVING, .ORDER, .LIMIT, .OFFSET, .FETCH]

/-- Reads an alias, if one stands here; `AS` demands one. -/
def optionalAlias : ParserOf σ ε (Option String) := do
  if ← consumeKeyword .AS then return some (← identifier)
  else if (← current).identifier?.isSome then return some (← identifier)
  else return none

/-- Reads an entry of the select list. A wildcard takes no alias. -/
def column : ParserOf σ ε Column := do
  let expr ← item expression
  if expr.isWildcard then return ⟨expr, none⟩
  else return ⟨expr, ← optionalAlias⟩

/-- Reads the select list, which may be left out. -/
def columns : ParserOf σ ε (Option (List Column)) := do
  if endsClause afterColumns (← current) then return none
  else return some (← commaSeparated column)

-- ============================================================= FROM

/-- The keywords that can stand before `JOIN`. -/
def isJoinModifier : Keyword → Bool
  | .INNER | .LEFT | .RIGHT | .FULL | .OUTER | .CROSS | .NATURAL => true
  | _ => false

/-- The words before `JOIN` at the start of a list of tokens. -/
def joinWords : List Kind → List Keyword
  | [] => []
  | kind :: later =>
    match kind.keyword? with
    | some keyword => if isJoinModifier keyword then keyword :: joinWords later else []
    | none => []

/-- The join type that the words before `JOIN` name. -/
def joinType? : List Keyword → Option JoinType
  | [] | [.INNER] => some .inner
  | [.LEFT] | [.LEFT, .OUTER] => some .left
  | [.RIGHT] | [.RIGHT, .OUTER] => some .right
  | [.FULL] | [.FULL, .OUTER] => some .full
  | _ => none

/-- Moves over the words before `JOIN`. -/
def joinModifiers : ParserOf σ ε (List Keyword) := do
  let words := joinWords (Cursor.upcoming (← get))
  skip words.length
  return words

/-- Reads a join type with its `JOIN`. -/
def joinType : ParserOf σ ε JoinType := do
  let start ← position
  let words ← joinModifiers
  expectKeyword .JOIN
  let stop ← previous
  match joinType? words with
  | some type => return type
  | none =>
    let text := String.intercalate " " ((words ++ [Keyword.JOIN]).map Keyword.spelling)
    reject (.illegalJoinType text) start stop

/-- Reads the name of a table, with or without a schema before it. -/
def tableName : ParserOf σ ε (Option String × String) := do
  let first ← identifier
  if ← consume .dot then return (some first, ← identifier)
  else return (none, first)

/-- Moves over an empty pair of parentheses, which says nothing. -/
def emptyParens : ParserOf σ ε Unit := do
  if (← peek 0) = .symbol .leftParen ∧ (← peek 1) = .symbol .rightParen then skip 2
  else return ()

/-- Reads a table and its alias. -/
def table : ParserOf σ ε Source := do
  let (schema, name) ← tableName
  emptyParens
  return .table name schema (← optionalAlias) none

section Productions

variable (select : ParserOf σ ε Select)

/-- Reads a statement in parentheses, which must have an alias. -/
def derivedTable : ParserOf σ ε Source := do
  let start ← expect .leftParen
  let statement ← select
  let stop ← expect .rightParen
  match ← optionalAlias with
  | some aliasName => return .derived statement aliasName none
  | none => reject .derivedTableWithoutAlias start stop

/-- Reads an entry of the `FROM` list, without its join. -/
def source : ParserOf σ ε Source := do
  if ← atSymbol .leftParen then derivedTable select else table

/-- Reads an entry that a join introduces. -/
def joinedSource : ParserOf σ ε Source := do
  let type ← joinType
  let entry ← source select
  expectKeyword .ON
  let on ← expression 0
  return entry.withJoin ⟨type, on⟩

/-- Whether a join starts with the token. -/
def startsJoin (kind : Kind) : Bool :=
  kind.keyword?.any fun keyword => keyword == .JOIN || isJoinModifier keyword

/-- Reads at most `count` further entries, each after a comma or a join. -/
def moreSources : Nat → ParserOf σ ε (List Source)
  | 0 => return []
  | count + 1 => do
    if ← consume .comma then
      let entry ← source select
      return entry :: (← moreSources count)
    else if startsJoin (← current) then
      let entry ← joinedSource select
      return entry :: (← moreSources count)
    else return []

/-- Reads the `FROM` list. -/
def sources : ParserOf σ ε (List Source) := do
  let head ← source select
  let tail ← moreSources select (← tokensLeft)
  return head :: tail

end Productions

-- ========================================================= GROUP BY

/-- The keywords that can follow a `GROUP BY` list. -/
def afterGroups : List Keyword := [.HAVING, .ORDER, .LIMIT, .OFFSET, .FETCH]

/-- Reads a list with its closing parenthesis, if with that the clause is
over. -/
def wrappedGroups : ParserOf σ ε (Option (List Expr)) := do
  match ← attempt (expressionList expression) with
  | none => return none
  | some groups =>
    if ← consume .rightParen then
      if endsClause afterGroups (← current) then return some groups
      else return none
    else return none

/-- Reads the `GROUP BY` list. One pair of parentheses around the whole list
is dropped; whether an opening parenthesis starts such a pair or the first
expression shows only at the other end. -/
def groups : ParserOf σ ε (List Expr) := do
  if ← atSymbol .leftParen then
    let start ← get
    advance
    match ← wrappedGroups with
    | some groups => return groups
    | none =>
      modify (Cursor.report (.reparsed (Cursor.index start)))
      rewind start
      expressionList expression
  else expressionList expression

-- ========================================================= ORDER BY

/-- Reads an entry of the `ORDER BY` list, which ascends unless it says
otherwise. -/
def sortKey : ParserOf σ ε SortKey := do
  let expr ← expression 0
  if ← consumeKeyword .DESC then return ⟨expr, .descending⟩
  else
    let _ ← consumeKeyword .ASC
    return ⟨expr, .ascending⟩

-- =========================================== LIMIT, OFFSET, FETCH

/-- Reads the number of rows, which must be whole and not negative. -/
def rowCount : ParserOf σ ε UInt64 := do
  let start ← position
  let negative ← consume .minus
  let here ← position
  match ← current with
  | .integer digits =>
    advance
    let value := if negative then -digits else digits
    if value < 0 then reject (.invalidRowCount (toString value.toInt)) start here
    else return value.toUInt64
  | .numeric value =>
    let sign := if negative then "-" else ""
    reject (.invalidRowCount (sign ++ value.text .plain)) start here
  | _ => unexpected "row count"

/-- Moves over `ROWS` or `ROW`, which say nothing. -/
def rowWord : ParserOf σ ε Unit := do
  if ← consumeKeyword .ROWS then return ()
  else
    let _ ← consumeKeyword .ROW
    return ()

/-- What has been said about the rows to return: a limit, which may be to
return all, and an offset. -/
structure RowLimits where
  count : Option (Option UInt64)
  offset : Option UInt64
  deriving DecidableEq

/-- The clause that the limits amount to; to return all rows from the first
is to say nothing. -/
def RowLimits.clause? (limits : RowLimits) : Option Limit :=
  let count := limits.count.join
  if count.isSome || limits.offset.isSome then some ⟨count, limits.offset⟩ else none

/-- Reads what follows `LIMIT`: a number of rows or `ALL`. -/
def limitCount : ParserOf σ ε (Option UInt64) := do
  if ← consumeKeyword .ALL then return none
  else return some (← rowCount)

/-- Reads the number of rows, which is one where it is left out. -/
def rowCountOrOne : ParserOf σ ε UInt64 := do
  let keyword := (← current).keyword?
  if keyword = some .ROW ∨ keyword = some .ROWS then return 1
  else rowCount

/-- Reads what follows `FETCH FIRST` or `FETCH NEXT`. -/
def fetched : ParserOf σ ε UInt64 := do
  let count ← rowCountOrOne
  rowWord
  let _ ← consumeKeyword .ONLY
  return count

/-- Reads what follows `FETCH`. -/
def fetchCount : ParserOf σ ε UInt64 := do
  if ← consumeKeyword .FIRST then fetched
  else if ← consumeKeyword .NEXT then fetched
  else unexpected "FIRST or NEXT"

/-- Reads one of the clauses, if one stands here. `LIMIT` and `FETCH` say
the same thing, and nothing may be said twice. -/
def rowLimit? (limits : RowLimits) : ParserOf σ ε (Option RowLimits) := do
  let here ← position
  match (← current).keyword? with
  | some .LIMIT =>
    if limits.count.isSome then reject .duplicateLimit here here
    else
      advance
      return some { limits with count := some (← limitCount) }
  | some .OFFSET =>
    if limits.offset.isSome then reject .duplicateOffset here here
    else
      advance
      let offset ← rowCount
      rowWord
      return some { limits with offset := some offset }
  | some .FETCH =>
    if limits.count.isSome then reject .duplicateLimit here here
    else
      advance
      return some { limits with count := some (some (← fetchCount)) }
  | _ => return none

/-- Reads at most `count` of the clauses, in any order. -/
def rowLimits : Nat → RowLimits → ParserOf σ ε RowLimits
  | 0, limits => return limits
  | count + 1, limits => do
    match ← rowLimit? limits with
    | some more => rowLimits count more
    | none => return limits

/-- Reads the clauses about the rows to return. -/
def limitClause : ParserOf σ ε (Option Limit) := do
  let limits ← rowLimits (← tokensLeft) ⟨none, none⟩
  return limits.clause?

end SqlSelect.Grammar
