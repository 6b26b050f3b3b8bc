/-
The keywords of the language.

A keyword is matched without regard to the case of the letters A to Z.
Most keywords are reserved and cannot name anything; a few act only where
the grammar looks for them. The niladic functions of the standard are
keywords too, and are called like functions.
-/
namespace SqlSelect

/-- The keywords, each named by its spelling. -/
inductive Keyword where
  | SELECT | DISTINCT | ALL | FROM | WHERE | GROUP | BY | HAVING | ORDER | ASC | DESC | WINDOW
  | WITH | LIMIT | OFFSET | FETCH | FIRST | NEXT | ROW | ROWS | ONLY | JOIN | INNER | LEFT
  | RIGHT | FULL | OUTER | CROSS | NATURAL | ON | USING | UNION | INTERSECT | EXCEPT | AND | OR
  | NOT | IS | IN | LIKE | ILIKE | BETWEEN | NULL | TRUE | FALSE | AS | CASE | WHEN | THEN
  | ELSE | END | CAST | CURRENT_SCHEMA | CURRENT_CATALOG | CURRENT_DATE | CURRENT_TIME
  | CURRENT_TIMESTAMP | CURRENT_ROLE | CURRENT_USER | SESSION_USER | LOCALTIME | LOCALTIMESTAMP
  deriving DecidableEq

namespace Keyword

/-- Every keyword once. -/
def all : List Keyword :=
  [.SELECT, .DISTINCT, .ALL, .FROM, .WHERE, .GROUP, .BY, .HAVING, .ORDER, .ASC, .DESC,
    .WINDOW, .WITH, .LIMIT, .OFFSET, .FETCH, .FIRST, .NEXT, .ROW, .ROWS, .ONLY, .JOIN, .INNER,
    .LEFT, .RIGHT, .FULL, .OUTER, .CROSS, .NATURAL, .ON, .USING, .UNION, .INTERSECT, .EXCEPT,
    .AND, .OR, .NOT, .IS, .IN, .LIKE, .ILIKE, .BETWEEN, .NULL, .TRUE, .FALSE, .AS, .CASE,
    .WHEN, .THEN, .ELSE, .END, .CAST, .CURRENT_SCHEMA, .CURRENT_CATALOG, .CURRENT_DATE,
    .CURRENT_TIME, .CURRENT_TIMESTAMP, .CURRENT_ROLE, .CURRENT_USER, .SESSION_USER, .LOCALTIME,
    .LOCALTIMESTAMP]

/-- The upper-case spelling. -/
def spelling : Keyword → String
  | .SELECT => "SELECT"
  | .DISTINCT => "DISTINCT"
  | .ALL => "ALL"
  | .FROM => "FROM"
  | .WHERE => "WHERE"
  | .GROUP => "GROUP"
  | .BY => "BY"
  | .HAVING => "HAVING"
  | .ORDER => "ORDER"
  | .ASC => "ASC"
  | .DESC => "DESC"
  | .WINDOW => "WINDOW"
  | .WITH => "WITH"
  | .LIMIT => "LIMIT"
  | .OFFSET => "OFFSET"
  | .FETCH => "FETCH"
  | .FIRST => "FIRST"
  | .NEXT => "NEXT"
  | .ROW => "ROW"
  | .ROWS => "ROWS"
  | .ONLY => "ONLY"
  | .JOIN => "JOIN"
  | .INNER => "INNER"
  | .LEFT => "LEFT"
  | .RIGHT => "RIGHT"
  | .FULL => "FULL"
  | .OUTER => "OUTER"
  | .CROSS => "CROSS"
  | .NATURAL => "NATURAL"
  | .ON => "ON"
  | .USING => "USING"
  | .UNION => "UNION"
  | .INTERSECT => "INTERSECT"
  | .EXCEPT => "EXCEPT"
  | .AND => "AND"
  | .OR => "OR"
  | .NOT => "NOT"
  | .IS => "IS"
  | .IN => "IN"
  | .LIKE => "LIKE"
  | .ILIKE => "ILIKE"
  | .BETWEEN => "BETWEEN"
  | .NULL => "NULL"
  | .TRUE => "TRUE"
  | .FALSE => "FALSE"
  | .AS => "AS"
  | .CASE => "CASE"
  | .WHEN => "WHEN"
  | .THEN => "THEN"
  | .ELSE => "ELSE"
  | .END => "END"
  | .CAST => "CAST"
  | .CURRENT_SCHEMA => "CURRENT_SCHEMA"
  | .CURRENT_CATALOG => "CURRENT_CATALOG"
  | .CURRENT_DATE => "CURRENT_DATE"
  | .CURRENT_TIME => "CURRENT_TIME"
  | .CURRENT_TIMESTAMP => "CURRENT_TIMESTAMP"
  | .CURRENT_ROLE => "CURRENT_ROLE"
  | .CURRENT_USER => "CURRENT_USER"
  | .SESSION_USER => "SESSION_USER"
  | .LOCALTIME => "LOCALTIME"
  | .LOCALTIMESTAMP => "LOCALTIMESTAMP"

/-- The keyword that a word spells, whatever the case of its letters A
to Z. -/
def ofWord? (word : String) : Option Keyword :=
  let upper := String.ofList (word.toList.map Char.toUpper)
  all.find? fun keyword => keyword.spelling == upper

/-- The keywords that are called like a function. -/
def isFunction : Keyword → Bool
  | .CURRENT_SCHEMA | .CURRENT_CATALOG | .CURRENT_DATE | .CURRENT_TIME | .CURRENT_TIMESTAMP
  | .CURRENT_ROLE | .CURRENT_USER | .SESSION_USER | .LOCALTIME | .LOCALTIMESTAMP => true
  | _ => false

/-- The keywords that cannot be used as a name. -/
def isReserved : Keyword → Bool
  | .BY | .FIRST | .NEXT | .ROW | .ROWS | .ONLY => false
  | keyword => !keyword.isFunction

end Keyword

end SqlSelect
