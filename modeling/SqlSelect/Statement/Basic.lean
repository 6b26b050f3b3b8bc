/-
Statements: `SELECT` with its clauses.

A clause that is not written is absent, never an empty list. A join
belongs to the entry of the `FROM` list that it introduces.
-/
import SqlSelect.Expr.Basic

namespace SqlSelect

/-- An entry of the select list. -/
structure Column where
  expr : Expr
  aliasName : Option String

/-- How an entry of the `FROM` list joins those before it. -/
inductive JoinType where
  | inner | left | right | full
  deriving DecidableEq

/-- The join type as it is written. -/
def JoinType.text : JoinType → String
  | .inner => "INNER JOIN"
  | .left => "LEFT JOIN"
  | .right => "RIGHT JOIN"
  | .full => "FULL JOIN"

/-- A join type and its condition. -/
structure Join where
  type : JoinType
  on : Expr

/-- The direction of a sort. -/
inductive Direction where
  | ascending | descending
  deriving DecidableEq

/-- The direction as it is written. -/
def Direction.text : Direction → String
  | .ascending => "ASC"
  | .descending => "DESC"

/-- An entry of the `ORDER BY` list. -/
structure SortKey where
  expr : Expr
  direction : Direction

/-- How many rows to return and how many to pass over. -/
structure Limit where
  count : Option UInt64
  offset : Option UInt64
  deriving DecidableEq

mutual

/-- A `SELECT` statement. -/
structure Select where
  distinct : Bool
  columns : Option (List Column)
  sources : Option (List Source)
  filter : Option Expr
  groups : Option (List Expr)
  having : Option Expr
  order : Option (List SortKey)
  limit : Option Limit

/-- An entry of the `FROM` list: a table, or a statement in parentheses
under a name of its own. -/
inductive Source where
  | table (name : String) (schema aliasName : Option String) (join : Option Join)
  | derived (statement : Select) (aliasName : String) (join : Option Join)

end

namespace Source

/-- The table with the given name and nothing else said of it. -/
def plain (name : String) : Source := .table name none none none

/-- The name given to the entry. -/
def aliasName? : Source → Option String
  | .table _ _ aliasName _ => aliasName
  | .derived _ aliasName _ => some aliasName

/-- How the entry joins those before it. -/
def join? : Source → Option Join
  | .table _ _ _ join => join
  | .derived _ _ join => join

/-- The entry, introduced by the given join. -/
def withJoin (join : Join) : Source → Source
  | .table name schema aliasName _ => .table name schema aliasName (some join)
  | .derived statement aliasName _ => .derived statement aliasName (some join)

end Source

/-- A statement of any sort. `SELECT` is the only one. -/
inductive Statement where
  | select (statement : Select)

-- ======================================================== sameness

/-- Sameness of two lists, item by item. -/
def sameItems {α : Type} (same : α → α → Bool) : List α → List α → Bool
  | [], [] => true
  | a :: as, b :: bs => same a b && sameItems same as bs
  | _, _ => false

/-- Sameness of two values that may be absent. -/
def samePresence {α : Type} (same : α → α → Bool) : Option α → Option α → Bool
  | none, none => true
  | some a, some b => same a b
  | _, _ => false

/-- Sameness of select list entries. -/
def Column.same (a b : Column) : Bool := a.expr.same b.expr && a.aliasName == b.aliasName

/-- Sameness of joins. -/
def Join.same (a b : Join) : Bool := decide (a.type = b.type) && a.on.same b.on

/-- Sameness of sort keys. -/
def SortKey.same (a b : SortKey) : Bool :=
  a.expr.same b.expr && decide (a.direction = b.direction)

mutual

/-- Whether two statements are built alike, numbers compared as numbers. -/
def Select.same : Select → Select → Bool
  | ⟨distinct, columns, sources, filter, groups, having, order, limit⟩,
    ⟨distinct', columns', sources', filter', groups', having', order', limit'⟩ =>
    distinct == distinct'
      && samePresence (sameItems Column.same) columns columns'
      && sameSourceList sources sources'
      && samePresence Expr.same filter filter'
      && samePresence (sameItems Expr.same) groups groups'
      && samePresence Expr.same having having'
      && samePresence (sameItems SortKey.same) order order'
      && decide (limit = limit')

/-- Sameness of `FROM` entries. -/
def Source.same : Source → Source → Bool
  | .table name schema aliasName join, .table name' schema' aliasName' join' =>
    name == name' && schema == schema' && aliasName == aliasName'
      && samePresence Join.same join join'
  | .derived statement aliasName join, .derived statement' aliasName' join' =>
    statement.same statement' && aliasName == aliasName' && samePresence Join.same join join'
  | _, _ => false

/-- Sameness of `FROM` lists that may be absent. -/
def sameSourceList : Option (List Source) → Option (List Source) → Bool
  | none, none => true
  | some as, some bs => sameSources as bs
  | _, _ => false

/-- Sameness of `FROM` lists, entry by entry. -/
def sameSources : List Source → List Source → Bool
  | [], [] => true
  | a :: as, b :: bs => a.same b && sameSources as bs
  | _, _ => false

end

end SqlSelect
