/-
Statements written as tokens.

Every operand is in parentheses, every name in double quotes, every alias
behind `AS`, and the clauses stand in their order. What says nothing is
not written: `ALL`, `INNER`, `OUTER`, `ASC` and the words around a number
of rows.
-/
import SqlSelect.Proofs.Print.Expr

namespace SqlSelect

/-- The tokens of an expression in parentheses, a wildcard apart. -/
def Expr.wrapped (e : Expr) : List Kind := e.operandKinds .everywhere 0

/-- The tokens of an alias. -/
def aliasKinds : Option String → List Kind
  | none => []
  | some name => [Keyword.AS.kind, .quoted name]

/-- The tokens of a clause that may be absent, behind its keywords. -/
def clauseKinds (keywords : List Keyword) : Option (List Kind) → List Kind
  | none => []
  | some body => keywords.map Keyword.kind ++ body

/-- The tokens of an entry of the select list. -/
def Column.kinds (c : Column) : List Kind := c.expr.wrapped ++ aliasKinds c.aliasName

/-- The keywords before `JOIN`. -/
def JoinType.modifiers : JoinType → List Keyword
  | .inner => []
  | .left => [.LEFT]
  | .right => [.RIGHT]
  | .full => [.FULL]

/-- The tokens of an entry of the `ORDER BY` list. -/
def SortKey.kinds (key : SortKey) : List Kind :=
  key.expr.wrapped ++ match key.direction with
    | .ascending => []
    | .descending => [Keyword.DESC.kind]

/-- The tokens of a number of rows. -/
def rowCountKinds (keyword : Keyword) : Option UInt64 → List Kind
  | none => []
  | some count => [keyword.kind, .integer count.toInt64]

/-- The tokens of the limits of a statement. -/
def Limit.kinds (limit : Limit) : List Kind :=
  rowCountKinds .LIMIT limit.count ++ rowCountKinds .OFFSET limit.offset

/-- The tokens of a table name, with its schema if it has one. -/
def tableNameKinds : Option String → String → List Kind
  | none, name => [.quoted name]
  | some schema, name => [.quoted schema, .symbol .dot, .quoted name]

/-- The tokens of an entry of the `FROM` list behind the first, given those
of the entry without its join. -/
def linkedKinds (entry : List Kind) : Option Join → List Kind
  | none => .symbol .comma :: entry
  | some join =>
    join.type.modifiers.map Keyword.kind
      ++ Keyword.JOIN.kind :: (entry ++ Keyword.ON.kind :: join.on.wrapped)

mutual

/-- The tokens of a statement. -/
def Select.kinds : Select → List Kind
  | ⟨distinct, columns, sources, filter, groups, having, order, limit⟩ =>
    Keyword.SELECT.kind
      :: ((if distinct then [Keyword.DISTINCT.kind] else [])
        ++ clauseKinds [] (columns.map fun cs => commas (cs.map Column.kinds))
        ++ sourceListKinds sources
        ++ clauseKinds [.WHERE] (filter.map Expr.wrapped)
        ++ clauseKinds [.GROUP, .BY] (groups.map fun es => commas (es.map Expr.wrapped))
        ++ clauseKinds [.HAVING] (having.map Expr.wrapped)
        ++ clauseKinds [.ORDER, .BY] (order.map fun ks => commas (ks.map SortKey.kinds))
        ++ (limit.map Limit.kinds).getD [])

/-- The tokens of an entry of the `FROM` list without its join. -/
def Source.kinds : Source → List Kind
  | .table name schema aliasName _ => tableNameKinds schema name ++ aliasKinds aliasName
  | .derived statement aliasName _ => inParens statement.kinds ++ aliasKinds (some aliasName)

/-- The tokens of the `FROM` clause, if there is one. -/
def sourceListKinds : Option (List Source) → List Kind
  | none => []
  | some entries => Keyword.FROM.kind :: firstSourceKinds entries

/-- The tokens of a `FROM` list, whose first entry has no join. -/
def firstSourceKinds : List Source → List Kind
  | [] => []
  | entry :: later => entry.kinds ++ moreSourceKinds later

/-- The tokens of the entries behind the first. -/
def moreSourceKinds : List Source → List Kind
  | [] => []
  | entry :: later => linkedKinds entry.kinds entry.join? ++ moreSourceKinds later

end

/-- An entry is written alike with a join and without. -/
theorem Source.kinds_withJoin (entry : Source) (join : Join) :
    (entry.withJoin join).kinds = entry.kinds := by
  cases entry <;> rw [Source.withJoin, Source.kinds, Source.kinds]

end SqlSelect
