/-
Statements as outlines, every part listed whether present or absent.
-/
import SqlSelect.Number.Layout
import SqlSelect.Outline
import SqlSelect.Statement.Basic
import SqlSelect.Text.Quoted

namespace SqlSelect

open Text (quoted)

/-- A text in quotes. -/
def Outline.string (s : String) : Outline := .leaf (quoted s)

/-- A text in quotes that may be absent. -/
def Outline.stringOption (s : Option String) : Outline := .option (s.map .string)

/-- The name of a binary operator. -/
def BinaryOp.label : BinaryOp → String
  | .eq => "Eq"
  | .notEq => "NotEq"
  | .lt => "Lt"
  | .ltEq => "LtEq"
  | .gt => "Gt"
  | .gtEq => "GtEq"
  | .and => "And"
  | .or => "Or"
  | .add => "Add"
  | .sub => "Sub"
  | .mul => "Mul"
  | .div => "Div"
  | .mod => "Mod"
  | .pow => "Pow"
  | .concat => "Concat"
  | .like => "Like"
  | .notLike => "NotLike"
  | .ilike => "Ilike"
  | .notIlike => "NotIlike"
  | .isIn => "In"
  | .notIn => "NotIn"

/-- The name of a unary operator. -/
def UnaryOp.label : UnaryOp → String
  | .neg => "Neg"
  | .plus => "Plus"
  | .not => "Not"
  | .isNull => "IsNull"
  | .isNotNull => "IsNotNull"
  | .isTrue => "IsTrue"
  | .isNotTrue => "IsNotTrue"
  | .isFalse => "IsFalse"
  | .isNotFalse => "IsNotFalse"

/-- A type. -/
def DataType.outline (t : DataType) : Outline :=
  .record "DataType" [("name", .string t.name),
    ("config", .option (t.config.map fun config =>
      .list (config.map fun n => .leaf (toString n.toInt))))]

/-- What a call names. -/
def Callee.outline : Callee → Outline
  | .name function => .variant "Name" (.string function)
  | .keyword word =>
    .variant "Keyword" (.record "KeywordFunction" [("keyword", .string word)])

namespace Expr

mutual

/-- An expression. -/
def outline : Expr → Outline
  | .integer value => .record "Integer" [("value", .leaf (toString value.toInt))]
  | .numeric value => .record "Numeric" [("value", .leaf (value.text .outline))]
  | .string value => .record "String" [("value", .string value)]
  | .boolean value => .record "Boolean" [("value", .bool value)]
  | .null => .record "Null" []
  | .ref table name => .record "Ref" [("table", .stringOption table), ("name", .string name)]
  | .parameter name => .record "Parameter" [("name", .string name)]
  | .call function args =>
    .record "Call" [("function", function.outline), ("args", .list (listOutline args))]
  | .binary op left right =>
    .record "Binary" [("op", .leaf op.label), ("left", left.outline), ("right", right.outline)]
  | .unary op operand => .record "Unary" [("op", .leaf op.label), ("operand", operand.outline)]
  | .between negated value low high =>
    .record "Ternary" [("op", .leaf (if negated then "NotBetween" else "Between")),
      ("value", value.outline), ("lo", low.outline), ("hi", high.outline)]
  | .cast operand target =>
    .record "Cast" [("operand", operand.outline), ("to", target.outline)]
  | .case operand arms otherwise =>
    .record "Case" [("value", optionOutline operand), ("whens", .list (armsOutline arms)),
      ("else_value", optionOutline otherwise)]
  | .list items => .record "List" [("expressions", .list (listOutline items))]

/-- Expressions one by one. -/
def listOutline : List Expr → List Outline
  | [] => []
  | e :: later => e.outline :: listOutline later

/-- An expression that may be absent. -/
def optionOutline : Option Expr → Outline
  | none => .option none
  | some e => .option (some e.outline)

/-- The arms of a `CASE` one by one. -/
def armsOutline : List (Expr × Expr) → List Outline
  | [] => []
  | (condition, value) :: later =>
    .record "CaseWhen" [("when", condition.outline), ("value", value.outline)]
      :: armsOutline later

end

end Expr

/-- A select list entry. -/
def Column.outline (c : Column) : Outline :=
  .record "SelectedColumn" [("expr", c.expr.outline), ("alias", .stringOption c.aliasName)]

/-- The name of a join type. -/
def JoinType.label : JoinType → String
  | .inner => "Inner"
  | .left => "Left"
  | .right => "Right"
  | .full => "Full"

/-- A join. -/
def Join.outline (j : Join) : Outline :=
  .record "Join" [("join_type", .leaf j.type.label), ("on", j.on.outline)]

/-- The name of a direction. -/
def Direction.label : Direction → String
  | .ascending => "Asc"
  | .descending => "Desc"

/-- A sort key. -/
def SortKey.outline (k : SortKey) : Outline :=
  .record "OrderByClause" [("by", k.expr.outline), ("order", .leaf k.direction.label)]

/-- Row limits. -/
def Limit.outline (l : Limit) : Outline :=
  let rows (n : Option UInt64) : Outline := .option (n.map fun n => .leaf (toString n.toNat))
  .record "LimitClause" [("limit", rows l.count), ("offset", rows l.offset)]

mutual

/-- A statement. -/
def Select.outline : Select → Outline
  | ⟨distinct, columns, sources, filter, groups, having, order, limit⟩ =>
    .record "SelectStatement" [("distinct", .bool distinct),
      ("columns", .option (columns.map fun columns => .list (columns.map Column.outline))),
      ("from", sourceListOutline sources),
      ("where_clause", .option (filter.map Expr.outline)),
      ("group_by", .option (groups.map fun groups => .list (groups.map Expr.outline))),
      ("having", .option (having.map Expr.outline)),
      ("order_by", .option (order.map fun keys => .list (keys.map SortKey.outline))),
      ("limit", .option (limit.map Limit.outline))]

/-- A `FROM` entry. -/
def Source.outline : Source → Outline
  | .table name schema aliasName join =>
    .variant "Table" (.record "FromTable" [("name", .string name),
      ("schema", .stringOption schema), ("alias", .stringOption aliasName),
      ("join", .option (join.map Join.outline))])
  | .derived statement aliasName join =>
    .variant "Statement" (.record "FromStatement" [("statement", statement.outline),
      ("alias", .string aliasName), ("join", .option (join.map Join.outline))])

/-- A `FROM` list that may be absent. -/
def sourceListOutline : Option (List Source) → Outline
  | none => .option none
  | some entries => .option (some (.list (sourcesOutline entries)))

/-- The entries of a `FROM` list one by one. -/
def sourcesOutline : List Source → List Outline
  | [] => []
  | entry :: later => entry.outline :: sourcesOutline later

end

end SqlSelect
