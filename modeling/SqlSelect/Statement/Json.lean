/-
Statements as JSON.

Every expression, `FROM` entry and statement is an object whose first
member is its type. What is absent is left out, so that null never occurs.
-/
import SqlSelect.Json
import SqlSelect.Statement.Basic

namespace SqlSelect

open Json (member?)

/-- A type with its modifiers. -/
def DataType.toJson (t : DataType) : Json :=
  .obj (("type", .str t.name)
    :: member? "config" (t.config.map fun config => .arr (config.map fun n => .int n.toInt)))

/-- A function is its name; a keyword is marked as one. -/
def Callee.toJson : Callee → Json
  | .name function => .str function
  | .keyword word => .obj [("type", .str "keyword"), ("keyword", .str word)]

namespace Expr

mutual

/-- An expression as an object. -/
def toJson : Expr → Json
  | .integer value => .obj [("type", .str "integer"), ("value", .int value.toInt)]
  | .numeric value => .obj [("type", .str "numeric"), ("value", .real value)]
  | .string value => .obj [("type", .str "string"), ("value", .str value)]
  | .boolean value => .obj [("type", .str "boolean"), ("value", .bool value)]
  | .null => .obj [("type", .str "null")]
  | .ref table name =>
    .obj (("type", .str "ref") :: member? "table" (table.map .str) ++ [("name", .str name)])
  | .parameter name => .obj [("type", .str "parameter"), ("name", .str name)]
  | .call function args =>
    .obj [("type", .str "call"), ("function", function.toJson), ("args", .arr (listToJson args))]
  | .binary op left right =>
    .obj [("type", .str "binary"), ("op", .str op.text), ("left", left.toJson),
      ("right", right.toJson)]
  | .unary op operand =>
    .obj [("type", .str "unary"), ("op", .str op.text), ("operand", operand.toJson)]
  | .between negated value low high =>
    .obj [("type", .str "ternary"), ("op", .str (betweenText negated)), ("value", value.toJson),
      ("lo", low.toJson), ("hi", high.toJson)]
  | .cast operand target =>
    .obj [("type", .str "cast"), ("operand", operand.toJson), ("to", target.toJson)]
  | .case operand arms otherwise =>
    .obj (("type", .str "case") :: member? "value" (optionToJson operand)
      ++ ("whens", .arr (armsToJson arms)) :: member? "else" (optionToJson otherwise))
  | .list items => .obj [("type", .str "list"), ("expressions", .arr (listToJson items))]

/-- Expressions one by one. -/
def listToJson : List Expr → List Json
  | [] => []
  | e :: later => e.toJson :: listToJson later

/-- An expression that may be absent. -/
def optionToJson : Option Expr → Option Json
  | none => none
  | some e => some e.toJson

/-- The arms of a `CASE` one by one. -/
def armsToJson : List (Expr × Expr) → List Json
  | [] => []
  | (condition, value) :: later =>
    .obj [("when", condition.toJson), ("value", value.toJson)] :: armsToJson later

end

end Expr

/-- A select list entry. -/
def Column.toJson (c : Column) : Json :=
  .obj (("expr", c.expr.toJson) :: member? "alias" (c.aliasName.map .str))

/-- A join. -/
def Join.toJson (j : Join) : Json :=
  .obj [("type", .str j.type.text), ("on", j.on.toJson)]

/-- A sort key. -/
def SortKey.toJson (k : SortKey) : Json :=
  .obj [("by", k.expr.toJson), ("order", .str k.direction.text)]

/-- Row limits. -/
def Limit.toJson (l : Limit) : Json :=
  .obj (member? "limit" (l.count.map fun n => .int n.toNat)
    ++ member? "offset" (l.offset.map fun n => .int n.toNat))

mutual

/-- A statement as an object. -/
def Select.toJson : Select → Json
  | ⟨distinct, columns, sources, filter, groups, having, order, limit⟩ =>
    .obj (("type", .str "select")
      :: member? "distinct" (if distinct then some (.bool true) else none)
      ++ member? "columns" (columns.map fun columns => .arr (columns.map Column.toJson))
      ++ member? "from" (sourceListToJson sources)
      ++ member? "where" (filter.map Expr.toJson)
      ++ member? "groupBy" (groups.map fun groups => .arr (groups.map Expr.toJson))
      ++ member? "having" (having.map Expr.toJson)
      ++ member? "orderBy" (order.map fun keys => .arr (keys.map SortKey.toJson))
      ++ member? "limit" (limit.map Limit.toJson))

/-- A `FROM` entry as an object. -/
def Source.toJson : Source → Json
  | .table name schema aliasName join =>
    .obj ([("type", .str "table"), ("name", .str name)]
      ++ member? "schema" (schema.map .str)
      ++ member? "alias" (aliasName.map .str)
      ++ member? "join" (join.map Join.toJson))
  | .derived statement aliasName join =>
    .obj ([("type", .str "statement"), ("statement", statement.toJson),
        ("alias", .str aliasName)]
      ++ member? "join" (join.map Join.toJson))

/-- A `FROM` list that may be absent. -/
def sourceListToJson : Option (List Source) → Option Json
  | none => none
  | some entries => some (.arr (sourcesToJson entries))

/-- The entries of a `FROM` list one by one. -/
def sourcesToJson : List Source → List Json
  | [] => []
  | entry :: later => entry.toJson :: sourcesToJson later

end

/-- A statement of any sort as an object. -/
def Statement.toJson : Statement → Json
  | .select statement => statement.toJson

end SqlSelect
