/-
What a statement uses: its columns, its tables, and the types, functions
and operators in its expressions.

The expressions are those of the select list, of the joins, and of the
clauses after them, in that order; a derived table has a survey of its
own.
-/
import SqlSelect.Statement.Basic

namespace SqlSelect

namespace Expr

mutual

/-- The expression and all expressions in it, an expression before its
operands and those from left to right. -/
def nodes : Expr → List Expr
  | .call function args => .call function args :: nodesList args
  | .binary op left right => .binary op left right :: (left.nodes ++ right.nodes)
  | .unary op operand => .unary op operand :: operand.nodes
  | .between negated value low high =>
    .between negated value low high :: (value.nodes ++ low.nodes ++ high.nodes)
  | .cast operand target => .cast operand target :: operand.nodes
  | .case operand arms otherwise =>
    .case operand arms otherwise
      :: (nodesOption operand ++ nodesArms arms ++ nodesOption otherwise)
  | .list items => .list items :: nodesList items
  | leaf => [leaf]

/-- The expressions in a list of them. -/
def nodesList : List Expr → List Expr
  | [] => []
  | e :: later => e.nodes ++ nodesList later

/-- The expressions in one that may be absent. -/
def nodesOption : Option Expr → List Expr
  | none => []
  | some e => e.nodes

/-- The expressions in the arms of a `CASE`. -/
def nodesArms : List (Expr × Expr) → List Expr
  | [] => []
  | (condition, value) :: later => condition.nodes ++ value.nodes ++ nodesArms later

end

/-- The target of a cast. -/
def castTarget? : Expr → Option DataType
  | .cast _ target => some target
  | _ => none

/-- What a call names, and its number of arguments. -/
def called? : Expr → Option (Callee × Nat)
  | .call function args => some (function, args.length)
  | _ => none

/-- The operator of an operation on one or two operands. -/
def operator? : Expr → Option String
  | .binary op _ _ => some op.text
  | .unary op _ => some op.text
  | _ => none

end Expr

/-- The expressions that the clauses of a statement hold. -/
def Select.expressions (s : Select) : List Expr :=
  (s.columns.getD []).map Column.expr
    ++ (s.sources.getD []).filterMap (fun entry => entry.join?.map Join.on)
    ++ s.filter.toList ++ s.groups.getD [] ++ s.having.toList
    ++ (s.order.getD []).map SortKey.expr

mutual

/-- What a statement uses. -/
structure Survey where
  /-- For each column, whether it is a wildcard, and its alias. -/
  columns : List (Bool × Option String)
  sources : List SourceSurvey
  order : List Direction
  types : List DataType
  functions : List (Callee × Nat)
  operators : List String

/-- What is known of a `FROM` entry, with the survey of a derived table. -/
inductive SourceSurvey where
  | mk (aliasName : Option String) (join : Option JoinType) (inner : Option Survey)

end

mutual

/-- Surveys a statement. -/
def Select.survey : Select → Survey
  | ⟨distinct, columns, sources, filter, groups, having, order, limit⟩ =>
    let statement : Select := ⟨distinct, columns, sources, filter, groups, having, order, limit⟩
    let nodes := Expr.nodesList statement.expressions
    { columns := (columns.getD []).map fun c => (c.expr.isWildcard, c.aliasName)
      sources := surveySourceList sources
      order := (order.getD []).map SortKey.direction
      types := nodes.filterMap Expr.castTarget?
      functions := nodes.filterMap Expr.called?
      operators := nodes.filterMap Expr.operator? }

/-- Surveys a `FROM` entry. -/
def Source.survey : Source → SourceSurvey
  | .table _ _ aliasName join => .mk aliasName (join.map Join.type) none
  | .derived statement aliasName join =>
    .mk (some aliasName) (join.map Join.type) (some statement.survey)

/-- Surveys a `FROM` list that may be absent. -/
def surveySourceList : Option (List Source) → List SourceSurvey
  | none => []
  | some entries => surveySources entries

/-- Surveys the entries of a `FROM` list. -/
def surveySources : List Source → List SourceSurvey
  | [] => []
  | entry :: later => entry.survey :: surveySources later

end

end SqlSelect
