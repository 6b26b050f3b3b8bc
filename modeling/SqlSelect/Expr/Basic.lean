/-
Expressions of a statement.

Parentheses leave no trace in an expression. A wildcard is a reference to
the name `*`, with or without a table. The right side of `IN` is a `list`.
-/
import SqlSelect.Expr.Operator
import SqlSelect.Number.Double

namespace SqlSelect

/-- The target of a cast: a type name, of one or more words, and its
modifiers. -/
structure DataType where
  name : String
  config : Option (List Int64)
  deriving DecidableEq

/-- The type as it is written, `numeric(10, 2)`. -/
def DataType.text (t : DataType) : String :=
  match t.config with
  | none => t.name
  | some config =>
    t.name ++ "(" ++ String.intercalate ", " (config.map fun n => toString n.toInt) ++ ")"

/-- What a call names: a function, or a keyword that is called like one. -/
inductive Callee where
  | name (function : String)
  | keyword (word : String)
  deriving DecidableEq

/-- The name that is called. -/
def Callee.text : Callee → String
  | .name function => function
  | .keyword word => word

/-- Expressions. -/
inductive Expr where
  | integer (value : Int64)
  | numeric (value : Double)
  | string (value : String)
  | boolean (value : Bool)
  | null
  | ref (table : Option String) (name : String)
  | parameter (name : String)
  | call (function : Callee) (args : List Expr)
  | binary (op : BinaryOp) (left right : Expr)
  | unary (op : UnaryOp) (operand : Expr)
  | between (negated : Bool) (value low high : Expr)
  | cast (operand : Expr) (target : DataType)
  | case (operand : Option Expr) (arms : List (Expr × Expr)) (otherwise : Option Expr)
  | list (items : List Expr)

namespace Expr

/-- The name that stands for every column. -/
def star : String := "*"

/-- Every column. -/
def wildcard : Expr := .ref none star

/-- Every column of one table. -/
def qualifiedWildcard (table : String) : Expr := .ref (some table) star

/-- Whether the expression stands for every column. -/
def isWildcard : Expr → Bool
  | .ref _ name => name == star
  | _ => false

/-- The operator of a range test, as it is written. -/
def betweenText (negated : Bool) : String := if negated then "NOT BETWEEN" else "BETWEEN"

-- ======================================================== sameness

mutual

/-- Whether two expressions are built alike. Numbers are compared as
numbers, so that the two zeros are the same. -/
def same : Expr → Expr → Bool
  | .integer a, .integer b => a == b
  | .numeric a, .numeric b => a.sameNumber b
  | .string a, .string b => a == b
  | .boolean a, .boolean b => a == b
  | .null, .null => true
  | .ref s a, .ref t b => s == t && a == b
  | .parameter a, .parameter b => a == b
  | .call f as, .call g bs => decide (f = g) && sameList as bs
  | .binary p a b, .binary q c d => decide (p = q) && a.same c && b.same d
  | .unary p a, .unary q b => decide (p = q) && a.same b
  | .between p a b c, .between q d e f => p == q && a.same d && b.same e && c.same f
  | .cast a s, .cast b t => a.same b && decide (s = t)
  | .case a as b, .case c bs d => sameOption a c && sameArms as bs && sameOption b d
  | .list as, .list bs => sameList as bs
  | _, _ => false

/-- Sameness item by item. -/
def sameList : List Expr → List Expr → Bool
  | [], [] => true
  | a :: as, b :: bs => a.same b && sameList as bs
  | _, _ => false

/-- Sameness where an expression may be absent. -/
def sameOption : Option Expr → Option Expr → Bool
  | none, none => true
  | some a, some b => a.same b
  | _, _ => false

/-- Sameness arm by arm. -/
def sameArms : List (Expr × Expr) → List (Expr × Expr) → Bool
  | [], [] => true
  | (a, b) :: as, (c, d) :: bs => a.same c && b.same d && sameArms as bs
  | _, _ => false

end

end Expr

end SqlSelect
