/-
Operators and how tightly they bind.

Every operator belongs to a `Tier`. Operators of one tier group to the
left; a tier of higher rank binds more tightly. The tiers, loosest first:
`OR`, `AND`, prefix `NOT`, `IS`, comparison, the `LIKE` family with `IN`
and `BETWEEN`, `||`, sum, product, power, prefix sign, cast.
-/
namespace SqlSelect

/-- Operators with two operands. -/
inductive BinaryOp where
  | eq | notEq | lt | ltEq | gt | gtEq
  | and | or
  | add | sub | mul | div | mod | pow
  | concat
  | like | notLike | ilike | notIlike
  | isIn | notIn
  deriving DecidableEq

/-- Operators with one operand: prefix signs, prefix `NOT` and the postfix
tests of `IS`. -/
inductive UnaryOp where
  | neg | plus | not
  | isNull | isNotNull | isTrue | isNotTrue | isFalse | isNotFalse
  deriving DecidableEq

/-- A level of the operator table. -/
inductive Tier where
  | disjunction | conjunction | negation | test | comparison | pattern
  | concatenation | sum | product | power | sign | cast
  deriving DecidableEq

/-- The place of a tier in the table, counted from the loosest. -/
def Tier.rank : Tier → Nat
  | .disjunction => 0
  | .conjunction => 1
  | .negation => 2
  | .test => 3
  | .comparison => 4
  | .pattern => 5
  | .concatenation => 6
  | .sum => 7
  | .product => 8
  | .power => 9
  | .sign => 10
  | .cast => 11

namespace BinaryOp

/-- Every binary operator once. -/
def all : List BinaryOp :=
  [.eq, .notEq, .lt, .ltEq, .gt, .gtEq, .and, .or, .add, .sub, .mul, .div, .mod, .pow, .concat,
    .like, .notLike, .ilike, .notIlike, .isIn, .notIn]

/-- The operator as it is written. -/
def text : BinaryOp → String
  | .eq => "="
  | .notEq => "!="
  | .lt => "<"
  | .ltEq => "<="
  | .gt => ">"
  | .gtEq => ">="
  | .and => "AND"
  | .or => "OR"
  | .add => "+"
  | .sub => "-"
  | .mul => "*"
  | .div => "/"
  | .mod => "%"
  | .pow => "^"
  | .concat => "||"
  | .like => "LIKE"
  | .notLike => "NOT LIKE"
  | .ilike => "ILIKE"
  | .notIlike => "NOT ILIKE"
  | .isIn => "IN"
  | .notIn => "NOT IN"

/-- The operator with the given text. -/
def ofText? (text : String) : Option BinaryOp := all.find? fun op => op.text == text

/-- The tier of a binary operator. -/
def tier : BinaryOp → Tier
  | .or => .disjunction
  | .and => .conjunction
  | .eq | .notEq | .lt | .ltEq | .gt | .gtEq => .comparison
  | .like | .notLike | .ilike | .notIlike | .isIn | .notIn => .pattern
  | .concat => .concatenation
  | .add | .sub => .sum
  | .mul | .div | .mod => .product
  | .pow => .power

end BinaryOp

namespace UnaryOp

/-- Every unary operator once. -/
def all : List UnaryOp :=
  [.neg, .plus, .not, .isNull, .isNotNull, .isTrue, .isNotTrue, .isFalse, .isNotFalse]

/-- The operator as it is written. -/
def text : UnaryOp → String
  | .neg => "-"
  | .plus => "+"
  | .not => "NOT"
  | .isNull => "IS NULL"
  | .isNotNull => "IS NOT NULL"
  | .isTrue => "IS TRUE"
  | .isNotTrue => "IS NOT TRUE"
  | .isFalse => "IS FALSE"
  | .isNotFalse => "IS NOT FALSE"

/-- The operator with the given text. -/
def ofText? (text : String) : Option UnaryOp := all.find? fun op => op.text == text

/-- The tier of a unary operator. -/
def tier : UnaryOp → Tier
  | .neg | .plus => .sign
  | .not => .negation
  | .isNull | .isNotNull | .isTrue | .isNotTrue | .isFalse | .isNotFalse => .test

end UnaryOp

end SqlSelect
