/-
Which operator a token spells.

`NOT` before an operand is a prefix operator; between operands it belongs
to the operator that follows it, so two tokens have to be looked at.
-/
import SqlSelect.Expr.Operator
import SqlSelect.Token.Basic

namespace SqlSelect.Grammar

/-- The operator that a token spells in front of an operand. -/
def prefixOp? (kind : Kind) : Option UnaryOp :=
  match kind with
  | .symbol .minus => some .neg
  | .symbol .plus => some .plus
  | _ => if kind.keyword? = some .NOT then some .not else none

/-- The tier of the operator that a token starts behind its operand: a
cast, or a test with `IS`. -/
def postfixTier? (kind : Kind) : Option Tier :=
  match kind with
  | .symbol .doubleColon => some .cast
  | _ => if kind.keyword? = some .IS then some .test else none

/-- An operator between operands. -/
inductive Connective where
  | binary (op : BinaryOp)
  | isIn (negated : Bool)
  | between (negated : Bool)
  deriving DecidableEq

namespace Connective

/-- The number of tokens that spell the operator. -/
def width : Connective → Nat
  | .binary .notLike | .binary .notIlike | .isIn true | .between true => 2
  | _ => 1

/-- The tier of the operator. -/
def tier : Connective → Tier
  | .binary op => op.tier
  | .isIn _ | .between _ => .pattern

/-- The operator that a symbol spells. -/
def ofSymbol? : Symbol → Option Connective
  | .plus => some (.binary .add)
  | .minus => some (.binary .sub)
  | .star => some (.binary .mul)
  | .slash => some (.binary .div)
  | .percent => some (.binary .mod)
  | .caret => some (.binary .pow)
  | .eq => some (.binary .eq)
  | .notEq => some (.binary .notEq)
  | .lt => some (.binary .lt)
  | .ltEq => some (.binary .ltEq)
  | .gt => some (.binary .gt)
  | .gtEq => some (.binary .gtEq)
  | .concat => some (.binary .concat)
  | _ => none

/-- The operator that a keyword spells, given the keyword after it. -/
def ofKeyword? (keyword : Keyword) (next : Option Keyword) : Option Connective :=
  match keyword with
  | .AND => some (.binary .and)
  | .OR => some (.binary .or)
  | .LIKE => some (.binary .like)
  | .ILIKE => some (.binary .ilike)
  | .IN => some (.isIn false)
  | .BETWEEN => some (.between false)
  | .NOT =>
    match next with
    | some .LIKE => some (.binary .notLike)
    | some .ILIKE => some (.binary .notIlike)
    | some .IN => some (.isIn true)
    | some .BETWEEN => some (.between true)
    | _ => none
  | _ => none

/-- The operator that starts at a token, given the token after it. -/
def at? (kind next : Kind) : Option Connective :=
  match kind with
  | .symbol symbol => ofSymbol? symbol
  | _ => kind.keyword?.bind (ofKeyword? · next.keyword?)

end Connective

/-- Whether the current token goes on with the operand before it. -/
def continuesOperand (kind next : Kind) : Bool :=
  (postfixTier? kind).isSome || (Connective.at? kind next).isSome

end SqlSelect.Grammar
