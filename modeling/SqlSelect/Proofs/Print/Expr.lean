/-
Expressions written as tokens.

`Expr.kinds` writes every name in double quotes and every operator by its
marks. Where parentheses stand is a parameter: around an operand only if
the operator table demands them, or around every operand.

The table demands them by rank. A left operand has to rank at least as
high as its operator, a right operand and a bound of a range higher, the
operand of a prefix or postfix operator at least as high. A negative
number ranks with the prefix sign it is written with.
-/
import SqlSelect.Proofs.Mark
import SqlSelect.Proofs.Tree

namespace SqlSelect

-- ============================================================ ranks

/-- The rank of an expression that no operator is outermost in, above all
tiers. -/
def primaryRank : Nat := Tier.cast.rank + 1

namespace Expr

/-- The rank of the outermost operator. -/
def rank : Expr → Nat
  | .integer value => if value < 0 then Tier.sign.rank else primaryRank
  | .numeric value => if value.negative then Tier.sign.rank else primaryRank
  | .binary op _ _ => op.tier.rank
  | .unary op _ => op.tier.rank
  | .between .. => Tier.pattern.rank
  | .cast .. => Tier.cast.rank
  | _ => primaryRank

end Expr

-- ====================================================== parentheses

/-- Where parentheses are written. -/
inductive Parens where
  /-- Only where the operator table demands them. -/
  | needed
  /-- Around every operand. -/
  | everywhere
  deriving DecidableEq

/-- Whether parentheses are written around an operand that must have at
least the rank `floor`. -/
def Parens.around : Parens → Nat → Expr → Bool
  | .needed, floor, e => decide (e.rank < floor)
  | .everywhere, _, e => e.isOperand

/-- The tokens, in parentheses or not. -/
def wrapIf (wrapped : Bool) (kinds : List Kind) : List Kind :=
  if wrapped then inParens kinds else kinds

-- ====================================================== expressions

/-- The token of a column name, which for a wildcard is the bare star. -/
def columnKind (name : String) : Kind :=
  if name = Expr.star then .symbol .star else .quoted name

/-- The token that names what a call calls. -/
def Callee.kind : Callee → Kind
  | .name function => .quoted function
  | .keyword word => .word word

/-- The tokens of a type, its name in double quotes. -/
def DataType.kinds (t : DataType) : List Kind :=
  .quoted t.name :: match t.config with
    | none => []
    | some config => inParens (commas (config.map fun n => [.integer n]))

namespace Expr

mutual

/-- The tokens of an expression. -/
def kinds (parens : Parens) : Expr → List Kind
  | .integer value =>
    if value < 0 then [.symbol .minus, .integer (-value)] else [.integer value]
  | .numeric value =>
    if value.negative then [.symbol .minus, .numeric value.neg] else [.numeric value]
  | .string value => [.string value]
  | .boolean value => [if value then Keyword.TRUE.kind else Keyword.FALSE.kind]
  | .null => [Keyword.NULL.kind]
  | .ref none name => [columnKind name]
  | .ref (some table) name => [.quoted table, .symbol .dot, columnKind name]
  | .parameter name => [.parameter name]
  | .call function args => function.kind :: inParens (commas (kindsList parens args))
  | .binary op left right =>
    wrapIf (parens.around op.tier.rank left) (left.kinds parens) ++ Mark.kinds op.marks
      ++ wrapIf (parens.around (op.tier.rank + 1) right) (right.kinds parens)
  | .unary op operand =>
    let inner := wrapIf (parens.around op.tier.rank operand) (operand.kinds parens)
    if op.isPrefix then Mark.kinds op.marks ++ inner else inner ++ Mark.kinds op.marks
  | .between negated value low high =>
    let floor := Tier.pattern.rank
    wrapIf (parens.around floor value) (value.kinds parens) ++ Mark.kinds (betweenMarks negated)
      ++ wrapIf (parens.around (floor + 1) low) (low.kinds parens)
      ++ Keyword.AND.kind :: wrapIf (parens.around (floor + 1) high) (high.kinds parens)
  | .cast operand target =>
    wrapIf (parens.around Tier.cast.rank operand) (operand.kinds parens)
      ++ .symbol .doubleColon :: target.kinds
  | .case operand arms otherwise =>
    Keyword.CASE.kind :: (kindsOption parens operand ++ kindsArms parens arms
      ++ kindsElse parens otherwise ++ [Keyword.END.kind])
  | .list items => inParens (commas (kindsList parens items))

/-- The tokens of each expression of a list. -/
def kindsList (parens : Parens) : List Expr → List (List Kind)
  | [] => []
  | e :: later => wrapIf (parens.around 0 e) (e.kinds parens) :: kindsList parens later

/-- The tokens of an expression that may be absent. -/
def kindsOption (parens : Parens) : Option Expr → List Kind
  | none => []
  | some e => wrapIf (parens.around 0 e) (e.kinds parens)

/-- The tokens of the arms of a `CASE`. -/
def kindsArms (parens : Parens) : List (Expr × Expr) → List Kind
  | [] => []
  | (condition, value) :: later =>
    Keyword.WHEN.kind :: wrapIf (parens.around 0 condition) (condition.kinds parens)
      ++ Keyword.THEN.kind :: wrapIf (parens.around 0 value) (value.kinds parens)
      ++ kindsArms parens later

/-- The tokens of the last arm of a `CASE`, if it has one. -/
def kindsElse (parens : Parens) : Option Expr → List Kind
  | none => []
  | some e => Keyword.ELSE.kind :: wrapIf (parens.around 0 e) (e.kinds parens)

end

/-- The tokens of an expression as an operand that must have at least the
rank `floor`. -/
def operandKinds (parens : Parens) (floor : Nat) (e : Expr) : List Kind :=
  wrapIf (parens.around floor e) (e.kinds parens)

-- ========================================== the parts of expressions

theorem kindsList_eq (parens : Parens) (es : List Expr) :
    kindsList parens es = es.map (operandKinds parens 0) := by
  induction es with
  | nil => rfl
  | cons e es ih => rw [kindsList, ih]; rfl

theorem kindsOption_eq (parens : Parens) (o : Option Expr) :
    kindsOption parens o = o.elim [] (operandKinds parens 0) := by
  cases o <;> rfl

theorem kindsArms_eq (parens : Parens) (arms : List (Expr × Expr)) :
    kindsArms parens arms = arms.flatMap fun arm =>
      Keyword.WHEN.kind :: arm.1.operandKinds parens 0
        ++ Keyword.THEN.kind :: arm.2.operandKinds parens 0 := by
  induction arms with
  | nil => rfl
  | cons arm arms ih => rw [List.flatMap_cons, ← ih]; rfl

theorem kindsElse_eq (parens : Parens) (o : Option Expr) :
    kindsElse parens o = o.elim [] fun e => Keyword.ELSE.kind :: e.operandKinds parens 0 := by
  cases o <;> rfl

section Constructors

variable (parens : Parens)

theorem kinds_integer (value : Int64) : (Expr.integer value).kinds parens
    = if value < 0 then [.symbol .minus, .integer (-value)] else [.integer value] := rfl

theorem kinds_numeric (value : Double) : (Expr.numeric value).kinds parens
    = if value.negative then [.symbol .minus, .numeric value.neg] else [.numeric value] := rfl

theorem kinds_call (function : Callee) (args : List Expr) : (Expr.call function args).kinds parens
    = function.kind :: inParens (commas (args.map (operandKinds parens 0))) := by
  rw [← kindsList_eq]
  rfl

theorem kinds_binary (op : BinaryOp) (left right : Expr) : (Expr.binary op left right).kinds parens
    = left.operandKinds parens op.tier.rank
      ++ (Mark.kinds op.marks ++ right.operandKinds parens (op.tier.rank + 1)) :=
  List.append_assoc _ _ _

theorem kinds_prefix {op : UnaryOp} (before : op.isPrefix = true) (operand : Expr) :
    (Expr.unary op operand).kinds parens
      = Mark.kinds op.marks ++ operand.operandKinds parens op.tier.rank :=
  if_pos before

theorem kinds_postfix {op : UnaryOp} (behind : op.isPrefix = false) (operand : Expr) :
    (Expr.unary op operand).kinds parens
      = operand.operandKinds parens op.tier.rank ++ Mark.kinds op.marks :=
  if_neg (behind ▸ Bool.false_ne_true)

theorem kinds_between (negated : Bool) (value low high : Expr) :
    (Expr.between negated value low high).kinds parens
      = value.operandKinds parens Tier.pattern.rank ++ (Mark.kinds (betweenMarks negated)
        ++ (low.operandKinds parens (Tier.pattern.rank + 1)
          ++ Keyword.AND.kind :: high.operandKinds parens (Tier.pattern.rank + 1))) := by
  rw [← List.append_assoc, ← List.append_assoc]
  rfl

theorem kinds_cast (operand : Expr) (target : DataType) : (Expr.cast operand target).kinds parens
    = operand.operandKinds parens Tier.cast.rank ++ .symbol .doubleColon :: target.kinds := rfl

theorem kinds_case (operand otherwise : Option Expr) (arms : List (Expr × Expr)) :
    (Expr.case operand arms otherwise).kinds parens = Keyword.CASE.kind
      :: (operand.elim [] (operandKinds parens 0)
        ++ ((arms.flatMap fun arm => Keyword.WHEN.kind :: arm.1.operandKinds parens 0
            ++ Keyword.THEN.kind :: arm.2.operandKinds parens 0)
          ++ ((otherwise.elim [] fun e => Keyword.ELSE.kind :: e.operandKinds parens 0)
            ++ [Keyword.END.kind]))) := by
  rw [← kindsOption_eq, ← kindsArms_eq, ← kindsElse_eq, ← List.append_assoc, ← List.append_assoc]
  rfl

theorem kinds_list (items : List Expr) : (Expr.list items).kinds parens
    = inParens (commas (items.map (operandKinds parens 0))) := by
  rw [← kindsList_eq]
  rfl

end Constructors

end Expr

end SqlSelect
