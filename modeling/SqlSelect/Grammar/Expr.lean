/-
The grammar of expressions.

The productions take the parser of nested expressions as an argument,
`expr floor`, which reads an expression whose outermost operators have at
least the rank `floor`. `expressionWithin` ties the knot: every nested
expression comes after a token of its own, so the number of tokens left
bounds the depth, and with no token left the expression is missing.
-/
import SqlSelect.Grammar.DataType
import SqlSelect.Grammar.Operator

namespace SqlSelect.Grammar

variable {σ μ π ε : Type} [Cursor σ μ π ε]

-- ======================================================== wildcards

/-- The wildcard that three tokens start with, and its number of tokens. -/
def wildcardAt? (first second third : Kind) : Option (Expr × Nat) :=
  if first = .symbol .star then some (.wildcard, 1)
  else if second = .symbol .dot ∧ third = .symbol .star then
    first.identifier?.map fun table => (.qualifiedWildcard table, 3)
  else none

/-- Reads a wildcard, if one stands here. -/
def wildcard? : ParserOf σ ε (Option Expr) := do
  match wildcardAt? (← peek 0) (← peek 1) (← peek 2) with
  | some (wildcard, width) =>
    skip width
    return some wildcard
  | none => return none

/-- Fails if the current token is a star in double quotes, which would pass
for a wildcard. -/
def noQuotedStar : ParserOf σ ε Unit := do
  if (← current) = .quoted Expr.star then
    let here ← position
    reject .quotedWildcard here here
  else return ()

section Productions

variable (expr : Nat → ParserOf σ ε Expr)

-- ============================================================ lists

/-- Reads expressions with commas between them. -/
def expressionList : ParserOf σ ε (List Expr) := commaSeparated (expr 0)

/-- Reads an entry of a select list or an argument: a wildcard, which no
operator may follow, or an expression. -/
def item : ParserOf σ ε Expr := do
  let start ← position
  match ← wildcard? with
  | some wildcard =>
    if continuesOperand (← peek 0) (← peek 1) then
      reject .misplacedWildcard start (← position)
    else return wildcard
  | none => expr 0

/-- Reads the arguments of a call, which may have none. -/
def arguments : ParserOf σ ε (List Expr) := do
  if ← atSymbol .rightParen then return []
  else commaSeparated (item expr)

/-- Reads a call after the name of the function. -/
def call (function : Callee) : ParserOf σ ε Expr := do
  let _ ← expect .leftParen
  let args ← arguments expr
  let _ ← expect .rightParen
  return .call function args

/-- Reads the right side of `IN`. -/
def inList : ParserOf σ ε Expr := do
  let start ← expect .leftParen
  if ← atKeyword .SELECT then
    reject .subqueryNotAllowed start (← position)
  else
    let items ← expressionList expr
    let _ ← expect .rightParen
    return .list items

-- ========================================================= operands

/-- Reads an expression in parentheses, of which only the inside is kept. -/
def parenthesized : ParserOf σ ε Expr := do
  let start ← expect .leftParen
  if ← atKeyword .SELECT then
    reject .subqueryNotAllowed start (← position)
  else match ← wildcard? with
    | some _ =>
      if ← atSymbol .rightParen then
        reject .parenthesizedWildcard start (← position)
      else reject .misplacedWildcard start (← position)
    | none =>
      let inner ← expr 0
      let _ ← expect .rightParen
      return inner

/-- Reads the column after a table name and its dot. Any word can name
it. -/
def qualified (table : String) : ParserOf σ ε Expr := do
  noQuotedStar
  match (← current).anyName? with
  | some column =>
    advance
    return .ref (some table) column
  | none => unexpected "column name"

/-- Reads a column, a column of a table, or a call. -/
def reference : ParserOf σ ε Expr := do
  noQuotedStar
  let name ← identifier
  match ← current with
  | .symbol .leftParen => call expr (.name name)
  | .symbol .dot =>
    let dot ← position
    if (← peek 1) = .symbol .star then reject .misplacedWildcard dot (← positionAt 1)
    else
      advance
      qualified name
  | _ => return .ref none name

/-- Reads at most `count` arms of a `CASE`. -/
def caseArms : Nat → ParserOf σ ε (List (Expr × Expr))
  | 0 => return []
  | count + 1 => do
    if ← consumeKeyword .WHEN then
      let condition ← expr 0
      expectKeyword .THEN
      let value ← expr 0
      let later ← caseArms count
      return (condition, value) :: later
    else return []

/-- Reads what a `CASE` compares its arms with, if it does. -/
def caseOperand : ParserOf σ ε (Option Expr) := do
  if ← atKeyword .WHEN then return none
  else return some (← expr 0)

/-- Reads a `CASE` expression. -/
def case : ParserOf σ ε Expr := do
  expectKeyword .CASE
  let operand ← caseOperand expr
  let arms ← caseArms expr (← tokensLeft)
  if arms.isEmpty then unexpected "WHEN"
  else
    let otherwise ← clause .ELSE (expr 0)
    expectKeyword .END
    return .case operand arms otherwise

/-- Reads `CAST (expression AS type)`. -/
def cast : ParserOf σ ε Expr := do
  expectKeyword .CAST
  let _ ← expect .leftParen
  let operand ← expr 0
  expectKeyword .AS
  let target ← dataType
  let _ ← expect .rightParen
  return .cast operand target

/-- Yields an expression that the current token alone stands for. -/
def literal (value : Expr) : ParserOf σ ε Expr := do
  advance
  return value

/-- Reads an operand that starts with a bare word. -/
def wordOperand (word : String) : ParserOf σ ε Expr := do
  match Keyword.ofWord? word with
  | some .TRUE => literal (.boolean true)
  | some .FALSE => literal (.boolean false)
  | some .NULL => literal .null
  | some .CASE => case expr
  | some .CAST => cast expr
  | some keyword =>
    if keyword.isFunction ∧ (← peek 1) = .symbol .leftParen then
      advance
      call expr (.keyword word)
    else if keyword.isReserved then unexpected "expression"
    else reference expr
  | none => reference expr

/-- Reads an operand without operators. -/
def operand : ParserOf σ ε Expr := do
  match ← current with
  | .integer value => literal (.integer value)
  | .numeric value => literal (.numeric value)
  | .string value => literal (.string value)
  | .parameter name => literal (.parameter name)
  | .symbol .leftParen => parenthesized expr
  | .symbol .star =>
    let here ← position
    reject .misplacedWildcard here here
  | .quoted _ => reference expr
  | .word word => wordOperand expr word
  | _ => unexpected "expression"

-- ======================================================== operators

/-- Applies an operator that stands before its operand. A minus sign before
a number becomes part of it, save for the least whole number, which has no
opposite. -/
def applyPrefix : UnaryOp → Expr → Expr
  | .neg, .integer value =>
    if value = Int64.minValue then .unary .neg (.integer value) else .integer (-value)
  | .neg, .numeric value => .numeric value.neg
  | op, operand => .unary op operand

/-- Reads an operand with the prefix operators before it. -/
def prefixed : ParserOf σ ε Expr := do
  match prefixOp? (← current) with
  | some op =>
    advance
    return applyPrefix op (← expr op.tier.rank)
  | none => operand expr

/-- The test that a keyword after `IS` or `IS NOT` names. -/
def testOp? : Option Keyword → Bool → Option UnaryOp
  | some .NULL, false => some .isNull
  | some .NULL, true => some .isNotNull
  | some .TRUE, false => some .isTrue
  | some .TRUE, true => some .isNotTrue
  | some .FALSE, false => some .isFalse
  | some .FALSE, true => some .isNotFalse
  | _, _ => none

/-- Reads the rest of a test after `IS`. -/
def test (operand : Expr) : ParserOf σ ε Expr := do
  let negated ← consumeKeyword .NOT
  match testOp? (← current).keyword? negated with
  | some op =>
    advance
    return .unary op operand
  | none => unexpected "NULL, TRUE or FALSE"

/-- Reads an operator that stands behind its operand. -/
def applyPostfix (operand : Expr) : ParserOf σ ε Expr := do
  if ← consume .doubleColon then return .cast operand (← dataType)
  else
    expectKeyword .IS
    test operand

/-- Reads the right side of an operator. It takes operators of higher rank
only, so that equal ones group to the left. -/
def applyConnective (connective : Connective) (left : Expr) : ParserOf σ ε Expr := do
  let floor := connective.tier.rank + 1
  match connective with
  | .binary op => return .binary op left (← expr floor)
  | .isIn negated =>
    let items ← inList expr
    return .binary (if negated then .notIn else .isIn) left items
  | .between negated =>
    let low ← expr floor
    expectKeyword .AND
    let high ← expr floor
    return .between negated left low high

/-- Reads one operator behind `left` and its other operands, if one of at
least the rank `floor` stands here. -/
def extend? (floor : Nat) (left : Expr) : ParserOf σ ε (Option Expr) := do
  match postfixTier? (← current) with
  | some tier =>
    if tier.rank < floor then return none
    else return some (← applyPostfix left)
  | none =>
    match Connective.at? (← peek 0) (← peek 1) with
    | none => return none
    | some connective =>
      if connective.tier.rank < floor then return none
      else
        skip connective.width
        return some (← applyConnective expr connective left)

/-- Reads at most `count` operators behind `left`. -/
def extendAll (floor : Nat) : Nat → Expr → ParserOf σ ε Expr
  | 0, left => return left
  | count + 1, left => do
    match ← extend? expr floor left with
    | some longer => extendAll floor count longer
    | none => return left

end Productions

/-- Reads an expression with operators of at least the rank `floor`, from
at most `bound` tokens. -/
def expressionWithin : Nat → Nat → ParserOf σ ε Expr
  | 0, _ => unexpected "expression"
  | bound + 1, floor => do
    let left ← prefixed (expressionWithin bound)
    extendAll (expressionWithin bound) floor bound left

/-- Reads an expression with operators of at least the rank `floor`. -/
def expression (floor : Nat) : ParserOf σ ε Expr := do
  expressionWithin (← tokensLeft) floor

end SqlSelect.Grammar
