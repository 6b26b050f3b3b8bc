/-
The courses of the productions of expressions.

Each production is taken apart along its text: one `bind` for each line, one
case for each branch. A broken rule is the only point where there is something
to show, namely that the tokens at fault have been reached. Either the mark of
the course has been moved up to them before, by `position` or `expect`, or the
rule names the current token and `position` is read just there.

# Nesting

Nested expressions come in as a parser that has a course from every mark on,
since a production that has moved its mark calls them from there. The knot is
tied by induction on the bound (`course_expressionWithin`). Nothing in an
expression speculates, so these courses hold with either flag, and what is
proved of them serves the quiet parsers and the `GROUP BY` list alike.
-/
import SqlSelect.Grammar.Expr
import SqlSelect.Proofs.Course.Basic

namespace SqlSelect.Grammar

variable {speculates : Bool} {mark : Nat}

-- ============================================================ types

/-- The second word of a type is looked at and passed, or left. -/
theorem course_typeName (first : String) : Course speculates mark (typeName first) := by
  unfold typeName
  split
  next => exact .pure first
  next =>
    refine .bind course_current fun kind => ?_
    split
    next => exact .bind .advance fun _ => .pure _
    next => exact .pure first

/-- A modifier of a type is one token. -/
theorem course_typeModifier : Course speculates mark typeModifier := by
  refine .bind course_current fun kind => ?_
  split
  next => exact .bind .advance fun _ => .pure _
  next => exact .unexpected _

/-- Modifiers in parentheses, if there are any. -/
theorem course_typeConfig : Course speculates mark typeConfig := by
  refine .bind (course_consume .leftParen) fun found => ?_
  split
  next =>
    refine .bind (course_commaSeparated fun _ => course_typeModifier) fun config => ?_
    exact .expect .rightParen fun _ _ => .pure _
  next => exact .pure none

/-- The words of a time zone are seen all three before they are passed. -/
theorem course_zonedName (name : String) : Course speculates mark (zonedName name) := by
  unfold zonedName
  split
  next =>
    refine .bind (course_peek 0) fun _ => .bind (course_peek 1) fun _ =>
      .bind (course_peek 2) fun _ => ?_
    split
    next => exact .bind (course_skip 3) fun _ => .pure _
    next => exact .pure name
  next => exact .pure name

/-- A type is its name, its modifiers and its time zone. -/
theorem course_dataType : Course speculates mark dataType := by
  refine .bind course_current fun kind => ?_
  split
  next => exact .unexpected _
  next first _ =>
    refine .bind .advance fun _ => .bind (course_typeName first) fun name => ?_
    exact .bind course_typeConfig fun config => .bind (course_zonedName name) fun _ => .pure _

-- ======================================================== wildcards

/-- A wildcard is seen as a whole before it is passed. -/
theorem course_wildcard? : Course speculates mark wildcard? := by
  refine .bind (course_peek 0) fun _ => .bind (course_peek 1) fun _ =>
    .bind (course_peek 2) fun _ => ?_
  split
  next width _ => exact .bind (course_skip width) fun _ => .pure _
  next => exact .pure none

/-- The star in quotes is refused at the token that it is. -/
theorem course_noQuotedStar : Course speculates mark noQuotedStar := by
  refine .bind course_current fun kind => ?_
  split
  next => exact .position fun here _ => .reject _ (Nat.le_refl _) (Nat.le_refl _)
  next => exact .pure ()

/-- Behind the point a name is passed, the star in quotes apart. -/
theorem course_qualified (table : String) : Course speculates mark (qualified table) := by
  refine .bind course_noQuotedStar fun _ => .bind course_current fun kind => ?_
  split
  next => exact .bind .advance fun _ => .pure _
  next => exact .unexpected _

/-- A literal is one token. -/
theorem course_literal (value : Expr) : Course speculates mark (literal value) :=
  .bind .advance fun _ => .pure value

-- =========================================================== nesting

section Productions

variable {expr : Nat → Parser Expr} (nested : ∀ mark floor, Course speculates mark (expr floor))

include nested

/-- A list of expressions, none of them a wildcard. -/
theorem course_expressionList : Course speculates mark (expressionList expr) :=
  course_commaSeparated fun mark => nested mark 0

/-- A sum or a product of a wildcard is refused from where the wildcard starts.
-/
theorem course_item : Course speculates mark (item expr) := by
  refine .position fun start _ => .bind course_wildcard? fun found => ?_
  split
  next =>
    refine .bind (course_peek 0) fun _ => .bind (course_peek 1) fun _ => ?_
    split
    next => exact .position fun here ordered => .reject _ ordered (Nat.le_refl _)
    next => exact .pure _
  next => exact nested _ 0

/-- The arguments of a call, which may be none. -/
theorem course_arguments : Course speculates mark (arguments expr) := by
  refine .bind (course_atSymbol .rightParen) fun closed => ?_
  split
  next => exact .pure []
  next => exact course_commaSeparated fun _ => course_item nested

/-- The arguments in their parentheses. -/
theorem course_call (function : Callee) : Course speculates mark (call expr function) :=
  .expect .leftParen fun _ _ => .bind (course_arguments nested) fun _ =>
    .expect .rightParen fun _ _ => .pure _

/-- A subquery is refused from the parenthesis on, which is the mark here. -/
theorem course_inList : Course speculates mark (inList expr) := by
  refine .expect .leftParen fun start _ => .bind (course_atKeyword .SELECT) fun subquery => ?_
  split
  next => exact .position fun here ordered => .reject _ ordered (Nat.le_refl _)
  next =>
    refine .bind (course_expressionList nested) fun items => ?_
    exact .expect .rightParen fun _ _ => .pure _

/-- A subquery and a wildcard are refused from the parenthesis on. -/
theorem course_parenthesized : Course speculates mark (parenthesized expr) := by
  refine .expect .leftParen fun start _ => .bind (course_atKeyword .SELECT) fun subquery => ?_
  split
  next => exact .position fun here ordered => .reject _ ordered (Nat.le_refl _)
  next =>
    refine .bind course_wildcard? fun found => ?_
    split
    next =>
      refine .bind (course_atSymbol .rightParen) fun closed => ?_
      split
      next => exact .position fun here ordered => .reject _ ordered (Nat.le_refl _)
      next => exact .position fun here ordered => .reject _ ordered (Nat.le_refl _)
    next => exact .bind (nested _ 0) fun _ => .expect .rightParen fun _ _ => .pure _

/-- A star behind the point is refused with the point, before either is passed.
-/
theorem course_reference : Course speculates mark (reference expr) := by
  refine .bind course_noQuotedStar fun _ => .bind course_identifier fun name => ?_
  refine .bind course_current fun kind => ?_
  split
  next => exact course_call nested _
  next =>
    refine .rejectPair .misplacedWildcard (k := .symbol .star) nofun fun dot _ => ?_
    exact .bind .advance fun _ => course_qualified name
  next => exact .pure _

/-- Arms of a `CASE` are read as long as there are any, by induction on the
bound. -/
theorem course_caseArms (count : Nat) : Course speculates mark (caseArms expr count) := by
  induction count with
  | zero => exact .pure []
  | succ count ih =>
      refine .bind (course_consumeKeyword .WHEN) fun found => ?_
      split
      next =>
        refine .bind (nested mark 0) fun _ => .bind (course_expectKeyword .THEN) fun _ => ?_
        exact .bind (nested mark 0) fun _ => .bind ih fun _ => .pure _
      next => exact .pure []

/-- The operand of a `CASE`, which may be missing. -/
theorem course_caseOperand : Course speculates mark (caseOperand expr) := by
  refine .bind (course_atKeyword .WHEN) fun found => ?_
  split
  next => exact .pure none
  next => exact .bind (nested mark 0) fun _ => .pure _

/-- A `CASE` without arms is refused where the first is missing. -/
theorem course_case : Course speculates mark (case expr) := by
  refine .bind (course_expectKeyword .CASE) fun _ => .bind (course_caseOperand nested) fun _ => ?_
  refine .bind course_tokensLeft fun count => .bind (course_caseArms nested count) fun arms => ?_
  split
  next => exact .unexpected _
  next =>
    refine .bind (course_clause (fun mark => nested mark 0) .ELSE) fun _ => ?_
    exact .bind (course_expectKeyword .END) fun _ => .pure _

/-- A type conversion written as a call. -/
theorem course_cast : Course speculates mark (cast expr) := by
  refine .bind (course_expectKeyword .CAST) fun _ => .expect .leftParen fun _ _ => ?_
  refine .bind (nested _ 0) fun _ => .bind (course_expectKeyword .AS) fun _ => ?_
  exact .bind course_dataType fun _ => .expect .rightParen fun _ _ => .pure _

/-- What a bare word starts is told by its keyword and the token behind it. -/
theorem course_wordOperand (word : String) : Course speculates mark (wordOperand expr word) := by
  unfold wordOperand
  split
  next => exact course_literal _
  next => exact course_literal _
  next => exact course_literal _
  next => exact course_case nested
  next => exact course_cast nested
  next =>
    refine .bind (course_peek 1) fun second => ?_
    split
    next => exact .bind .advance fun _ => course_call nested _
    next =>
      split
      next => exact .unexpected _
      next => exact course_reference nested
  next => exact course_reference nested

/-- What an operand is, is told by its first token. -/
theorem course_operand : Course speculates mark (operand expr) := by
  refine .bind course_current fun kind => ?_
  cases kind with
  | integer | numeric | string | parameter => exact course_literal _
  | quoted name => exact course_reference nested
  | word word => exact course_wordOperand nested word
  | eof => exact .unexpected _
  | symbol mark =>
      cases mark with
      | leftParen => exact course_parenthesized nested
      | star => exact .position fun here _ => .reject _ (Nat.le_refl _) (Nat.le_refl _)
      | _ => exact .unexpected _

/-- A prefix operator is passed, and its operand is an expression of its tier.
-/
theorem course_prefixed : Course speculates mark (prefixed expr) := by
  refine .bind course_current fun kind => ?_
  split
  next op _ => exact .bind .advance fun _ => .bind (nested mark op.tier.rank) fun _ => .pure _
  next => exact course_operand nested

omit nested in
/-- The word behind `IS`, and a `NOT` before it. -/
theorem course_test (operand : Expr) : Course speculates mark (test operand) := by
  refine .bind (course_consumeKeyword .NOT) fun negated => .bind course_current fun kind => ?_
  split
  next => exact .bind .advance fun _ => .pure _
  next => exact .unexpected _

omit nested in
/-- A conversion or a test of the operand that has been read. -/
theorem course_applyPostfix (operand : Expr) : Course speculates mark (applyPostfix operand) := by
  refine .bind (course_consume .doubleColon) fun found => ?_
  split
  next => exact .bind course_dataType fun _ => .pure _
  next => exact .bind (course_expectKeyword .IS) fun _ => course_test operand

/-- What stands behind a connective, and the node that is made of it. -/
theorem course_applyConnective (connective : Connective) (left : Expr) :
    Course speculates mark (applyConnective expr connective left) := by
  cases connective with
  | binary op => exact .bind (nested mark _) fun _ => .pure _
  | isIn negated => exact .bind (course_inList nested) fun _ => .pure _
  | between negated =>
      refine .bind (nested mark _) fun _ => .bind (course_expectKeyword .AND) fun _ => ?_
      exact .bind (nested mark _) fun _ => .pure _

/-- A connective is passed only where it binds tightly enough. -/
theorem course_extend? (floor : Nat) (left : Expr) :
    Course speculates mark (extend? expr floor left) := by
  refine .bind course_current fun kind => ?_
  split
  next =>
    split
    next => exact .pure none
    next => exact .bind (course_applyPostfix left) fun _ => .pure _
  next =>
    refine .bind (course_peek 0) fun _ => .bind (course_peek 1) fun _ => ?_
    split
    next => exact .pure none
    next connective _ =>
      split
      next => exact .pure none
      next =>
        refine .bind (course_skip connective.width) fun _ => ?_
        exact .bind (course_applyConnective nested connective left) fun _ => .pure _

/-- Operators are applied as long as there are any, by induction on the bound.
-/
theorem course_extendAll (floor count : Nat) (left : Expr) :
    Course speculates mark (extendAll expr floor count left) := by
  induction count generalizing left with
  | zero => exact .pure left
  | succ count ih =>
      refine .bind (course_extend? nested floor left) fun found => ?_
      split
      next longer => exact ih longer
      next => exact .pure left

end Productions

-- =========================================================== the knot

/-- An expression has a course, whatever the bound on its depth is. -/
theorem course_expressionWithin (bound floor : Nat) :
    Course speculates mark (expressionWithin bound floor) := by
  induction bound generalizing mark floor with
  | zero => exact .unexpected _
  | succ bound ih =>
      have nested : ∀ mark floor, Course speculates mark (expressionWithin bound floor) :=
        fun _ floor => ih floor
      exact .bind (course_prefixed nested) fun left => course_extendAll nested floor bound left

/-- The bound that an expression starts with is the number of tokens left. -/
theorem course_expression (floor : Nat) : Course speculates mark (expression floor) :=
  .bind course_tokensLeft fun bound => course_expressionWithin bound floor

end SqlSelect.Grammar
