/-
The courses of the clauses and of whole statements.

Only the `GROUP BY` list speculates; it enters with its steps. For the other
productions the course again follows their text.

# Where faults are

The place of an illegal join runs from the first of its words to `JOIN`, that
of a table without an alias from its opening to its closing parenthesis, that
of a row count from its sign on. In all three the first token is marked before
others are passed, and the last one when the rule is found broken. For a whole
input this gives `steps_input`: the cursor moves forward and a fault names
tokens of the input, first and last in order.

# What is composed

That nothing but the `GROUP BY` list speculates is what `Composed` says: a
statement is read by quiet parsers and that one clause, so that what holds of
these and along a sequence holds of a whole input. `Composed` is an induction
principle for whole inputs that never opens the productions again; what is
reported and what a session keeps are proved by it.
-/
import SqlSelect.Grammar.Select
import SqlSelect.Proofs.Course.Groups

namespace SqlSelect.Grammar

variable {mark : Nat}

section Plain

variable {speculates : Bool}

-- ====================================================== select list

/-- A name behind `AS`, or a bare one that is no keyword in the way. -/
theorem course_optionalAlias : Course speculates mark optionalAlias := by
  refine .bind (course_consumeKeyword .AS) fun found => ?_
  split
  next => exact .bind course_identifier fun _ => .pure _
  next =>
    refine .bind course_current fun kind => ?_
    split
    next => exact .bind course_identifier fun _ => .pure _
    next => exact .pure none

/-- A wildcard takes no alias. -/
theorem course_column : Course speculates mark column := by
  refine .bind (course_item fun _ => course_expression) fun expr => ?_
  split
  next => exact .pure _
  next => exact .bind course_optionalAlias fun _ => .pure _

/-- A select list may be missing. -/
theorem course_columns : Course speculates mark columns := by
  refine .bind course_current fun kind => ?_
  split
  next => exact .pure none
  next => exact .bind (course_commaSeparated fun _ => course_column) fun _ => .pure _

-- ============================================================= FROM

/-- The words of a join are seen before they are passed. -/
theorem course_joinModifiers : Course speculates mark joinModifiers := by
  have same (s t : State) (h : s.rest = t.rest) : Cursor.upcoming s = Cursor.upcoming t := h
  exact course_get (fun s t h => by simp only [same s t h]) fun s =>
    .bind (course_skip _) fun _ => .pure _

/-- Words that make no join are refused from the first one to `JOIN`. -/
theorem course_joinType : Course speculates mark joinType := by
  rw [joinType_eq]
  refine .position fun start _ => .bind course_joinModifiers fun words => ?_
  refine .position fun stop ordered => .bind (course_expectKeyword .JOIN) fun _ => ?_
  split
  next => exact .pure _
  next => exact .reject _ ordered (Nat.le_refl _)

/-- A table, with or without a schema before it. -/
theorem course_tableName : Course speculates mark tableName := by
  refine .bind course_identifier fun first => .bind (course_consume .dot) fun dotted => ?_
  split
  next => exact .bind course_identifier fun _ => .pure _
  next => exact .pure _

/-- Both parentheses are seen before they are passed. -/
theorem course_emptyParens : Course speculates mark emptyParens := by
  refine .bind (course_peek 0) fun _ => .bind (course_peek 1) fun _ => ?_
  split
  next => exact course_skip 2
  next => exact .pure ()

/-- A table, its empty parentheses and its alias. -/
theorem course_table : Course speculates mark table :=
  .bind course_tableName fun _ => .bind course_emptyParens fun _ =>
    .bind course_optionalAlias fun _ => .pure _

/-- An expression and its direction. -/
theorem course_sortKey : Course speculates mark sortKey := by
  refine .bind (course_expression 0) fun expr => .bind (course_consumeKeyword .DESC) fun found => ?_
  split
  next => exact .pure _
  next => exact .bind (course_consumeKeyword .ASC) fun _ => .pure _

-- =========================================== LIMIT, OFFSET, FETCH

/-- A negative or fractional count is refused from its sign on. -/
theorem course_rowCount : Course speculates mark rowCount := by
  refine .position fun start _ => .bind (course_consume .minus) fun negative => ?_
  refine .position fun here ordered => .bind course_current fun kind => ?_
  split
  next =>
    refine .bind .advance fun _ => ?_
    generalize (if negative = true then _ else _ : Int64) = value
    show Course speculates here (if value < 0 then _ else _)
    split
    next => exact .reject _ ordered (Nat.le_refl _)
    next => exact .pure _
  next => exact .reject _ ordered (Nat.le_refl _)
  next => exact .unexpected _

/-- The word `ROW` or `ROWS` is passed if it is there. -/
theorem course_rowWord : Course speculates mark rowWord := by
  refine .bind (course_consumeKeyword .ROWS) fun found => ?_
  split
  next => exact .pure ()
  next => exact .bind (course_consumeKeyword .ROW) fun _ => .pure ()

/-- The word `ALL` stands for no limit. -/
theorem course_limitCount : Course speculates mark limitCount := by
  refine .bind (course_consumeKeyword .ALL) fun found => ?_
  split
  next => exact .pure none
  next => exact .bind course_rowCount fun _ => .pure _

/-- A missing count is one row. -/
theorem course_rowCountOrOne : Course speculates mark rowCountOrOne := by
  refine .bind course_current fun kind => ?_
  show Course speculates mark (if kind.keyword? = _ ∨ kind.keyword? = _ then _ else _)
  split
  next => exact .pure 1
  next => exact course_rowCount

/-- A count, the word `ROW` or `ROWS`, and `ONLY`. -/
theorem course_fetched : Course speculates mark fetched :=
  .bind course_rowCountOrOne fun _ => .bind course_rowWord fun _ =>
    .bind (course_consumeKeyword .ONLY) fun _ => .pure _

/-- A count behind `FIRST` or `NEXT`. -/
theorem course_fetchCount : Course speculates mark fetchCount := by
  refine .bind (course_consumeKeyword .FIRST) fun found => ?_
  split
  next => exact course_fetched
  next =>
    refine .bind (course_consumeKeyword .NEXT) fun found => ?_
    split
    next => exact course_fetched
    next => exact .unexpected _

/-- A limit that is there already is refused at its keyword. -/
theorem course_rowLimit? (limits : RowLimits) : Course speculates mark (rowLimit? limits) := by
  refine .position fun here _ => .bind course_current fun kind => ?_
  split
  next =>
    split
    next => exact .reject _ (Nat.le_refl _) (Nat.le_refl _)
    next => exact .bind .advance fun _ => .bind course_limitCount fun _ => .pure _
  next =>
    split
    next => exact .reject _ (Nat.le_refl _) (Nat.le_refl _)
    next =>
      exact .bind .advance fun _ => .bind course_rowCount fun _ =>
        .bind course_rowWord fun _ => .pure _
  next =>
    split
    next => exact .reject _ (Nat.le_refl _) (Nat.le_refl _)
    next => exact .bind .advance fun _ => .bind course_fetchCount fun _ => .pure _
  next => exact .pure none

/-- Limits are read as long as there are any, by induction on the bound. -/
theorem course_rowLimits (count : Nat) (limits : RowLimits) :
    Course speculates mark (rowLimits count limits) := by
  induction count generalizing limits with
  | zero => exact .pure limits
  | succ count ih =>
      refine .bind (course_rowLimit? limits) fun found => ?_
      split
      next more => exact ih more
      next => exact .pure limits

/-- The bound on the limits is the number of tokens left. -/
theorem course_limitClause : Course speculates mark limitClause :=
  .bind course_tokensLeft fun count => .bind (course_rowLimits count _) fun _ => .pure _

/-- The word `DISTINCT`, or `ALL`, which says nothing. -/
theorem course_distinct : Course speculates mark distinct := by
  refine .bind (course_consumeKeyword .DISTINCT) fun found => ?_
  split
  next => exact .pure true
  next => exact .bind (course_consumeKeyword .ALL) fun _ => .pure false

end Plain

-- ================================================= nested statements

section Productions

variable {select : Parser Select} (nested : ∀ mark, Course true mark select)

include nested

/-- A statement without an alias is refused from parenthesis to parenthesis. -/
theorem course_derivedTable : Course true mark (derivedTable select) := by
  refine .expect .leftParen fun start _ => .bind (nested start) fun statement => ?_
  refine .expect .rightParen fun stop ordered => .bind course_optionalAlias fun found => ?_
  split
  next => exact .pure _
  next => exact .reject _ ordered (Nat.le_refl _)

/-- A table, or a statement in parentheses. -/
theorem course_source : Course true mark (source select) := by
  refine .bind (course_atSymbol .leftParen) fun opened => ?_
  split
  next => exact course_derivedTable nested
  next => exact course_table

/-- A source behind its join type, with its condition. -/
theorem course_joinedSource : Course true mark (joinedSource select) :=
  .bind course_joinType fun _ => .bind (course_source nested) fun _ =>
    .bind (course_expectKeyword .ON) fun _ => .bind (course_expression 0) fun _ => .pure _

/-- Sources are read as long as there are any, by induction on the bound. -/
theorem course_moreSources (count : Nat) : Course true mark (moreSources select count) := by
  induction count with
  | zero => exact .pure []
  | succ count ih =>
      refine .bind (course_consume .comma) fun found => ?_
      split
      next => exact .bind (course_source nested) fun _ => .bind ih fun _ => .pure _
      next =>
        refine .bind course_current fun kind => ?_
        split
        next => exact .bind (course_joinedSource nested) fun _ => .bind ih fun _ => .pure _
        next => exact .pure []

/-- The first source and those behind it. -/
theorem course_sources : Course true mark (sources select) :=
  .bind (course_source nested) fun _ => .bind course_tokensLeft fun count =>
    .bind (course_moreSources nested count) fun _ => .pure _

omit nested in
/-- What stands behind the word `BY`. -/
theorem course_afterBy {α : Type} {body : Parser α} (hbody : ∀ mark, Course true mark body) :
    Course true mark (afterBy body) :=
  .bind (course_expectKeyword .BY) fun _ => hbody mark

omit nested in
/-- The `GROUP BY` list speculates, and only its steps are known here. -/
theorem course_groups : Course true mark groups := .own rfl (steps_groups mark)

/-- The clauses of a statement, one after the other. -/
theorem course_selectOf : Course true mark (selectOf select) := by
  refine .bind (course_expectKeyword .SELECT) fun _ => .bind course_distinct fun _ => ?_
  refine .bind course_columns fun _ => ?_
  refine .bind (course_clause (fun _ => course_sources nested) .FROM) fun _ => ?_
  refine .bind (course_clause (fun _ => course_expression 0) .WHERE) fun _ => ?_
  refine .bind (course_clause (fun _ => course_afterBy fun _ => course_groups) .GROUP) fun _ => ?_
  refine .bind (course_clause (fun _ => course_expression 0) .HAVING) fun _ => ?_
  refine .bind (course_clause (fun _ => course_afterBy fun _ =>
    course_commaSeparated fun _ => course_sortKey) .ORDER) fun _ => ?_
  exact .bind course_limitClause fun _ => .pure _

end Productions

/-- A statement has a course, whatever the bound on its depth is. -/
theorem course_selectWithin (bound : Nat) : Course true mark (selectWithin bound) := by
  induction bound generalizing mark with
  | zero => exact .unexpected _
  | succ bound ih => exact course_selectOf fun _ => ih

/-- What is left over is one token of the input. -/
theorem Steps.trailing {α : Type} (mark : Nat) :
    Steps mark (failHere .trailing : Parser α) := by
  refine ⟨fun s _ => ⟨[], Moves.refl s⟩, ?_⟩
  intro s fault s' _ ends h
  cases h
  exact ⟨Nat.le_refl _, s.position_lt ends⟩

/-- A whole input is read forward, and its faults name tokens of it. -/
theorem steps_input : Steps mark input := by
  have bound : Course true mark tokensLeft := course_tokensLeft
  have semicolon : Course true mark (consume .semicolon) := course_consume .semicolon
  have kind : Course true mark current := course_current
  refine Steps.bind bound.steps fun count => ?_
  refine Steps.bind (course_selectWithin count).steps fun statement => ?_
  refine Steps.bind semicolon.steps fun _ => Steps.bind kind.steps fun found => ?_
  cases found with
  | eof =>
      have done : Course true mark (pure statement : Parser Select) := .pure statement
      exact done.steps
  | _ => exact Steps.trailing mark

-- ===================================================== composition

/-- A parser made of quiet ones that move forward and of the `GROUP BY`
clause. -/
inductive Composed : {α : Type} → Parser α → Prop
  | plain {α : Type} {p : Parser α} (quiet : Quiet 0 p)
    (forward : ∀ ⦃s a s'⦄, p s = .ok a s' → ∃ ks, Moves s ks s') : Composed p
  | groupClause : Composed (clause .GROUP (afterBy groups))
  | bind {α β : Type} {p : Parser α} {f : α → Parser β} (first : Composed p)
    (later : ∀ a, Composed (f a)) : Composed (p >>= f)

namespace Composed

variable {α : Type} {p : Parser α}

/-- What has a course that does not speculate is quiet and moves forward. -/
theorem of_course (course : Course false 0 p) : Composed p :=
  .plain course.quiet fun _ _ _ h => course.steps.moves (Nat.zero_le _) h

/-- Nothing is read. -/
protected theorem pure (a : α) : Composed (pure a) := of_course (.pure a)

/-- A rule that is broken by any tokens. -/
protected theorem reject (rule : Rule) (first last : Nat) :
    Composed (reject rule first last : Parser α) :=
  .plain (Quiet.reject 0 rule first last) fun _ _ _ h => (reject_ok.1 h).elim

/-- A symbol that must be there. -/
protected theorem expect (symbol : Symbol) : Composed (expect symbol) := by
  have course : Course false 0 (Grammar.expect symbol >>= Pure.pure) :=
    .expect symbol fun i _ => .pure i
  rw [bind_pure] at course
  exact of_course course

/-- A clause behind its keyword, if that is there. -/
theorem clause (keyword : Keyword) (body : Composed p) :
    Composed (Grammar.clause keyword p) := by
  refine .bind (of_course (course_consumeKeyword keyword)) fun found => ?_
  cases found with
  | true => exact .bind body fun _ => .pure _
  | false => exact .pure none

end Composed

section Composition

variable {select : Parser Select} (nested : Composed select)

include nested

/-- The place of the rule is made of marks, and the two tokens there may be
any. -/
theorem composed_derivedTable : Composed (derivedTable select) := by
  refine .bind (.expect .leftParen) fun first => .bind nested fun statement => ?_
  refine .bind (.expect .rightParen) fun last => ?_
  refine .bind (.of_course course_optionalAlias) fun found => ?_
  cases found with
  | some name => exact .pure _
  | none => exact .reject _ first last

/-- A table is plain; a statement in parentheses is composed if statements are.
-/
theorem composed_source : Composed (source select) := by
  refine .bind (.of_course (course_atSymbol .leftParen)) fun opened => ?_
  cases opened with
  | true => exact composed_derivedTable nested
  | false => exact .of_course course_table

/-- The statement in a joined source is the only part that is not plain. -/
theorem composed_joinedSource : Composed (joinedSource select) :=
  .bind (.of_course course_joinType) fun _ => .bind (composed_source nested) fun _ =>
    .bind (.of_course (course_expectKeyword .ON)) fun _ =>
      .bind (.of_course (course_expression 0)) fun _ => .pure _

/-- Sources behind the first one, by induction on the bound. -/
theorem composed_moreSources (count : Nat) : Composed (moreSources select count) := by
  induction count with
  | zero => exact .pure []
  | succ count ih =>
      refine .bind (.of_course (course_consume .comma)) fun found => ?_
      split
      next => exact .bind (composed_source nested) fun _ => .bind ih fun _ => .pure _
      next =>
        refine .bind (.of_course course_current) fun kind => ?_
        split
        next => exact .bind (composed_joinedSource nested) fun _ => .bind ih fun _ => .pure _
        next => exact .pure []

/-- All sources of a statement. -/
theorem composed_sources : Composed (sources select) :=
  .bind (composed_source nested) fun _ => .bind (.of_course course_tokensLeft) fun count =>
    .bind (composed_moreSources nested count) fun _ => .pure _

/-- The `GROUP BY` clause comes in as itself, between plain clauses. -/
theorem composed_selectOf : Composed (selectOf select) := by
  refine .bind (.of_course (course_expectKeyword .SELECT)) fun _ => ?_
  refine .bind (.of_course course_distinct) fun _ => .bind (.of_course course_columns) fun _ => ?_
  refine .bind (.clause .FROM (composed_sources nested)) fun _ => ?_
  refine .bind (.clause .WHERE (.of_course (course_expression 0))) fun _ => ?_
  refine .bind .groupClause fun _ => ?_
  refine .bind (.clause .HAVING (.of_course (course_expression 0))) fun _ => ?_
  refine .bind (.clause .ORDER (.of_course (.bind (course_expectKeyword .BY) fun _ =>
    course_commaSeparated fun _ => course_sortKey))) fun _ => ?_
  exact .bind (.of_course course_limitClause) fun _ => .pure _

end Composition

/-- A statement is composed, by induction on the bound on its depth. -/
theorem composed_selectWithin (bound : Nat) : Composed (selectWithin bound) := by
  induction bound with
  | zero => exact .of_course (.unexpected _)
  | succ bound ih => exact composed_selectOf ih

/-- What is left over is a fault that reports nothing. -/
theorem Quiet.trailing {α : Type} (mark : Nat) :
    Quiet mark (failHere .trailing : Parser α) := by
  rintro ⟨position, rest, trial, events⟩ _
  cases trial <;> simp [failHere_apply, State.kindAt, State.aloud, State.hushed, Fault.reports]

/-- A whole input is read by such parsers. -/
theorem composed_input : Composed input := by
  refine .bind (.of_course course_tokensLeft) fun count => ?_
  refine .bind (composed_selectWithin count) fun statement => ?_
  refine .bind (.of_course (course_consume .semicolon)) fun _ => ?_
  refine .bind (.of_course course_current) fun found => ?_
  cases found with
  | eof => exact .pure statement
  | _ => exact .plain (Quiet.trailing 0) fun _ _ _ h => nomatch h

end SqlSelect.Grammar
