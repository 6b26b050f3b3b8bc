/-
The productions of the grammar and what they do to the cursor.

Three inductive families list the parsers that the grammar is made of, each
with one lemma that goes through its list, so that what is claimed of every
production is claimed of a list that can be read.

# The families

`Production` lists the parsers themselves, with the parsers of nested
expressions and statements they are run with. Each of them leaves the cursor
at a token of the input that is not before the one where it started, whether
it succeeds or fails (`Production.onward`). Those that `Takes` lists take a
token if they succeed (`Takes.gains`), and so does each `Round` of a loop that
has another behind it (`Round.gaining`). A loop with a round for every token
left, `Loop`, does not run out of them (`Loop.same`).

# Where the facts come from

That the cursor goes forward is read off the courses of the productions. That
something is taken is what the comparison of a cursor with itself says of each
production, with itself on both sides.
-/
import SqlSelect.Proofs.Termination.Basic

namespace SqlSelect.Grammar

variable {kinds : List Kind} {s : State}

-- ============================================================ nesting

/-- A parser of nested expressions: for all the tokens left, or for at most
so many. -/
inductive ExprParser : (Nat → Parser Expr) → Prop
  | whole : ExprParser expression
  | within (bound : Nat) : ExprParser (expressionWithin bound)

/-- A parser of nested statements. -/
inductive SelectParser : Parser Select → Prop
  | whole : SelectParser statement
  | within (bound : Nat) : SelectParser (selectWithin bound)

theorem ExprParser.course {expr : Nat → Parser Expr} (nested : ExprParser expr) (mark : Nat)
    (floor : Nat) : Course false mark (expr floor) := by
  cases nested with
  | whole => exact course_expression floor
  | within bound => exact course_expressionWithin bound floor

/-- A nested expression takes a token. -/
theorem ExprParser.takes {expr : Nat → Parser Expr} (nested : ExprParser expr) (floor start : Nat) :
    (solo kinds).From start one (Expr.mapNames id) (expr floor) (expr floor) := by
  cases nested with
  | whole => exact tandem_expression (solo_types kinds) floor
  | within bound => exact tandem_expressionWithin (solo_types kinds) (Or.inl ⟨rfl, trivial⟩) floor

/-- It may stand where a production comes to a nested expression. -/
theorem ExprParser.behind {expr : Nat → Parser Expr} (nested : ExprParser expr) (start : Nat) :
    ∀ floor, (solo kinds).From start none? (Expr.mapNames id) (expr floor) (expr floor) :=
  fun floor => (nested.takes floor start).eased

theorem SelectParser.course {select : Parser Select} (nested : SelectParser select) (mark : Nat) :
    Course true mark select := by
  cases nested with
  | whole => exact .bind course_tokensLeft fun count => course_selectWithin count
  | within bound => exact course_selectWithin bound

/-- A nested statement takes a token. -/
theorem SelectParser.takes {select : Parser Select} (nested : SelectParser select) (start : Nat) :
    (solo kinds).From start one (Select.mapNames id) select select := by
  cases nested with
  | whole => exact tandem_statement (solo_types kinds) (solo_groups kinds)
  | within bound =>
      rw [selectWithin_eq_over]
      refine tandem_selectOver (solo_types kinds) (solo_groups kinds) (Or.inl ⟨rfl, ?_⟩)
      exact fun s hs _ => .unexpected hs _

theorem SelectParser.behind {select : Parser Select} (nested : SelectParser select) (start : Nat) :
    (solo kinds).From start none? (Select.mapNames id) select select :=
  (nested.takes start).eased

-- ======================================================== productions

/-- The parsers that the grammar is made of. -/
inductive Production : {α : Type} → Parser α → Prop
  -- looking and failing
  | peek (ahead : Nat) : Production (peek ahead)
  | current : Production current
  | position : Production position
  | tokensLeft : Production tokensLeft
  | atSymbol (symbol : Symbol) : Production (atSymbol symbol)
  | atKeyword (keyword : Keyword) : Production (atKeyword keyword)
  | unexpected {α : Type} (expected : String) : Production (unexpected expected : Parser α)
  | reject {α : Type} (rule : Rule) (first last : Nat) :
    Production (reject rule first last : Parser α)
  -- moving
  | advance : Production advance
  | skip (count : Nat) : Production (skip count)
  | consume (symbol : Symbol) : Production (consume symbol)
  | consumeKeyword (keyword : Keyword) : Production (consumeKeyword keyword)
  | expect (symbol : Symbol) : Production (expect symbol)
  | expectKeyword (keyword : Keyword) : Production (expectKeyword keyword)
  | identifier : Production identifier
  -- combining
  | clause {α : Type} {body : Parser α} (keyword : Keyword) (inner : Production body) :
    Production (clause keyword body)
  | moreItems {α : Type} {body : Parser α} (inner : Production body) (count : Nat) :
    Production (moreItems body count)
  | commaSeparated {α : Type} {body : Parser α} (inner : Production body) :
    Production (commaSeparated body)
  | attempt {α : Type} {body : Parser α} (inner : Production body) : Production (attempt body)
  | afterBy {α : Type} {body : Parser α} (inner : Production body) : Production (afterBy body)
  -- types
  | typeName (first : String) : Production (typeName first)
  | typeModifier : Production typeModifier
  | typeConfig : Production typeConfig
  | zonedName (name : String) : Production (zonedName name)
  | dataType : Production dataType
  -- expressions
  | wildcard? : Production wildcard?
  | noQuotedStar : Production noQuotedStar
  | qualified (table : String) : Production (qualified table)
  | literal (value : Expr) : Production (literal value)
  | test (operand : Expr) : Production (test operand)
  | applyPostfix (operand : Expr) : Production (applyPostfix operand)
  | expression {expr : Nat → Parser Expr} (nested : ExprParser expr) (floor : Nat) :
    Production (expr floor)
  | expressionList {expr : Nat → Parser Expr} (nested : ExprParser expr) :
    Production (expressionList expr)
  | item {expr : Nat → Parser Expr} (nested : ExprParser expr) : Production (item expr)
  | arguments {expr : Nat → Parser Expr} (nested : ExprParser expr) : Production (arguments expr)
  | call {expr : Nat → Parser Expr} (nested : ExprParser expr) (function : Callee) :
    Production (call expr function)
  | inList {expr : Nat → Parser Expr} (nested : ExprParser expr) : Production (inList expr)
  | parenthesized {expr : Nat → Parser Expr} (nested : ExprParser expr) :
    Production (parenthesized expr)
  | reference {expr : Nat → Parser Expr} (nested : ExprParser expr) : Production (reference expr)
  | caseArms {expr : Nat → Parser Expr} (nested : ExprParser expr) (count : Nat) :
    Production (caseArms expr count)
  | caseOperand {expr : Nat → Parser Expr} (nested : ExprParser expr) :
    Production (caseOperand expr)
  | case {expr : Nat → Parser Expr} (nested : ExprParser expr) : Production (case expr)
  | cast {expr : Nat → Parser Expr} (nested : ExprParser expr) : Production (cast expr)
  | wordOperand {expr : Nat → Parser Expr} (nested : ExprParser expr) (word : String) :
    Production (wordOperand expr word)
  | operand {expr : Nat → Parser Expr} (nested : ExprParser expr) : Production (operand expr)
  | prefixed {expr : Nat → Parser Expr} (nested : ExprParser expr) : Production (prefixed expr)
  | applyConnective {expr : Nat → Parser Expr} (nested : ExprParser expr)
    (connective : Connective) (left : Expr) : Production (applyConnective expr connective left)
  | extend? {expr : Nat → Parser Expr} (nested : ExprParser expr) (floor : Nat) (left : Expr) :
    Production (extend? expr floor left)
  | extendAll {expr : Nat → Parser Expr} (nested : ExprParser expr) (floor count : Nat)
    (left : Expr) : Production (extendAll expr floor count left)
  -- clauses
  | optionalAlias : Production optionalAlias
  | column : Production column
  | columns : Production columns
  | joinType : Production joinType
  | tableName : Production tableName
  | emptyParens : Production emptyParens
  | table : Production table
  | derivedTable {select : Parser Select} (nested : SelectParser select) :
    Production (derivedTable select)
  | source {select : Parser Select} (nested : SelectParser select) : Production (source select)
  | joinedSource {select : Parser Select} (nested : SelectParser select) :
    Production (joinedSource select)
  | moreSources {select : Parser Select} (nested : SelectParser select) (count : Nat) :
    Production (moreSources select count)
  | sources {select : Parser Select} (nested : SelectParser select) : Production (sources select)
  | wrappedGroups : Production wrappedGroups
  | groups : Production groups
  | sortKey : Production sortKey
  | rowCount : Production rowCount
  | rowWord : Production rowWord
  | limitCount : Production limitCount
  | rowCountOrOne : Production rowCountOrOne
  | fetched : Production fetched
  | fetchCount : Production fetchCount
  | rowLimit? (limits : RowLimits) : Production (rowLimit? limits)
  | rowLimits (count : Nat) (limits : RowLimits) : Production (rowLimits count limits)
  | limitClause : Production limitClause
  -- statements
  | distinct : Production distinct
  | statement {select : Parser Select} (nested : SelectParser select) : Production select
  | selectOf {select : Parser Select} (nested : SelectParser select) : Production (selectOf select)
  | ending (select : Select) : Production (ending select)
  | input : Production input

/-- No production moves the cursor back. -/
theorem Production.onward {α : Type} {p : Parser α} (h : Production p) : Onward p := by
  have plain {α : Type} {p : Parser α} (course : Course false 0 p) : Onward p := .of_plain course
  have nests {α : Type} {p : Parser α} (course : Course true 0 p) : Onward p := .of_course course
  induction h with
  | peek ahead => exact plain (course_peek ahead)
  | current => exact plain course_current
  | position => exact plain (.position fun here _ => .pure here)
  | tokensLeft => exact plain course_tokensLeft
  | atSymbol symbol => exact plain (course_atSymbol symbol)
  | atKeyword keyword => exact plain (course_atKeyword keyword)
  | unexpected expected => exact plain (.unexpected expected)
  | reject rule first last => exact onward_reject rule first last
  | advance => exact plain .advance
  | skip count => exact plain (course_skip count)
  | consume symbol => exact plain (course_consume symbol)
  | consumeKeyword keyword => exact plain (course_consumeKeyword keyword)
  | expect symbol =>
      have course : Course false 0 (Grammar.expect symbol >>= pure) :=
        .expect symbol fun here _ => .pure here
      rw [bind_pure] at course
      exact plain course
  | expectKeyword keyword => exact plain (course_expectKeyword keyword)
  | identifier => exact plain course_identifier
  | clause keyword _ ih => exact ih.clause keyword
  | moreItems _ count ih => exact ih.moreItems count
  | commaSeparated _ ih => exact ih.commaSeparated
  | attempt _ ih => exact ih.attempt
  | afterBy _ ih => exact .bind (plain (course_expectKeyword .BY)) fun _ => ih
  | typeName first => exact plain (course_typeName first)
  | typeModifier => exact plain course_typeModifier
  | typeConfig => exact plain course_typeConfig
  | zonedName name => exact plain (course_zonedName name)
  | dataType => exact plain course_dataType
  | wildcard? => exact plain course_wildcard?
  | noQuotedStar => exact plain course_noQuotedStar
  | qualified table => exact plain (course_qualified table)
  | literal value => exact plain (course_literal value)
  | test operand => exact plain (course_test operand)
  | applyPostfix operand => exact plain (course_applyPostfix operand)
  | expression nested floor => exact plain (nested.course 0 floor)
  | expressionList nested => exact plain (course_expressionList nested.course)
  | item nested => exact plain (course_item nested.course)
  | arguments nested => exact plain (course_arguments nested.course)
  | call nested function => exact plain (course_call nested.course function)
  | inList nested => exact plain (course_inList nested.course)
  | parenthesized nested => exact plain (course_parenthesized nested.course)
  | reference nested => exact plain (course_reference nested.course)
  | caseArms nested count => exact plain (course_caseArms nested.course count)
  | caseOperand nested => exact plain (course_caseOperand nested.course)
  | case nested => exact plain (course_case nested.course)
  | cast nested => exact plain (course_cast nested.course)
  | wordOperand nested word => exact plain (course_wordOperand nested.course word)
  | operand nested => exact plain (course_operand nested.course)
  | prefixed nested => exact plain (course_prefixed nested.course)
  | applyConnective nested connective left =>
      exact plain (course_applyConnective nested.course connective left)
  | extend? nested floor left => exact plain (course_extend? nested.course floor left)
  | extendAll nested floor count left =>
      exact plain (course_extendAll nested.course floor count left)
  | optionalAlias => exact plain course_optionalAlias
  | column => exact plain course_column
  | columns => exact plain course_columns
  | joinType => exact plain course_joinType
  | tableName => exact plain course_tableName
  | emptyParens => exact plain course_emptyParens
  | table => exact plain course_table
  | derivedTable nested => exact nests (course_derivedTable nested.course)
  | source nested => exact nests (course_source nested.course)
  | joinedSource nested => exact nests (course_joinedSource nested.course)
  | moreSources nested count => exact nests (course_moreSources nested.course count)
  | sources nested => exact nests (course_sources nested.course)
  | wrappedGroups => exact .wrappedGroups
  | groups => exact nests course_groups
  | sortKey => exact plain course_sortKey
  | rowCount => exact plain course_rowCount
  | rowWord => exact plain course_rowWord
  | limitCount => exact plain course_limitCount
  | rowCountOrOne => exact plain course_rowCountOrOne
  | fetched => exact plain course_fetched
  | fetchCount => exact plain course_fetchCount
  | rowLimit? limits => exact plain (course_rowLimit? limits)
  | rowLimits count limits => exact plain (course_rowLimits count limits)
  | limitClause => exact plain course_limitClause
  | distinct => exact plain course_distinct
  | statement nested => exact nests (nested.course 0)
  | selectOf nested => exact nests (course_selectOf nested.course)
  | ending select => exact .ending select
  | input => exact fun s => steps_input.onward (Nat.zero_le _)

-- ============================================================= gains

/-- The productions that take a token if they succeed. -/
inductive Takes : {α : Type} → Parser α → Prop
  | expression {expr : Nat → Parser Expr} (nested : ExprParser expr) (floor : Nat) :
    Takes (expr floor)
  | operand {expr : Nat → Parser Expr} (nested : ExprParser expr) : Takes (operand expr)
  | dataType : Takes dataType
  | source {select : Parser Select} (nested : SelectParser select) : Takes (source select)
  | statement {select : Parser Select} (nested : SelectParser select) : Takes select
  | selectOf {select : Parser Select} (nested : SelectParser select) : Takes (selectOf select)

/-- These pass a token, wherever they succeed. -/
theorem Takes.gains {α : Type} {p : Parser α} (h : Takes p) (hs : s.StandsIn kinds) {a : α}
    {s' : State} (hp : p s = .ok a s') : s.position < s'.position := by
  have taken {γ : Type} {see : α → γ} (here : (solo kinds).At s one see p p) :
      s.position < s'.position := (here.gains hp).2
  cases h with
  | expression nested floor => exact taken (nested.takes floor _ s hs (Nat.le_refl _))
  | operand nested =>
      exact taken (tandem_operand (nested.behind _) (solo_types kinds) hs (Nat.le_refl _))
  | dataType => exact taken (Tandem.dataType_of_exact (solo_exact kinds) hs)
  | source nested => exact taken (tandem_source (nested.behind _) s hs (Nat.le_refl _))
  | statement nested => exact taken (nested.takes _ s hs (Nat.le_refl _))
  | selectOf nested =>
      exact taken (tandem_selectOf (solo_types kinds) (solo_groups kinds) (nested.behind _) s hs
        (Nat.le_refl _))

/-- What the loops of the grammar do in a round. A round that yields nothing
is the last. -/
inductive Round : {α : Type} → Parser (Option α) → Prop
  | afterComma {α : Type} {body : Parser α} (inner : Production body) : Round (afterComma body)
  | caseArm {expr : Nat → Parser Expr} (nested : ExprParser expr) : Round (caseArm expr)
  | extend? {expr : Nat → Parser Expr} (nested : ExprParser expr) (floor : Nat) (left : Expr) :
    Round (extend? expr floor left)
  | furtherSource {select : Parser Select} (nested : SelectParser select) :
    Round (furtherSource select)
  | rowLimit? (limits : RowLimits) : Round (rowLimit? limits)

theorem Round.gaining {α : Type} {round : Parser (Option α)} (h : Round round) :
    Gaining kinds round := by
  cases h with
  | afterComma inner => exact gaining_afterComma inner.onward
  | caseArm nested => exact gaining_of_tandem (tandem_caseArm (nested.behind _))
  | extend? nested floor left =>
      exact gaining_of_tandem (tandem_extend? (nested.behind _) (solo_types kinds) rfl floor)
  | furtherSource nested =>
      exact gaining_of_tandem (tandem_furtherSource (solo_types kinds) (nested.behind _))
  | rowLimit? limits => exact gaining_of_tandem fun s hs _ => tandem_rowLimit? hs limits

/-- The tokens that a production skips after it has looked at them. -/
inductive Stride (s : State) : Nat → Prop
  | wildcard {wildcard : Expr} {width : Nat}
    (seen : wildcardAt? (s.kindAt 0) (s.kindAt 1) (s.kindAt 2) = some (wildcard, width)) :
    Stride s width
  | connective {connective : Connective}
    (seen : Connective.at? (s.kindAt 0) (s.kindAt 1) = some connective) :
    Stride s connective.width
  | zone {zone : String} (seen : zone? (s.kindAt 0) (s.kindAt 1) (s.kindAt 2) = some zone) :
    Stride s 3
  | emptyParens
    (seen : s.kindAt 0 = .symbol .leftParen ∧ s.kindAt 1 = .symbol .rightParen) : Stride s 2
  | joinWords : Stride s (joinWords s.rest).length

theorem Stride.inner {s : State} {count : Nat} (h : Stride s count) :
    ∀ k < count, s.kindAt k ≠ .eof := by
  cases h with
  | wildcard seen => exact (wildcardAt?_seen seen).2
  | connective seen => exact (Connective.seen seen).2
  | zone seen => exact forall_three (zone?_inner seen)
  | emptyParens seen => exact forall_pair seen
  | joinWords => exact joinWords_seen s.rest

-- ============================================================= loops

/-- The loops and the knots of the grammar, as they take the number of their
rounds, each beside one that answers what it is told with no round left. -/
inductive Loop : {α : Type} → (Nat → Parser α) → (Nat → Parser α) → Prop
  | moreItems {α : Type} {body : Parser α} (inner : Production body)
    (spent : Parser (List α)) : Loop (moreItems body) (collect spent (afterComma body))
  | caseArms {expr : Nat → Parser Expr} (nested : ExprParser expr)
    (spent : Parser (List (Expr × Expr))) : Loop (caseArms expr) (collect spent (caseArm expr))
  | extendAll {expr : Nat → Parser Expr} (nested : ExprParser expr) (floor : Nat) (left : Expr)
    (spent : Expr → Parser Expr) : Loop (fun count => extendAll expr floor count left)
      fun count => iterate spent (extend? expr floor) count left
  | moreSources {select : Parser Select} (nested : SelectParser select)
    (spent : Parser (List Source)) :
    Loop (moreSources select) (collect spent (furtherSource select))
  | rowLimits (limits : RowLimits) (spent : RowLimits → Parser RowLimits) :
    Loop (fun count => rowLimits count limits) fun count => iterate spent rowLimit? count limits
  | expressionWithin (floor : Nat) (spent : Nat → Parser Expr) (stuck : Expr → Parser Expr) :
    Loop (fun bound => expressionWithin bound floor)
      fun bound => expressionOver spent stuck bound floor
  | selectWithin (spent : Parser Select) : Loop selectWithin (selectOver spent)

/-- Rounds that suffice for the tokens left do not run out. -/
theorem Loop.same {α : Type} {p q : Nat → Parser α} (h : Loop p q) (hs : s.StandsIn kinds)
    {n m : Nat} (left : kinds.length ≤ n + s.position) (right : kinds.length ≤ m + s.position) :
    p n s = q m s := by
  cases h with
  | moreItems inner spent =>
      rw [moreItems_eq_collect]
      exact collect_gaining (Round.afterComma inner).gaining _ _ hs left right
  | caseArms nested spent =>
      rw [caseArms_eq_collect]
      exact collect_gaining (Round.caseArm nested).gaining _ _ hs left right
  | extendAll nested floor first spent =>
      show Grammar.extendAll _ floor n first s = _
      rw [extendAll_eq_iterate]
      exact iterate_gaining (fun left => (Round.extend? nested floor left).gaining) _ _ hs left
        right first
  | moreSources nested spent =>
      rw [moreSources_eq_collect]
      exact collect_gaining (Round.furtherSource nested).gaining _ _ hs left right
  | rowLimits limits spent =>
      show Grammar.rowLimits n limits s = _
      rw [rowLimits_eq_iterate]
      exact iterate_gaining (fun limits => (Round.rowLimit? limits).gaining) _ _ hs left right
        limits
  | expressionWithin floor spent stuck =>
      show Grammar.expressionWithin n floor s = _
      rw [expressionWithin_eq_over]
      exact expressionOver_eq hs left right floor
  | selectWithin spent =>
      rw [selectWithin_eq_over, ← statement_eq_over hs left, statement_eq_over hs right]

end SqlSelect.Grammar
