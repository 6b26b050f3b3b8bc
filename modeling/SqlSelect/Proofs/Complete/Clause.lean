/-
The grammar reads the clauses that are written.

A clause is read up to the keyword of one of the clauses behind it, or to
the end of the statement. `Ends keywords rest` says that one of these is
what follows; from it comes everything a production needs to know before
it stops: no operator, no comma, no name that would be an alias.

# Two conditions on what follows

`Closes` is about a part of a clause, such as an item of a list: there a comma
may follow, a word of a join or the direction of a sort key. `Ends` is about a
whole clause and names the clauses that may follow it. Each clause of a
statement asks for the ones behind it and no others, and `Ends.clauseKinds`
adds one when a clause is put in front.

# Lists that read ahead

The `FROM` list and the clauses about rows are loops, whose rounds look at the
next token to see whether there is another round. Their lemmas are about one
round in front of what the loop does next (`runs_moreSources_comma`,
`runs_moreSources_join`), and the induction over the entries is in the module
about statements, where the entries may hold statements themselves.
-/
import SqlSelect.Grammar.Select
import SqlSelect.Proofs.Complete.Expr
import SqlSelect.Proofs.Print.Select

namespace SqlSelect.Grammar

variable {α : Type} {rest : List Kind}

-- ========================================================= followers

/-- The keywords behind which a part of a statement ends. -/
def closing : List Keyword :=
  [.FROM, .WHERE, .GROUP, .HAVING, .ORDER, .LIMIT, .OFFSET, .JOIN, .LEFT, .RIGHT, .FULL, .ON,
    .DESC]

/-- A part of a statement ends here: at the end of the statement, at a
comma or at a keyword that no part goes on with. -/
inductive Closes : List Kind → Prop
  | eof {rest : List Kind} : Closes (.eof :: rest)
  | rightParen {rest : List Kind} : Closes (.symbol .rightParen :: rest)
  | comma {rest : List Kind} : Closes (.symbol .comma :: rest)
  | keyword {word : Keyword} {rest : List Kind} (h : word ∈ closing) : Closes (word.kind :: rest)

/-- The statement ends here, or one of the given clauses starts. -/
inductive Ends (keywords : List Keyword) : List Kind → Prop
  | eof {rest : List Kind} : Ends keywords (.eof :: rest)
  | rightParen {rest : List Kind} : Ends keywords (.symbol .rightParen :: rest)
  | keyword {word : Keyword} {rest : List Kind} (h : word ∈ keywords) :
    Ends keywords (word.kind :: rest)

/-- Where a part of a statement ends, no operator goes on. -/
theorem Closes.follows {floor : Nat} (h : Closes rest) : Follows floor rest := by
  cases h with
  | eof => exact .eof
  | rightParen => exact .rightParen
  | comma => exact .comma
  | @keyword word rest h =>
      have plain : word ≠ .WITH ∧ word ≠ .IS := by
        constructor
        all_goals
          rintro rfl
          exact absurd h (by decide)
      refine Follows.keyword word plain.1 plain.2 fun behind => ?_
      -- word by word: none of them starts an operator or a test
      simp only [closing, List.mem_cons, List.not_mem_nil, or_false] at h
      rcases h with rfl | rfl | rfl | rfl | rfl | rfl | rfl | rfl | rfl | rfl | rfl | rfl | rfl
      all_goals rfl

/-- Something is there, if only the end of the input. -/
theorem Closes.ne_nil (h : Closes rest) : rest ≠ [] := by
  cases h <;> exact List.cons_ne_nil _ _

/-- No alias stands where a part ends. -/
theorem Closes.no_alias (h : Closes rest) :
    (next rest).keyword? ≠ some .AS ∧ (next rest).identifier? = none := by
  cases h with
  | eof => exact ⟨nofun, rfl⟩
  | rightParen => exact ⟨nofun, rfl⟩
  | comma => exact ⟨nofun, rfl⟩
  | @keyword word rest h =>
      refine ⟨next_ne_keyword ?_, ?_⟩
      · rintro rfl
        exact absurd h (by decide)
      · have reserved : ∀ word ∈ closing, word.isReserved = true := by decide
        exact Keyword.identifier?_kind (reserved word h)

namespace Ends

variable {keywords : List Keyword}

/-- The end of a clause is the end of a part of it. -/
theorem closes (h : Ends keywords rest) (sub : ∀ word ∈ keywords, word ∈ closing) :
    Closes rest := by
  cases h with
  | eof => exact .eof
  | rightParen => exact .rightParen
  | keyword h => exact .keyword (sub _ h)

/-- More clauses may follow than do. -/
theorem mono {more : List Keyword} (h : Ends keywords rest)
    (sub : ∀ word ∈ keywords, word ∈ more) : Ends more rest := by
  cases h with
  | eof => exact .eof
  | rightParen => exact .rightParen
  | keyword h => exact .keyword (sub _ h)

/-- A clause that is none of the given ones is absent. -/
theorem ne_keyword (h : Ends keywords rest) {word : Keyword} (other : word ∉ keywords) :
    (next rest).keyword? ≠ some word := by
  cases h with
  | eof => exact nofun
  | rightParen => exact nofun
  | keyword h =>
      refine next_ne_keyword ?_
      rintro rfl
      exact other h

/-- No further item comes. -/
theorem ne_comma (h : Ends keywords rest) : next rest ≠ .symbol .comma := by
  cases h <;> exact nofun

/-- A clause before others is one more that may start here. -/
theorem clauseKinds {ls : List Kind} (h : Ends keywords (ls ++ rest)) (word : Keyword)
    (more : List Keyword) (body : Option (List Kind)) :
    Ends (word :: keywords) (SqlSelect.clauseKinds (word :: more) body ++ ls ++ rest) := by
  cases body with
  | none => exact h.mono fun _ => List.mem_cons_of_mem _
  | some body => exact .keyword List.mem_cons_self

/-- The grammar sees that the clause is over. -/
theorem endsClause (h : Ends keywords rest) {words : List Keyword}
    (sub : ∀ word ∈ keywords, word ∈ words) : Grammar.endsClause words (next rest) = true := by
  cases h with
  | eof => rfl
  | rightParen => rfl
  | @keyword word rest h =>
      have here : Grammar.endsClause words word.kind = word.kind.keyword?.any words.contains := by
        unfold Grammar.endsClause
        split
        next heq => cases heq
        next heq => cases heq
        next heq => cases heq
        next => rfl
      refine here.trans ?_
      rw [Keyword.keyword?_kind]
      exact List.contains_iff_mem.2 (sub word h)

end Ends

/-- What ends a list may stand behind each of its items, and so may a
comma. -/
theorem closes_inList {later : List Kind} (h : Closes rest)
    (hlater : later = rest ∨ next later = .symbol .comma) : Closes later :=
  of_end_or_comma h (fun _ => .comma) hlater

-- ======================================================= expressions

/-- An operand in parentheses, up to what follows it. -/
theorem reads_wrapped {e : Expr} (normal : e.Normal) (follows : Follows 0 rest)
    (more : rest ≠ []) : Reads (expression 0) e.wrapped rest e :=
  ((leads .everywhere normal).operand normal.operand 0).reads_expression follows more

/-- An operand in parentheses, up to where its part of the statement
ends. -/
theorem reads_wrapped_closes {e : Expr} (normal : e.Normal) (closes : Closes rest) :
    Reads (expression 0) e.wrapped rest e :=
  reads_wrapped normal closes.follows closes.ne_nil

/-- An expression that is no wildcard stands in parentheses. -/
theorem wrapped_operand {e : Expr} (operand : e.isOperand = true) :
    e.wrapped = inParens (e.kinds .everywhere) := by
  rw [Expr.wrapped, Expr.operandKinds, wrapIf,
    show Parens.everywhere.around 0 e = true from operand, if_pos rfl]

/-- What is read as an expression starts like one. -/
theorem opens_of_reads {ks : List Kind} {e : Expr} {floor : Nat}
    (h : Reads (expression floor) ks rest e) : Opens (ks ++ rest) := by
  obtain ⟨s', -, -, hread⟩ :=
    h { position := 0, rest := ks ++ rest, trial := false, events := [] } rfl
  exact opens_of_expressionWithin hread

-- ======================================================= select list

/-- An alias is read behind `AS`, or is absent. -/
theorem reads_optionalAlias (aliasName : Option String) (closes : Closes rest) :
    Reads optionalAlias (aliasKinds aliasName) rest aliasName := by
  cases aliasName with
  | none =>
      obtain ⟨noAs, noName⟩ := closes.no_alias
      refine (reads_consumeKeyword_absent noAs).none
        (runs_current (runs_else ?_ (Runs.refl _ rest)))
      show ¬(next rest).identifier?.isSome = true
      rw [noName]
      exact nofun
  | some name =>
      exact (reads_consumeKeyword .AS _).cons ((reads_identifier rest rfl).map (f := some))

/-- A column is read up to the next one. -/
theorem reads_column {c : Column} (normal : c.Normal) (closes : Closes rest) :
    Reads column c.kinds rest c := by
  obtain ⟨e, aliasName⟩ := c
  rcases normal with ⟨wild, rfl⟩ | normal
  · change e.isWildcard = true at wild
    have bare : e.wrapped = e.kinds .everywhere := operandKinds_wildcard .everywhere wild
    show Reads column (e.wrapped ++ []) rest _
    rw [List.append_nil, bare]
    refine Reads.last (reads_item_wildcard wild (continuesOperand_of_follows closes.follows)) ?_
    exact runs_if wild (Runs.refl _ rest)
  · change e.Normal at normal
    have plain : ¬e.isWildcard = true := by
      rw [(Expr.isOperand_iff.1 normal.operand).1]
      exact nofun
    -- what follows the expression is its alias, or what follows the column
    have behind : Follows 0 (aliasKinds aliasName ++ rest) ∧ aliasKinds aliasName ++ rest ≠ [] := by
      cases aliasName with
      | none => exact ⟨closes.follows, closes.ne_nil⟩
      | some name => exact ⟨Follows.keyword .AS nofun nofun fun _ => rfl, List.cons_ne_nil _ _⟩
    have reads := reads_wrapped normal behind.1 behind.2
    refine Reads.then (reads_item reads (opens_of_reads reads)) (runs_else plain ?_)
    exact (reads_optionalAlias aliasName closes).map (f := fun aliasName => Column.mk e aliasName)

/-- An entry of the select list starts with a parenthesis, a star or a
name, none of which is a keyword or ends a clause. -/
theorem column_starts {c : Column} (normal : c.Normal) (rest : List Kind) :
    (next (c.kinds ++ rest)).keyword? = none
      ∧ ∀ words, endsClause words (next (c.kinds ++ rest)) = false := by
  obtain ⟨e, aliasName⟩ := c
  rcases normal with ⟨wild, rfl⟩ | normal
  · cases e with
    | ref table name =>
        obtain rfl : name = Expr.star := eq_of_beq wild
        cases table with
        | none => exact ⟨rfl, fun _ => rfl⟩
        | some table => exact ⟨rfl, fun _ => rfl⟩
    | _ => cases wild
  · show (next (e.wrapped ++ aliasKinds aliasName ++ rest)).keyword? = none
      ∧ ∀ words, endsClause words (next (e.wrapped ++ aliasKinds aliasName ++ rest)) = false
    rw [wrapped_operand normal.operand]
    exact ⟨rfl, fun words => rfl⟩

/-- So does a select list. -/
theorem columns_starts {items : List Column} (filled : items ≠ [])
    (each : ∀ c ∈ items, c.Normal) (rest : List Kind) :
    (next (commas (items.map Column.kinds) ++ rest)).keyword? = none
      ∧ ∀ words, endsClause words (next (commas (items.map Column.kinds) ++ rest)) = false := by
  cases items with
  | nil => exact absurd rfl filled
  | cons c later =>
      obtain ⟨behind, -, split⟩ := commas_append Column.kinds c later rest
      rw [split]
      exact column_starts (each c List.mem_cons_self) behind

/-- The tokens of the select list. -/
abbrev columnsKinds (columns : Option (List Column)) : List Kind :=
  clauseKinds [] (columns.map fun cs => commas (cs.map Column.kinds))

/-- A select list is read, also an empty one. -/
theorem reads_columns {cs : Option (List Column)}
    (normal : ∀ items ∈ cs, items ≠ [] ∧ ∀ c ∈ items, c.Normal)
    (ends : Ends [.FROM, .WHERE, .GROUP, .HAVING, .ORDER, .LIMIT, .OFFSET] rest) :
    Reads columns (columnsKinds cs) rest cs := by
  cases cs with
  | none =>
      exact runs_current (runs_if (ends.endsClause (by decide)) (Runs.refl _ rest))
  | some items =>
      obtain ⟨filled, each⟩ := normal items rfl
      have closes : Closes rest := ends.closes (by decide)
      refine runs_current (runs_else ?_ ?_)
      · show ¬endsClause afterColumns (next (commas (items.map Column.kinds) ++ rest)) = true
        rw [(columns_starts filled each rest).2 afterColumns]
        exact nofun
      · refine (reads_commaSeparated filled ends.ne_comma ?_).map (f := some)
        exact fun c hc later hlater => reads_column (each c hc) (closes_inList closes hlater)

/-- The select list, or what stands in its place, starts with neither
`DISTINCT` nor `ALL`. -/
theorem columnsKinds_ne_keyword {cs : Option (List Column)} {keywords : List Keyword}
    {word : Keyword} (normal : ∀ items ∈ cs, items ≠ [] ∧ ∀ c ∈ items, c.Normal)
    (ends : Ends keywords rest) (other : word ∉ keywords) :
    (next (columnsKinds cs ++ rest)).keyword? ≠ some word := by
  cases cs with
  | none => exact ends.ne_keyword other
  | some items =>
      obtain ⟨filled, each⟩ := normal items rfl
      show (next (commas (items.map Column.kinds) ++ rest)).keyword? ≠ some word
      rw [(columns_starts filled each rest).1]
      exact nofun

/-- `DISTINCT` is read, or is absent. -/
theorem reads_distinct {d : Bool} (plain : ∀ word, word = .DISTINCT ∨ word = .ALL →
      (next rest).keyword? ≠ some word) :
    Reads distinct (if d then [Keyword.DISTINCT.kind] else []) rest d := by
  cases d with
  | true =>
      show Reads distinct [Keyword.DISTINCT.kind] rest true
      exact (reads_consumeKeyword .DISTINCT _).last (Runs.refl _ rest)
  | false =>
      show Reads distinct [] rest false
      refine (reads_consumeKeyword_absent (plain _ (Or.inl rfl))).none ?_
      exact (reads_consumeKeyword_absent (plain _ (Or.inr rfl))).none (Runs.refl _ rest)

-- ============================================================= FROM

/-- The words before a `JOIN` are counted one by one. -/
theorem joinWords_cons (word : Keyword) (later : List Kind) :
    joinWords (word.kind :: later)
      = if isJoinModifier word then word :: joinWords later else [] := by
  rw [joinWords, Keyword.keyword?_kind]

/-- A join starts with its `JOIN` or a word before it. -/
theorem startsJoin_kind (word : Keyword) :
    startsJoin word.kind = (word == .JOIN || isJoinModifier word) := by
  rw [startsJoin, Keyword.keyword?_kind, Option.any_some]

/-- A join starts with one of its words. -/
theorem join_starts {words : List Keyword}
    (modifiers : ∀ word ∈ words, isJoinModifier word = true) (ls : List Kind) :
    ∃ word later, words.map Keyword.kind ++ Keyword.JOIN.kind :: ls = Keyword.kind word :: later
      ∧ startsJoin word.kind = true := by
  cases words with
  | nil => exact ⟨_, _, rfl, startsJoin_kind _⟩
  | cons word words =>
      refine ⟨_, _, rfl, (startsJoin_kind _).trans ?_⟩
      rw [modifiers word List.mem_cons_self, Bool.or_true]

/-- The words before `JOIN` are all there is before it. -/
theorem joinWords_words {words : List Keyword}
    (modifiers : ∀ word ∈ words, isJoinModifier word = true) (rest : List Kind) :
    joinWords (words.map Keyword.kind ++ Keyword.JOIN.kind :: rest) = words := by
  induction words with
  | nil => exact joinWords_cons .JOIN rest
  | cons word words ih =>
      have first : isJoinModifier word = true := modifiers word List.mem_cons_self
      have later := ih fun word h => modifiers word (List.mem_cons_of_mem _ h)
      rw [List.map_cons, List.cons_append, joinWords_cons, if_pos first, later]

/-- The words and `JOIN` are passed first, and only then are they looked up. -/
theorem joinType_words {words : List Keyword}
    (modifiers : ∀ word ∈ words, isJoinModifier word = true) {s : State} {rest : List Kind}
    (hs : s.rest = words.map Keyword.kind ++ Keyword.JOIN.kind :: rest) :
    ∃ t : State, t.rest = rest ∧ t.position = s.position + (words.length + 1)
      ∧ joinType s = (match joinType? words with
        | some type => pure type
        | none => reject (.illegalJoinType (String.intercalate " "
            ((words ++ [Keyword.JOIN]).map Keyword.spelling)))
          s.position (s.position + words.length) : Parser JoinType) t := by
  have inner : .eof ∉ words.map Keyword.kind := by
    intro h
    obtain ⟨word, -, eof⟩ := List.mem_map.1 h
    cases eof
  have skipped : Reads (skip (words.map Keyword.kind).length) (words.map Keyword.kind)
      (Keyword.JOIN.kind :: rest) () := reads_skip _ inner
  rw [List.length_map] at skipped
  obtain ⟨u, hu, behind, hskip⟩ := skipped s hs
  obtain ⟨t, ht, last, hjoin⟩ := reads_expectKeyword .JOIN rest u hu
  rw [List.length_map] at behind
  refine ⟨t, ht, ?_, ?_⟩
  · rw [last, behind]
    rfl
  · -- the words are those at the front of the tokens that are left
    have passed : joinModifiers s = .ok words u := by
      rw [joinModifiers_apply, hs, joinWords_words modifiers rest, bind_apply, hskip]
      rfl
    rw [joinType_eq, position_bind, bind_apply, passed]
    show (position >>= _) u = _
    rw [position_bind]
    rw [bind_apply, hjoin, behind]
    rfl

/-- The words of a join are read as its type. -/
theorem reads_joinType {words : List Keyword} {type : JoinType}
    (modifiers : ∀ word ∈ words, isJoinModifier word = true)
    (named : joinType? words = some type) (rest : List Kind) :
    Reads joinType (words.map Keyword.kind ++ [Keyword.JOIN.kind]) rest type := by
  intro s hs
  rw [List.append_assoc] at hs
  obtain ⟨t, ht, position, found⟩ := joinType_words modifiers hs
  rw [named] at found
  refine ⟨t, ht, ?_, found⟩
  rw [position, List.length_append, List.length_map]
  rfl

/-- The words that are written for a join name it. -/
theorem modifiers_plain (type : JoinType) :
    (∀ word ∈ type.modifiers, isJoinModifier word = true)
      ∧ joinType? type.modifiers = some type := by
  cases type <;> decide

/-- The name of a table is read, with its schema. -/
theorem reads_tableName {schema : Option String} {name : String}
    (plain : next rest ≠ .symbol .dot) :
    Reads tableName (tableNameKinds schema name) rest (schema, name) := by
  cases schema with
  | none =>
      refine (reads_identifier _ rfl).cons ?_
      exact (reads_consume_absent plain).none (Runs.refl _ rest)
  | some schema =>
      refine (reads_identifier _ rfl).cons ((reads_consume .dot _).cons ?_)
      exact (reads_identifier rest rfl).map (f := fun name => (some schema, name))

/-- No parentheses are written behind a table. -/
theorem reads_emptyParens_absent (plain : next rest ≠ .symbol .leftParen) :
    Reads emptyParens [] rest () :=
  runs_peek (runs_peek (runs_else (fun here => plain here.1) (Runs.refl _ rest)))

/-- What follows the name of a table is neither a dot nor a parenthesis. -/
theorem next_aliasKinds (aliasName : Option String) (closes : Closes rest) (symbol : Symbol)
    (open_ : symbol = .dot ∨ symbol = .leftParen) :
    next (aliasKinds aliasName ++ rest) ≠ .symbol symbol := by
  cases aliasName with
  | none =>
      have follows : Follows 0 rest := closes.follows
      rcases open_ with rfl | rfl
      · exact follows.ne_dot
      · exact follows.ne_leftParen
  | some name => exact nofun

/-- A table is read with its alias. -/
theorem reads_table {schema aliasName : Option String} {name : String} (closes : Closes rest) :
    Reads table (tableNameKinds schema name ++ aliasKinds aliasName) rest
      (.table name schema aliasName none) := by
  refine Reads.then (reads_tableName (next_aliasKinds aliasName closes .dot (Or.inl rfl))) ?_
  refine (reads_emptyParens_absent
    (next_aliasKinds aliasName closes .leftParen (Or.inr rfl))).none ?_
  exact (reads_optionalAlias aliasName closes).map
    (f := fun aliasName => Source.table name schema aliasName none)

section Sources

variable {select : Parser Select}

/-- A statement in parentheses is read with its alias. -/
theorem reads_derivedTable {statement : Select} {ks : List Kind} (aliasName : String)
    (h : Reads select ks
      (.symbol .rightParen :: (aliasKinds (some aliasName) ++ rest)) statement)
    (closes : Closes rest) :
    Reads (derivedTable select) (inParens ks ++ aliasKinds (some aliasName)) rest
      (.derived statement aliasName none) := by
  have shape : inParens ks ++ aliasKinds (some aliasName)
      = .symbol .leftParen :: (ks ++ .symbol .rightParen :: aliasKinds (some aliasName)) := by
    simp [inParens]
  rw [shape]
  refine runs_expect fun start => Reads.then h (runs_expect fun stop => ?_)
  exact (reads_optionalAlias (some aliasName) closes).last (Runs.refl _ rest)

/-- A table starts with a name. -/
theorem reads_source_table {schema aliasName : Option String} {name : String}
    (closes : Closes rest) :
    Reads (source select) (tableNameKinds schema name ++ aliasKinds aliasName) rest
      (.table name schema aliasName none) := by
  refine runs_atSymbol (runs_else ?_ (reads_table closes))
  cases schema <;> exact nofun

/-- The parenthesis tells it from a table. -/
theorem reads_source_derived {statement : Select} {ks : List Kind} (aliasName : String)
    (h : Reads select ks
      (.symbol .rightParen :: (aliasKinds (some aliasName) ++ rest)) statement)
    (closes : Closes rest) :
    Reads (source select) (inParens ks ++ aliasKinds (some aliasName)) rest
      (.derived statement aliasName none) :=
  runs_atSymbol (runs_if rfl (reads_derivedTable aliasName h closes))

/-- A join is read with its entry and its condition. -/
theorem reads_joinedSource {words : List Keyword} {type : JoinType} {entry : Source} {on : Expr}
    {ks os : List Kind} (modifiers : ∀ word ∈ words, isJoinModifier word = true)
    (named : joinType? words = some type)
    (h : Reads (source select) ks (Keyword.ON.kind :: (os ++ rest)) entry)
    (hon : Reads (expression 0) os rest on) :
    Reads (joinedSource select)
      (words.map Keyword.kind ++ Keyword.JOIN.kind :: (ks ++ Keyword.ON.kind :: os)) rest
      (entry.withJoin ⟨type, on⟩) := by
  rw [← List.singleton_append, ← List.append_assoc]
  refine Reads.then (reads_joinType modifiers named _) (Reads.then h ?_)
  refine (reads_expectKeyword .ON _).cons ?_
  exact hon.map (f := fun on => entry.withJoin ⟨type, on⟩)

-- ========================================= rounds of the further entries

/-- Before anything but a comma or a join there is no further entry. -/
theorem reads_moreSources_stop (comma : next rest ≠ .symbol .comma)
    (join : startsJoin (next rest) = false) (count : Nat) :
    Reads (moreSources select count) [] rest [] := by
  cases count with
  | zero => exact Runs.refl _ rest
  | succ count =>
      refine (reads_consume_absent comma).none (runs_else nofun (runs_current ?_))
      exact runs_else (by rw [List.nil_append, join]; nofun) (Runs.refl _ rest)

/-- One round of the `FROM` list, for an entry behind a comma. -/
theorem runs_moreSources_comma {entry : Source} {ks : List Kind}
    (h : Reads (source select) ks rest entry) (count : Nat) :
    Runs (moreSources select (count + 1)) (.symbol .comma :: ks) rest
      (moreSources select count >>= fun later => pure (entry :: later)) :=
  (reads_consume .comma _).cons (runs_if rfl (h.last (Runs.refl _ rest)))

/-- Before a join the further entry is one that it introduces. -/
theorem runs_moreSources_joined {words : List Keyword}
    (modifiers : ∀ word ∈ words, isJoinModifier word = true) (ls : List Kind) (count : Nat) :
    Runs (moreSources select (count + 1)) [] (words.map Keyword.kind ++ Keyword.JOIN.kind :: ls)
      (joinedSource select >>= fun entry =>
        moreSources select count >>= fun later => pure (entry :: later)) := by
  obtain ⟨word, later, split, starts⟩ := join_starts modifiers ls
  have comma : next (word.kind :: later) ≠ .symbol .comma := nofun
  rw [split]
  refine (reads_consume_absent comma).none (runs_else nofun (runs_current ?_))
  exact runs_if starts (Runs.refl _ _)

/-- And one for an entry that is joined. -/
theorem runs_moreSources_join {words : List Keyword} {type : JoinType} {entry : Source} {on : Expr}
    {ks os : List Kind} (modifiers : ∀ word ∈ words, isJoinModifier word = true)
    (named : joinType? words = some type)
    (h : Reads (source select) ks (Keyword.ON.kind :: (os ++ rest)) entry)
    (hon : Reads (expression 0) os rest on) (count : Nat) :
    Runs (moreSources select (count + 1))
      (words.map Keyword.kind ++ Keyword.JOIN.kind :: (ks ++ Keyword.ON.kind :: os)) rest
      (moreSources select count >>= fun later => pure (entry.withJoin ⟨type, on⟩ :: later)) := by
  have joined := (reads_joinedSource modifiers named h hon).last (f := fun entry =>
    moreSources select count >>= fun later => pure (entry :: later)) (Runs.refl _ rest)
  have start : Runs (moreSources select (count + 1)) [] _ _ :=
    runs_moreSources_joined modifiers ((ks ++ Keyword.ON.kind :: os) ++ rest) count
  rw [← List.cons_append, ← List.append_assoc] at start
  exact start.trans joined

end Sources

-- ========================================================= GROUP BY

/-- An attempt at what is there succeeds. -/
theorem reads_attempt {p : Parser α} {a : α} {ks : List Kind} (h : Reads p ks rest a) :
    Reads (attempt p) ks rest (some a) := by
  intro s hs
  obtain ⟨t, ht, position, hp⟩ := h { s with trial := true } hs
  refine ⟨{ t with trial := s.trial }, ht, position, ?_⟩
  rw [attempt_eq, hp]
  rfl

/-- Without its first parenthesis a group is read as a list of one. -/
theorem reads_expressionList_single {e : Expr} (normal : e.Normal) (rest : List Kind) :
    Reads (expressionList expression) (e.kinds .everywhere) (.symbol .rightParen :: rest) [e] := by
  show Reads (commaSeparated (expression 0)) _ _ _
  rw [← commas_singleton (e.kinds .everywhere)]
  refine reads_commaSeparated (f := Expr.kinds .everywhere) (List.cons_ne_nil e []) nofun ?_
  intro x hx later hlater
  obtain rfl := List.mem_singleton.1 hx
  have closes : Closes later := closes_inList .rightParen hlater
  exact (leads .everywhere normal).reads_expression closes.follows closes.ne_nil

/-- A group is taken for the whole list if nothing follows it. -/
theorem reads_wrappedGroups {e : Expr} (normal : e.Normal) (rest : List Kind) :
    Reads wrappedGroups (e.kinds .everywhere ++ [.symbol .rightParen]) rest
      (if endsClause afterGroups (next rest) then some [e] else none) := by
  refine Reads.then (reads_attempt (reads_expressionList_single normal rest)) ?_
  refine (reads_consume .rightParen _).cons (runs_if rfl (runs_current ?_))
  show Runs (if endsClause afterGroups (next rest) = true then _ else _) [] rest _
  split
  next => exact Runs.refl _ rest
  next => exact Runs.refl _ rest

/-- What is done with a group that may be the whole list. -/
theorem runs_group {α : Type} {e : Expr} {f : Option (List Expr) → Parser α} {behind : List Kind}
    (normal : e.Normal) :
    Runs (advance >>= fun _ => wrappedGroups >>= f) e.wrapped behind
      (f (if endsClause afterGroups (next behind) then some [e] else none)) := by
  rw [wrapped_operand normal.operand]
  refine (reads_advance (k := .symbol .leftParen) nofun).cons ?_
  exact (reads_wrappedGroups normal behind).last (Runs.refl _ behind)

/-- The list to be grouped by is read, all its items in parentheses. -/
theorem reads_groups {es : List Expr} (filled : es ≠ []) (normal : ∀ e ∈ es, e.Normal)
    (ends : Ends [.HAVING, .ORDER, .LIMIT, .OFFSET] rest) :
    Reads groups (commas (es.map Expr.wrapped)) rest es := by
  have closes : Closes rest := ends.closes (by decide)
  have whole : Reads (expressionList expression) (commas (es.map Expr.wrapped)) rest es :=
    reads_commaSeparated filled ends.ne_comma fun e he later hlater =>
      reads_wrapped_closes (normal e he) (closes_inList closes hlater)
  cases es with
  | nil => exact absurd rfl filled
  | cons e later =>
      have hfirst := normal e List.mem_cons_self
      have split : commas ((e :: later).map Expr.wrapped) ++ rest
          = e.wrapped ++ ((later.flatMap fun x => .symbol .comma :: x.wrapped) ++ rest) := by
        rw [List.map_cons, commas_cons_eq, List.append_assoc]
      refine runs_atSymbol (runs_if ?_ ?_)
      · rw [split, wrapped_operand hfirst.operand]
        rfl
      · intro s hs
        obtain ⟨t, ht, position, hrun⟩ := runs_group hfirst s (hs.trans split)
        rw [get_bind, hrun]
        cases later with
        | nil =>
            have ended : endsClause afterGroups (next rest) = true := ends.endsClause (by decide)
            rw [List.map_singleton, commas_singleton]
            exact ⟨t, ht, position, by rw [List.flatMap_nil, List.nil_append, if_pos ended]⟩
        | cons second later =>
            -- a comma follows: the attempt is taken back, and the list read from its start
            exact whole { t.report (.reparsed s.position) with
              position := s.position, rest := s.rest } hs

-- ========================================================= ORDER BY

/-- A sort key is read with its direction. -/
theorem reads_sortKey {key : SortKey} (normal : key.expr.Normal) (closes : Closes rest)
    (plain : ∀ word, word = .DESC ∨ word = .ASC → (next rest).keyword? ≠ some word) :
    Reads sortKey key.kinds rest key := by
  obtain ⟨e, direction⟩ := key
  cases direction with
  | ascending =>
      refine Reads.then (reads_wrapped_closes normal closes) ?_
      refine (reads_consumeKeyword_absent (plain _ (Or.inl rfl))).none ?_
      exact (reads_consumeKeyword_absent (plain _ (Or.inr rfl))).none (Runs.refl _ rest)
  | descending =>
      have behind : Closes ([Keyword.DESC.kind] ++ rest) := .keyword (by decide)
      refine Reads.then (reads_wrapped_closes normal behind) ?_
      exact (reads_consumeKeyword .DESC _).cons (Runs.refl _ rest)

/-- So is the list of them. -/
theorem reads_order {keys : List SortKey} (filled : keys ≠ [])
    (normal : ∀ key ∈ keys, key.expr.Normal) (ends : Ends [.LIMIT, .OFFSET] rest) :
    Reads (commaSeparated sortKey) (commas (keys.map SortKey.kinds)) rest keys := by
  have closes : Closes rest := ends.closes (by decide)
  refine reads_commaSeparated filled ends.ne_comma fun key hkey later hlater => ?_
  refine reads_sortKey (normal key hkey) (closes_inList closes hlater) ?_
  rintro word hword
  rcases hlater with rfl | comma
  · refine ends.ne_keyword ?_
    rcases hword with rfl | rfl <;> decide
  · rw [comma]
    exact nofun

-- =========================================== LIMIT, OFFSET, FETCH

/-- A number of rows is read back, although it was written with a sign. -/
theorem reads_rowCount {rows : UInt64} (spelled : 0 ≤ rows.toInt64) (rest : List Kind) :
    Reads rowCount [.integer rows.toInt64] rest rows := by
  have unsigned : next ([.integer rows.toInt64] ++ rest) ≠ .symbol .minus := nofun
  refine runs_position fun start => (reads_consume_absent unsigned).none ?_
  refine runs_position fun here => runs_current ?_
  refine (reads_advance (k := .integer rows.toInt64) nofun).cons ?_
  refine runs_else (Int64.not_lt.2 spelled) ?_
  show Reads (pure rows.toInt64.toUInt64) [] rest rows
  rw [UInt64.toUInt64_toInt64]
  exact Runs.refl _ rest

/-- No word is written behind a number of rows. -/
theorem reads_rowWord_absent (ends : Ends [] rest) : Reads rowWord [] rest () := by
  refine (reads_consumeKeyword_absent (ends.ne_keyword nofun)).none ?_
  exact (reads_consumeKeyword_absent (ends.ne_keyword nofun)).none (Runs.refl _ rest)

/-- A limit is read as a number. -/
theorem reads_limitCount {rows : UInt64} (spelled : 0 ≤ rows.toInt64) (rest : List Kind) :
    Reads limitCount [.integer rows.toInt64] rest (some rows) := by
  have counted : (next ([.integer rows.toInt64] ++ rest)).keyword? ≠ some .ALL := nofun
  refine (reads_consumeKeyword_absent counted).none ?_
  exact (reads_rowCount spelled rest).map (f := some)

section Limits

variable {limits more : RowLimits} {ks ls : List Kind} {count : Nat} {rows : UInt64}

/-- The limit is read if none was said before. -/
theorem reads_rowLimit?_limit (first : limits.count = none) {found : Option UInt64}
    (said : Reads limitCount ks rest found) :
    Reads (rowLimit? limits) (Keyword.LIMIT.kind :: ks) rest
      (some { limits with count := some found }) := by
  refine runs_position fun here => runs_current ?_
  have word : (next (Keyword.LIMIT.kind :: ks ++ rest)).keyword? = some .LIMIT :=
    Keyword.LIMIT.keyword?_kind
  rw [word]
  refine runs_else (by simp [first]) ((reads_advance (k := Keyword.LIMIT.kind) nofun).cons ?_)
  exact said.map (f := fun found => some { limits with count := some found })

/-- So is the offset. -/
theorem reads_rowLimit?_offset (first : limits.offset = none)
    (said : Reads rowCount ks (ls ++ rest) rows) (word : Reads rowWord ls rest ()) :
    Reads (rowLimit? limits) (Keyword.OFFSET.kind :: (ks ++ ls)) rest
      (some { limits with offset := some rows }) := by
  refine runs_position fun here => runs_current ?_
  have offset : (next (Keyword.OFFSET.kind :: (ks ++ ls) ++ rest)).keyword? = some .OFFSET :=
    Keyword.OFFSET.keyword?_kind
  rw [offset]
  refine runs_else (by simp [first]) ((reads_advance (k := Keyword.OFFSET.kind) nofun).cons ?_)
  exact said.then (word.last (Runs.refl _ rest))

/-- The loop stops where none of the clauses starts. -/
theorem reads_rowLimits_stop
    (plain : ∀ word ∈ [Keyword.LIMIT, .OFFSET, .FETCH], (next rest).keyword? ≠ some word)
    (limits : RowLimits) (count : Nat) : Reads (rowLimits count limits) [] rest limits := by
  have absent : Reads (rowLimit? limits) [] rest none := by
    refine runs_position fun here => runs_current ?_
    rw [List.nil_append]
    split
    next word => exact absurd word (plain .LIMIT (by decide))
    next word => exact absurd word (plain .OFFSET (by decide))
    next word => exact absurd word (plain .FETCH (by decide))
    next => exact Runs.refl _ rest
  cases count with
  | zero => exact Runs.refl _ rest
  | succ count => exact absent.none (Runs.refl _ rest)

/-- At the end of the statement there are no more of them. -/
theorem Ends.reads_rowLimits_stop (ends : Ends [] rest) (limits : RowLimits) (count : Nat) :
    Reads (rowLimits count limits) [] rest limits :=
  Grammar.reads_rowLimits_stop (fun _ _ => ends.ne_keyword nofun) limits count

/-- `OFFSET` is the last of the clauses. -/
theorem reads_rowLimits_offset {offset : Option UInt64} (ends : Ends [] rest)
    (enough : (rowCountKinds .OFFSET offset).length ≤ count) (first : limits.offset = none)
    (spelled : ∀ rows ∈ offset, 0 ≤ rows.toInt64) :
    Reads (rowLimits count limits) (rowCountKinds .OFFSET offset) rest
      { limits with offset := offset } := by
  cases offset with
  | none =>
      have same : { limits with offset := none } = limits := by rw [← first]
      rw [same]
      exact ends.reads_rowLimits_stop limits _
  | some rows =>
      cases count with
      | zero => cases enough
      | succ count =>
          refine Reads.last (reads_rowLimit?_offset first (reads_rowCount (spelled rows rfl) _)
            (reads_rowWord_absent ends)) ?_
          exact ends.reads_rowLimits_stop _ count

/-- Both are read, in the order in which they are written. -/
theorem reads_rowLimits {limit : Limit} (ends : Ends [] rest)
    (enough : limit.kinds.length ≤ count) (normal : limit.Normal) :
    Reads (rowLimits count ⟨none, none⟩) limit.kinds rest
      ⟨limit.count.map some, limit.offset⟩ := by
  obtain ⟨rows, offset⟩ := limit
  obtain ⟨-, hcount, hoffset⟩ := normal
  cases rows with
  | none => exact reads_rowLimits_offset ends enough rfl hoffset
  | some rows =>
      cases count with
      | zero => cases enough
      | succ count =>
          have fewer : (rowCountKinds .OFFSET offset).length + 2 ≤ count + 1 := enough
          have left : (rowCountKinds .OFFSET offset).length ≤ count := by omega
          refine Reads.then (reads_rowLimit?_limit rfl (reads_limitCount (hcount rows rfl) _)) ?_
          exact reads_rowLimits_offset ends left rfl hoffset

/-- A limit that says something is what its clauses amount to. -/
theorem clause?_eq {limit : Limit} (normal : limit.Normal) :
    RowLimits.clause? ⟨limit.count.map some, limit.offset⟩ = some limit := by
  obtain ⟨rows, offset⟩ := limit
  have count : (rows.map some).join = rows := by
    cases rows <;> rfl
  show (if (rows.map some).join.isSome || offset.isSome then
    some (Limit.mk (rows.map some).join offset) else none) = _
  rw [count, if_pos (by simpa using normal.said)]

/-- A clause about rows is read, or is absent. -/
theorem reads_limitClause {limit : Option Limit} (normal : ∀ l ∈ limit, l.Normal)
    (ends : Ends [] rest) : Reads limitClause ((limit.map Limit.kinds).getD []) rest limit := by
  refine runs_tokensLeft ?_
  cases limit with
  | none => exact (ends.reads_rowLimits_stop ⟨none, none⟩ _).none (Runs.refl _ rest)
  | some limit =>
      have enough : limit.kinds.length ≤ (limit.kinds ++ rest).length := by
        rw [List.length_append]
        exact Nat.le_add_right _ _
      have reads := (reads_rowLimits ends enough (normal limit rfl)).map (f := RowLimits.clause?)
      rw [clause?_eq (normal limit rfl)] at reads
      exact reads

end Limits

end SqlSelect.Grammar
