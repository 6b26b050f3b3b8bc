/-
Statements are well formed.

Whoever takes a statement from a text may rely on more than its type says:
no list that is written is empty, no name is the empty text, a list of
expressions stands on the right of `IN` and nowhere else, row counts fit a
signed word. No single rule of the grammar sees to all of it. What a node
must have of its children is in `Expr.Formed`; what it must have of its own
names and values, `Expr.Valued`, goes back to the tokens that were read, and
both hold of every node of every statement, the derived tables included.
-/
import SqlSelect.Proofs.Spellable
import SqlSelect.Proofs.Parts

namespace SqlSelect

-- ============================================================ nodes

/-- A function has a name; a keyword that is called is in lower case, and
one of those that are called like functions. -/
def Callee.Valued : Callee → Prop
  | .name function => function ≠ ""
  | .keyword word => ∃ keyword : Keyword, keyword.isFunction = true ∧ word = keyword.word

/-- A type has a name, and its modifiers, if it has any, are not
negative. -/
structure DataType.Valued (target : DataType) : Prop where
  named : target.name ≠ ""
  config : ∀ values ∈ target.config, values ≠ [] ∧ ∀ n ∈ values, 0 ≤ n

namespace Expr

/-- The names and values of a node are ones that a text can give it. -/
def Valued : Expr → Prop
  | .ref table name => (∀ t ∈ table, t ≠ "") ∧ name ≠ ""
  | .parameter name => IsParameter name
  | .call function _ => function.Valued
  | .cast _ target => target.Valued
  | _ => True

/-- A list is the right side of a membership test, such a test has a list
there, and no other child of a node is a list. -/
def ListsPlaced : Expr → Prop
  | .binary op left right => left.isList = false ∧ right.isList = op.isMembership
  | e => ∀ c ∈ e.children, c.isList = false

/-- A list has an item and a `CASE` an arm. -/
def Filled : Expr → Prop
  | .list items => items ≠ []
  | .case _ arms _ => arms ≠ []
  | _ => True

/-- What holds of every node of an expression. -/
structure WellFormed (e : Expr) : Prop where
  values : e.Valued
  lists : e.ListsPlaced
  filled : e.Filled
  /-- A minus sign before a number is part of the number. -/
  signed : ∀ operand, e = .unary .neg operand → operand.isNumber = false

/-- An operand is no list. -/
theorem isList_of_isOperand {e : Expr} (operand : e.isOperand = true) : e.isList = false :=
  (isOperand_iff.1 operand).2

/-- Lists stand on the right of `IN`. -/
theorem Formed.listsPlaced {e : Expr} (formed : e.Formed) : e.ListsPlaced := by
  cases e with
  | binary op left right =>
      refine ⟨isList_of_isOperand formed.1, ?_⟩
      have hright := formed.2
      cases test : op.isMembership with
      | true =>
          rw [test] at hright
          exact hright
      | false =>
          rw [test] at hright
          exact isList_of_isOperand hright
  | call function args => exact formed.2
  | unary op operand =>
      intro c hc
      rw [List.mem_singleton.1 hc]
      exact isList_of_isOperand formed.1
  | cast operand target =>
      intro c hc
      rw [List.mem_singleton.1 hc]
      exact isList_of_isOperand formed.1
  | between negated value low high =>
      obtain ⟨hvalue, hlow, hhigh⟩ := formed
      intro c hc
      simp only [children, List.mem_cons, List.not_mem_nil, or_false] at hc
      rcases hc with rfl | rfl | rfl
      · exact isList_of_isOperand hvalue
      · exact isList_of_isOperand hlow
      · exact isList_of_isOperand hhigh
  | case operand arms otherwise => exact fun c hc => isList_of_isOperand (formed.2 c hc)
  | list items => exact fun c hc => isList_of_isOperand (formed.2 c hc)
  | _ =>
      intro c hc
      cases hc

/-- A node with its children in order and its values in order is well formed.
-/
theorem Formed.wellFormed {e : Expr} (formed : e.Formed) (values : e.Valued) : e.WellFormed := by
  refine ⟨values, formed.listsPlaced, ?_, ?_⟩
  · cases e with
    | list items => exact formed.1
    | case operand arms otherwise => exact formed.1
    | _ => trivial
  · rintro operand rfl
    exact formed.2 rfl

end Expr

-- =========================================================== values

/-- What is called has a name. -/
theorem Callee.valued_of_calls {k : Kind} {function : Callee} (lexed : k.Lexed)
    (called : k.Calls function) : function.Valued := by
  cases function with
  | name function => exact ne_empty_of_identifier? lexed called.1
  | keyword word =>
      obtain ⟨rfl, keyword, spelled, isFunction⟩ := called
      exact ⟨keyword, isFunction, Keyword.eq_word_of_ofWord? lexed.2 spelled⟩

/-- A type has a name. -/
theorem valued_of_yieldsType {target : DataType} {ks : List Kind} (h : YieldsType target ks)
    (lexed : ∀ k ∈ ks, k.Lexed) : target.Valued := by
  refine ⟨ne_empty_of_yieldsType h lexed, fun values present => ⟨?_, fun n hn => ?_⟩⟩
  · rintro rfl
    exact config_ne_nil_of_yieldsType h present
  · exact lexed (.integer n) (integer_mem_of_yieldsType h present hn)

/-- So has the table of a wildcard. -/
theorem valued_of_yieldsWildcard {e : Expr} {ks : List Kind} (h : YieldsWildcard e ks)
    (lexed : ∀ k ∈ ks, k.Lexed) : ∀ x ∈ e.nodes, x.Valued := by
  have star : Expr.star ≠ "" := by decide
  cases h with
  | all => exact Expr.forall_nodes ⟨nofun, star⟩ nofun
  | ofTable named =>
      refine Expr.forall_nodes ⟨fun t ht => ?_, star⟩ nofun
      obtain rfl := Option.some.inj ht
      exact ne_empty_of_identifier? (lexed _ List.mem_cons_self) named

/-- The names and values in an expression that was read from a text. -/
theorem valued_of_yields {e : Expr} {ks : List Kind} (h : Yields e ks)
    (lexed : ∀ k ∈ ks, k.Lexed) : ∀ x ∈ e.nodes, x.Valued := by
  induction h with
  | integer | numeric | string | true | false | null | signedInteger | signedNumeric =>
      exact Expr.forall_nodes trivial nofun
  | parameter name => exact Expr.forall_nodes (lexed (.parameter name) List.mem_cons_self) nofun
  | column named =>
      have filled := ne_empty_of_identifier? (lexed _ List.mem_cons_self) named.1
      exact Expr.forall_nodes ⟨nofun, filled⟩ nofun
  | @member k m table name named hmember =>
      have htable := ne_empty_of_identifier? (lexed k List.mem_cons_self) named.1
      have hname := ne_empty_of_anyName? (lexed m (by simp)) hmember.1
      refine Expr.forall_nodes ⟨fun t ht => ?_, hname⟩ nofun
      rwa [← Option.some.inj ht]
  | @call k function parts called args ih =>
      have hcallee := Callee.valued_of_calls (lexed k List.mem_cons_self) called
      refine Expr.forall_nodes hcallee fun arg harg => ?_
      obtain ⟨p, hp, rfl⟩ := List.mem_map.1 harg
      have inside : ∀ k ∈ p.2, k.Lexed := fun k hk =>
        lexed k (List.mem_cons_of_mem _ (mem_inParens_commas hp hk))
      by_cases wild : YieldsWildcard p.1 p.2
      · exact valued_of_yieldsWildcard wild inside
      · exact ih p hp wild inside
  | binary _ _ _ ihleft ihright =>
      have hleft := ihleft fun k hk => lexed k (by simp [hk])
      have hright := ihright fun k hk => lexed k (by simp [hk])
      refine Expr.forall_nodes trivial fun c hc => ?_
      simp only [Expr.children, List.mem_cons, List.not_mem_nil, or_false] at hc
      rcases hc with rfl | rfl
      · exact hleft
      · exact hright
  | @isIn op left ls parts membership _ filled _ ihleft ihitems =>
      have hleft := ihleft fun k hk => lexed k (by simp [hk])
      have hitems : ∀ x ∈ (Expr.list (parts.map Prod.fst)).nodes, x.Valued := by
        refine Expr.forall_nodes trivial fun item hitem => ?_
        obtain ⟨p, hp, rfl⟩ := List.mem_map.1 hitem
        exact ihitems p hp fun k hk =>
          lexed k (List.mem_append_right _ (mem_inParens_commas hp hk))
      refine Expr.forall_nodes trivial fun c hc => ?_
      simp only [Expr.children, List.mem_cons, List.not_mem_nil, or_false] at hc
      rcases hc with rfl | rfl
      · exact hleft
      · exact hitems
  | between _ _ _ ihvalue ihlow ihhigh =>
      have hvalue := ihvalue fun k hk => lexed k (by simp [hk])
      have hlow := ihlow fun k hk => lexed k (by simp [hk])
      have hhigh := ihhigh fun k hk => lexed k (by simp [hk])
      refine Expr.forall_nodes trivial fun c hc => ?_
      simp only [Expr.children, List.mem_cons, List.not_mem_nil, or_false] at hc
      rcases hc with rfl | rfl | rfl
      · exact hvalue
      · exact hlow
      · exact hhigh
  | prefixed _ _ _ ih | test _ _ ih =>
      have hoperand := ih fun k hk => lexed k (by simp [hk])
      refine Expr.forall_nodes trivial fun c hc => ?_
      rwa [List.mem_singleton.1 hc]
  | castTo _ htarget ih | castAs _ htarget ih =>
      have hoperand := ih fun k hk => lexed k (by simp [inParens, hk])
      have named := valued_of_yieldsType htarget fun k hk => lexed k (by simp [inParens, hk])
      refine Expr.forall_nodes named fun c hc => ?_
      rwa [List.mem_singleton.1 hc]
  | @case operand otherwise arms filled _ _ _ _ ihoperand ihconditions ihvalues ihotherwise =>
      refine Expr.forall_nodes trivial fun c hc => ?_
      rcases List.mem_append.1 hc with hc | hc
      · rcases List.mem_append.1 hc with hc | hc
        · obtain ⟨p, rfl, rfl⟩ := Option.map_eq_some_iff.1 (Option.mem_toList.1 hc)
          exact ihoperand p rfl fun k hk => lexed k (by simp [hk])
        · obtain ⟨pair, hpair, hc⟩ := List.mem_flatMap.1 hc
          obtain ⟨arm, harm, rfl⟩ := List.mem_map.1 hpair
          simp only [List.mem_cons, List.not_mem_nil, or_false] at hc
          rcases hc with rfl | rfl
          · exact ihconditions arm harm fun k hk => lexed k (mem_caseKinds harm (Or.inl hk))
          · exact ihvalues arm harm fun k hk => lexed k (mem_caseKinds harm (Or.inr hk))
      · obtain ⟨p, rfl, rfl⟩ := Option.map_eq_some_iff.1 (Option.mem_toList.1 hc)
        exact ihotherwise p rfl fun k hk => lexed k (by simp [hk])
  | paren _ ih => exact ih fun k hk => lexed k (by simp [inParens, hk])

/-- An expression of a statement: no list itself, and well formed in all
its nodes. -/
structure Expr.Sound (e : Expr) : Prop where
  single : e.isList = false
  nodes : ∀ x ∈ e.nodes, x.WellFormed

/-- An expression whose nodes all have their values is sound. -/
theorem Expr.Normal.sound {e : Expr} (normal : e.Normal) (values : ∀ x ∈ e.nodes, x.Valued) :
    e.Sound :=
  ⟨isList_of_isOperand normal.operand, fun x hx => (normal.formed x hx).wellFormed (values x hx)⟩

/-- So is every expression that is read from a text. -/
theorem sound_of_yields {e : Expr} {ks : List Kind} (h : Yields e ks)
    (lexed : ∀ k ∈ ks, k.Lexed) : e.Sound :=
  (normal_of_yields h lexed).sound (valued_of_yields h lexed)

-- =========================================================== limits

/-- A limit says something, in numbers of rows that fit a signed word. -/
structure Limit.WellFormed (limit : Limit) : Prop where
  said : limit.count.isSome = true ∨ limit.offset.isSome = true
  count : ∀ rows ∈ limit.count, rows.toNat < twoTo 63
  offset : ∀ rows ∈ limit.offset, rows.toNat < twoTo 63

/-- A word that is not negative when it is read as signed. -/
theorem toNat_lt_of_toInt64 {rows : UInt64} (positive : 0 ≤ rows.toInt64) :
    rows.toNat < twoTo 63 := by
  have signed : 0 ≤ rows.toInt64.toInt := Int64.le_iff_toInt_le.1 positive
  have value : rows.toInt64.toInt = (rows.toNat : Int).bmod 18446744073709551616 :=
    BitVec.toInt_eq_toNat_bmod rows.toBitVec
  have small : rows.toNat < 18446744073709551616 := rows.toNat_lt
  rw [value, Int.bmod_def] at signed
  show rows.toNat < 9223372036854775808
  omega

/-- Row counts that can be written are well formed. -/
theorem Limit.Normal.wellFormed {limit : Limit} (normal : limit.Normal) : limit.WellFormed :=
  ⟨normal.said, fun rows hrows => toNat_lt_of_toInt64 (normal.count rows hrows),
    fun rows hrows => toNat_lt_of_toInt64 (normal.offset rows hrows)⟩

-- ======================================================= statements

/-- What every statement of a text satisfies. -/
structure Select.WellFormed (s : Select) : Prop where
  columns : s.columns ≠ some []
  sources : s.sources ≠ some []
  groups : s.groups ≠ some []
  order : s.order ≠ some []
  /-- The first entry of the `FROM` list has nothing to join. -/
  first : ∀ entry ∈ (s.sources.getD []).head?, entry.join? = none
  names : ∀ name ∈ s.names, name ≠ ""
  limit : ∀ limit ∈ s.limit, limit.WellFormed
  expressions : ∀ e ∈ s.expressions, e.Sound

/-- An alias is a name. -/
theorem ne_empty_of_yieldsAlias {aliasName : Option String} {ks : List Kind}
    (h : YieldsAlias aliasName ks) (lexed : ∀ k ∈ ks, k.Lexed) : ∀ name ∈ aliasName, name ≠ "" := by
  rintro name rfl
  cases h with
  | bare named => exact ne_empty_of_identifier? (lexed _ List.mem_cons_self) named
  | behindAs named => exact ne_empty_of_identifier? (lexed _ (by simp)) named

/-- A column and its alias are sound. -/
theorem column_sound {c : Column} {ks : List Kind} (h : YieldsColumn c ks)
    (lexed : ∀ k ∈ ks, k.Lexed) : (∀ name ∈ c.aliasName, name ≠ "") ∧ c.expr.Sound := by
  cases h with
  | wildcard h =>
      obtain ⟨single, formed⟩ := formed_of_yieldsWildcard h
      have values := valued_of_yieldsWildcard h lexed
      exact ⟨nofun, single, fun x hx => (formed x hx).wellFormed (values x hx)⟩
  | expr he ha =>
      exact ⟨ne_empty_of_yieldsAlias ha fun k hk => lexed k (by simp [hk]),
        sound_of_yields he fun k hk => lexed k (by simp [hk])⟩

/-- A table and its schema have names. -/
theorem ne_empty_of_yieldsTableName {schema : Option String} {name : String} {ks : List Kind}
    (h : YieldsTableName schema name ks) (lexed : ∀ k ∈ ks, k.Lexed) :
    name ≠ "" ∧ ∀ found ∈ schema, found ≠ "" := by
  cases h with
  | bare named => exact ⟨ne_empty_of_identifier? (lexed _ (by simp)) named, nofun⟩
  | inSchema hschema named =>
      refine ⟨ne_empty_of_identifier? (lexed _ (by simp)) named, ?_⟩
      rintro found ⟨⟩
      exact ne_empty_of_identifier? (lexed _ (by simp)) hschema

/-- The names in an entry before its join. -/
theorem ne_empty_of_yieldsSource {entry : Source} {ks : List Kind} (h : YieldsSource entry ks)
    (lexed : ∀ k ∈ ks, k.Lexed) : ∀ name ∈ entry.names, name ≠ "" := by
  intro name hname
  cases h with
  | table named parens ha =>
      have aliases := ne_empty_of_yieldsAlias ha fun k hk => lexed k (by simp [hk])
      have table := ne_empty_of_yieldsTableName named fun k hk => lexed k (by simp [hk])
      rcases List.mem_cons.1 hname with rfl | hname
      · exact table.1
      · rcases List.mem_append.1 hname with hname | hname
        · exact table.2 name (Option.mem_toList.1 hname)
        · exact aliases name (Option.mem_toList.1 hname)
  | derived inner ha =>
      rw [List.mem_singleton.1 hname]
      exact ne_empty_of_yieldsAlias ha (fun k hk => lexed k (by simp [hk])) _ rfl

/-- So all names of an entry are filled. -/
theorem ne_empty_of_entryAmong {entry : Source} {ks : List Kind} (h : EntryAmong ks entry)
    (lexed : ∀ k ∈ ks, k.Lexed) : ∀ name ∈ entry.names, name ≠ "" := by
  obtain ⟨bare, js, hbare, within, same⟩ := h.bare
  have names : entry.names = bare.names := by
    rcases same with rfl | ⟨join, rfl⟩
    · rfl
    · exact names_withJoin bare join
  rw [names]
  exact ne_empty_of_yieldsSource hbare fun k hk => lexed k (within k hk)

/-- The first entry is read without a join. -/
theorem join?_of_yieldsFrom {sources : Option (List Source)} {ks : List Kind}
    (h : YieldsFrom sources ks) : ∀ entry ∈ (sources.getD []).head?, entry.join? = none := by
  intro entry hentry
  cases h with
  | absent => cases hentry
  | present first more =>
      obtain rfl := Option.some.inj hentry
      exact join?_of_yieldsSource first

/-- A statement that was read from a text is well formed. -/
theorem wellFormed_of_yieldsSelect {s : Select} {ks : List Kind} (h : YieldsSelect s ks)
    (lexed : ∀ k ∈ ks, k.Lexed) : s.WellFormed := by
  have hcolumn : ∀ c ∈ s.columns.getD [],
      (∀ name ∈ c.aliasName, name ≠ "") ∧ c.expr.Sound := by
    intro c hc
    obtain ⟨js, hjs, within⟩ := column_of_yieldsSelect h hc
    exact column_sound hjs fun k hk => lexed k (within k hk)
  have hentry : ∀ entry ∈ s.sources.getD [], ∀ name ∈ entry.names, name ≠ "" :=
    fun entry mem => ne_empty_of_entryAmong (entry_of_yieldsSelect h mem) lexed
  have hclause : ∀ e ∈ s.clauseExpressions, e.Sound := by
    intro e he
    obtain ⟨js, hjs, within⟩ := clauseExpression_of_yieldsSelect h he
    exact sound_of_yields hjs fun k hk => lexed k (within k hk)
  cases h with
  | mk hdistinct hcolumns hsources hfilter hgroups hhaving horder hlimits =>
      refine ⟨?_, ?_, ?_, ?_, join?_of_yieldsFrom hsources, ?_, ?_, ?_⟩
      · rintro rfl
        obtain ⟨js, hjs, -⟩ := hcolumns.mem rfl
        exact hjs.ne_nil rfl
      · rintro rfl
        cases hsources
      · rintro rfl
        obtain ⟨js, hjs, -⟩ := hgroups.mem rfl
        obtain ⟨is, his, -⟩ := hjs.separated
        exact his.ne_nil rfl
      · rintro rfl
        obtain ⟨js, hjs, -⟩ := horder.mem rfl
        exact hjs.ne_nil rfl
      · intro name hname
        rcases List.mem_append.1 hname with hname | hname
        · obtain ⟨c, hc, named⟩ := List.mem_filterMap.1 hname
          exact (hcolumn c hc).1 name named
        · obtain ⟨entry, mem, hname⟩ := List.mem_flatMap.1 hname
          exact hentry entry mem name hname
      · intro limit hlimit
        exact (normal_of_yieldsLimits hlimits limit hlimit).wellFormed
      · intro e he
        rw [Select.expressions_eq] at he
        rcases List.mem_append.1 he with he | he
        · obtain ⟨c, hc, rfl⟩ := List.mem_map.1 he
          exact (hcolumn c hc).2
        · exact hclause e he

/-- Every statement that a text is accepted as is well formed, and so are
the statements in its derived tables. -/
theorem wellFormed_of_parse {source : String} {statement : Select}
    (h : parse source = .ok statement) : ∀ inner ∈ statement.statements, inner.WellFormed :=
  forall_statements_of_parse wellFormed_of_yieldsSelect h

/-- A statement with a derived table, a membership test, a cast with a
modifier, a parameter and a called keyword. -/
theorem wellFormed_of_membership :
    ∃ statement : Select,
      statement = {
        distinct := false
        columns := some [⟨.call (.keyword "current_date") [], some "d"⟩,
          ⟨.case none [(.binary .notIn (.ref (some "x") "a")
            (.list [.integer (-1), .parameter "$2"]), .integer 1)] none, none⟩]
        sources := some [.derived ⟨false,
            some [⟨.cast (.ref none "a") ⟨"numeric", some [4]⟩, none⟩],
            some [.table "t" (some "s") none none], none, none, none, none,
            some ⟨some 3, none⟩⟩ "x" none,
          .table "u" none none (some ⟨.inner, .boolean true⟩)]
        filter := none
        groups := none
        having := none
        order := none
        limit := none }
      ∧ parse "SELECT current_date() d, CASE WHEN x.a NOT IN (-1, $2) THEN 1 END
        FROM (SELECT a::numeric(4) FROM s.t LIMIT 3) x JOIN u ON true" = .ok statement
      ∧ ∀ inner ∈ statement.statements, inner.WellFormed := by
  have text : (tokenize "SELECT current_date() d, CASE WHEN x.a NOT IN (-1, $2) THEN 1 END
        FROM (SELECT a::numeric(4) FROM s.t LIMIT 3) x JOIN u ON true").toOption.map
        (List.map Token.kind)
      = some [.word "select", .word "current_date", .symbol .leftParen, .symbol .rightParen,
        .word "d", .symbol .comma, .word "case", .word "when", .word "x", .symbol .dot, .word "a",
        .word "not", .word "in", .symbol .leftParen, .symbol .minus, .integer 1, .symbol .comma,
        .parameter "$2", .symbol .rightParen, .word "then", .integer 1, .word "end", .word "from",
        .symbol .leftParen, .word "select", .word "a", .symbol .doubleColon, .word "numeric",
        .symbol .leftParen, .integer 4, .symbol .rightParen, .word "from", .word "s",
        .symbol .dot, .word "t", .word "limit", .integer 3, .symbol .rightParen, .word "x",
        .word "join", .word "u", .word "on", .word "true", .eof] := by
    decide +kernel
  have h := parse_of_kinds text rfl
  exact ⟨_, rfl, h, wellFormed_of_parse h⟩

end SqlSelect
