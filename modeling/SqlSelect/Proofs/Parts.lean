/-
The parts of a statement.

A statement holds expressions, and in the entries of its `FROM` list it
holds other statements. Each of these parts has tokens of its own, which
are among the tokens of the whole. So what the tokens of a part say of it
holds wherever the part stands, and no proof about statements goes through
the derived tables again.

# Statements in statements

`Select.statements` lists a statement and those of its derived tables, at any
depth. `EntryAmong` is the one induction over the entries of `FROM`: it says
that an entry has tokens among those of the list, and what joins it. From it
comes every other part, since a part of a statement is a column, an expression
of one of the clauses, or stands in an entry.

# What carries over

`forall_statements_of_parse` is how the tokens are used: what holds of every
statement that has tokens of a text holds of all statements in a statement that
is read from one.
-/
import SqlSelect.Proofs.NormalForm
import SqlSelect.Proofs.Sound.Select

namespace SqlSelect

-- ======================================================= statements

mutual

/-- The statement and all statements in its derived tables. -/
def Select.statements : Select → List Select
  | ⟨distinct, columns, sources, filter, groups, having, order, limit⟩ =>
    ⟨distinct, columns, sources, filter, groups, having, order, limit⟩
      :: sourceListStatements sources

/-- The statements in an entry of a `FROM` list. -/
def Source.statements : Source → List Select
  | .table .. => []
  | .derived statement _ _ => statement.statements

/-- The statements in a `FROM` list that may be absent. -/
def sourceListStatements : Option (List Source) → List Select
  | none => []
  | some entries => sourceStatements entries

/-- The statements in the entries of a `FROM` list. -/
def sourceStatements : List Source → List Select
  | [] => []
  | entry :: later => entry.statements ++ sourceStatements later

end

/-- The conditions of the joins of a `FROM` list. -/
def joinConditions (entries : List Source) : List Expr :=
  entries.filterMap fun entry => entry.join?.map Join.on

/-- The expressions of the clauses behind the select list. -/
def Select.clauseExpressions (s : Select) : List Expr :=
  joinConditions (s.sources.getD []) ++ s.filter.toList ++ s.groups.getD []
    ++ s.having.toList ++ (s.order.getD []).map SortKey.expr

/-- All nodes of the expressions of several statements. -/
def statementNodes (statements : List Select) : List Expr :=
  statements.flatMap fun inner => inner.expressions.flatMap Expr.nodes

/-- All nodes of the expressions of a statement and of its derived
tables. -/
def Select.nodes (s : Select) : List Expr := statementNodes s.statements

/-- The names in an entry of a `FROM` list, a derived table's own statement
apart. -/
def Source.names : Source → List String
  | .table name schema aliasName _ => name :: (schema.toList ++ aliasName.toList)
  | .derived _ aliasName _ => [aliasName]

/-- The names that the select list and the `FROM` list give and use. -/
def Select.names (s : Select) : List String :=
  (s.columns.getD []).filterMap Column.aliasName ++ (s.sources.getD []).flatMap Source.names

theorem Select.expressions_eq (s : Select) :
    s.expressions = (s.columns.getD []).map Column.expr ++ s.clauseExpressions := by
  unfold Select.expressions Select.clauseExpressions joinConditions
  simp only [List.append_assoc]

theorem joinConditions_cons (entry : Source) (later : List Source) :
    joinConditions (entry :: later)
      = (entry.join?.map Join.on).toList ++ joinConditions later := by
  unfold joinConditions
  cases h : entry.join? with
  | none => simp [h]
  | some join => simp [h]

theorem mem_joinConditions {entries : List Source} {e : Expr} (h : e ∈ joinConditions entries) :
    ∃ entry ∈ entries, ∃ join, entry.join? = some join ∧ join.on = e := by
  obtain ⟨entry, hentry, h⟩ := List.mem_filterMap.1 h
  obtain ⟨join, hjoin, hon⟩ := Option.map_eq_some_iff.1 h
  exact ⟨entry, hentry, join, hjoin, hon⟩

theorem statements_withJoin (entry : Source) (join : Join) :
    (entry.withJoin join).statements = entry.statements := by
  cases entry <;> simp [Source.withJoin, Source.statements]

theorem names_withJoin (entry : Source) (join : Join) :
    (entry.withJoin join).names = entry.names := by
  cases entry <;> rfl

theorem sourceStatements_eq (entries : List Source) :
    sourceStatements entries = entries.flatMap Source.statements := by
  induction entries with
  | nil => rfl
  | cons entry later ih => rw [sourceStatements, ih, List.flatMap_cons]

/-- The statements of a statement: itself, and those in its entries. -/
theorem Select.statements_eq (s : Select) :
    s.statements = s :: (s.sources.getD []).flatMap Source.statements := by
  obtain ⟨distinct, columns, sources, filter, groups, having, order, limit⟩ := s
  rw [Select.statements]
  cases sources with
  | none => rfl
  | some entries => rw [sourceListStatements, sourceStatements_eq, Option.getD_some]

theorem Select.mem_statements_iff {s inner : Select} :
    inner ∈ s.statements
      ↔ inner = s ∨ ∃ entry ∈ s.sources.getD [], inner ∈ entry.statements := by
  rw [Select.statements_eq, List.mem_cons, List.mem_flatMap]

-- ========================================================== entries

/-- An entry of the `FROM` list with its tokens among the given ones. A
join adds its condition, which has tokens of its own. -/
inductive EntryAmong (kinds : List Kind) : Source → Prop
  | plain {entry : Source} {es : List Kind} (h : YieldsSource entry es)
    (within : ∀ k ∈ es, k ∈ kinds) : EntryAmong kinds entry
  | joined {entry : Source} {join : Join} {es os : List Kind} (h : YieldsSource entry es)
    (within : ∀ k ∈ es, k ∈ kinds) (hon : Yields join.on os) (inside : ∀ k ∈ os, k ∈ kinds) :
    EntryAmong kinds (entry.withJoin join)

namespace EntryAmong

theorem mono {ks ls : List Kind} {entry : Source} (h : EntryAmong ks entry)
    (more : ∀ k ∈ ks, k ∈ ls) : EntryAmong ls entry := by
  cases h with
  | plain h within => exact .plain h fun k hk => more k (within k hk)
  | joined h within hon inside =>
      exact .joined h (fun k hk => more k (within k hk)) hon fun k hk => more k (inside k hk)

/-- The entry before its join. -/
theorem bare {ks : List Kind} {entry : Source} (h : EntryAmong ks entry) :
    ∃ bare js, YieldsSource bare js ∧ (∀ k ∈ js, k ∈ ks)
      ∧ (entry = bare ∨ ∃ join, entry = bare.withJoin join) := by
  cases h with
  | plain h within => exact ⟨_, _, h, within, Or.inl rfl⟩
  | joined h within => exact ⟨_, _, h, within, Or.inr ⟨_, rfl⟩⟩

/-- The condition of the join. -/
theorem condition {ks : List Kind} {entry : Source} (h : EntryAmong ks entry) {join : Join}
    (hjoin : entry.join? = some join) : ∃ js, Yields join.on js ∧ ∀ k ∈ js, k ∈ ks := by
  cases h with
  | plain h within =>
      rw [join?_of_yieldsSource h] at hjoin
      cases hjoin
  | joined h within hon inside =>
      rw [Source.join?_withJoin] at hjoin
      obtain rfl := Option.some.inj hjoin
      exact ⟨_, hon, inside⟩

/-- The statement of a derived table. -/
theorem derived {ks : List Kind} {statement : Select} {aliasName : String} {join : Option Join}
    (h : EntryAmong ks (.derived statement aliasName join)) :
    ∃ js, YieldsSelect statement js ∧ ∀ k ∈ js, k ∈ ks := by
  obtain ⟨bare, js, hbare, within, same⟩ := h.bare
  cases hbare with
  | table => rcases same with same | ⟨join, same⟩ <;> cases same
  | @derived inner name ls as hinner ha =>
      have found : inner = statement := by
        rcases same with same | ⟨join, same⟩ <;> cases same <;> rfl
      obtain rfl := found
      exact ⟨ls, hinner, fun k hk => within k (by simp [inParens, hk])⟩

end EntryAmong

theorem entry_of_yieldsMore {entries : List Source} {ks : List Kind} (h : YieldsMore entries ks)
    {entry : Source} (mem : entry ∈ entries) : EntryAmong ks entry :=
  match h with
  | .done => nomatch mem
  | .comma hentry more => by
      rcases List.mem_cons.1 mem with rfl | mem
      · exact .plain hentry fun k hk => by simp [hk]
      · exact (entry_of_yieldsMore more mem).mono fun k hk => by simp [hk]
  | .join _ hentry hon more => by
      rcases List.mem_cons.1 mem with rfl | mem
      · exact .joined hentry (fun k hk => by simp [hk]) hon fun k hk => by simp [hk]
      · exact (entry_of_yieldsMore more mem).mono fun k hk => by simp [hk]

theorem entry_of_yieldsFrom {sources : Option (List Source)} {ks : List Kind}
    (h : YieldsFrom sources ks) {entry : Source} (mem : entry ∈ sources.getD []) :
    EntryAmong ks entry := by
  cases h with
  | absent => cases mem
  | present first more =>
      rcases List.mem_cons.1 mem with rfl | mem
      · exact .plain first fun k hk => by simp [hk]
      · exact (entry_of_yieldsMore more mem).mono fun k hk => by simp [hk]

-- ============================================================ parts

theorem entry_of_yieldsSelect {s : Select} {ks : List Kind} (h : YieldsSelect s ks)
    {entry : Source} (mem : entry ∈ s.sources.getD []) : EntryAmong ks entry := by
  cases h with
  | mk _ _ hsources => exact (entry_of_yieldsFrom hsources mem).mono fun k hk => by simp [hk]

theorem column_of_yieldsSelect {s : Select} {ks : List Kind} (h : YieldsSelect s ks) {c : Column}
    (mem : c ∈ s.columns.getD []) : ∃ js, YieldsColumn c js ∧ ∀ k ∈ js, k ∈ ks := by
  cases h with
  | mk _ hcolumns =>
      obtain ⟨js, hjs, within⟩ := hcolumns.mem_items mem
      exact ⟨js, hjs, fun k hk => by simp [within k hk]⟩

/-- An expression behind the select list is no wildcard. -/
theorem clauseExpression_of_yieldsSelect {s : Select} {ks : List Kind} (h : YieldsSelect s ks)
    {e : Expr} (mem : e ∈ s.clauseExpressions) : ∃ js, Yields e js ∧ ∀ k ∈ js, k ∈ ks := by
  cases h with
  | mk hdistinct hcolumns hsources hfilter hgroups hhaving horder hlimits =>
      simp only [Select.clauseExpressions, List.mem_append] at mem
      rcases mem with (((mem | mem) | mem) | mem) | mem
      · obtain ⟨entry, hentry, join, hjoin, rfl⟩ := mem_joinConditions mem
        obtain ⟨js, hjs, within⟩ := (entry_of_yieldsFrom hsources hentry).condition hjoin
        exact ⟨js, hjs, fun k hk => by simp [within k hk]⟩
      · obtain ⟨js, hjs, within⟩ := hfilter.mem (Option.mem_toList.1 mem)
        exact ⟨js, hjs, fun k hk => by simp [within k hk]⟩
      · obtain ⟨js, hjs, within⟩ := groups_mem hgroups mem
        exact ⟨js, hjs, fun k hk => by simp [within k hk]⟩
      · obtain ⟨js, hjs, within⟩ := hhaving.mem (Option.mem_toList.1 mem)
        exact ⟨js, hjs, fun k hk => by simp [within k hk]⟩
      · obtain ⟨key, hkey, rfl⟩ := List.mem_map.1 mem
        obtain ⟨js, hjs, within⟩ := horder.mem_items hkey
        obtain ⟨is, his, inside⟩ := hjs.yields
        exact ⟨is, his, fun k hk => by simp [within k (inside k hk)]⟩

section Normal

variable {s : Select} {ks : List Kind} (h : YieldsSelect s ks) (lexed : ∀ k ∈ ks, k.Lexed)

include h lexed

theorem normal_columns : ∀ c ∈ s.columns.getD [], c.Normal := by
  intro c hc
  obtain ⟨js, hjs, within⟩ := column_of_yieldsSelect h hc
  exact normal_of_yieldsColumn hjs fun k hk => lexed k (within k hk)

theorem normal_clauseExpressions : ∀ e ∈ s.clauseExpressions, e.Normal := by
  intro e he
  obtain ⟨js, hjs, within⟩ := clauseExpression_of_yieldsSelect h he
  exact normal_of_yields hjs fun k hk => lexed k (within k hk)

/-- Every node of a statement that was read from a text is formed. -/
theorem formed_of_yieldsSelect : ∀ e ∈ s.expressions, ∀ x ∈ e.nodes, x.Formed := by
  intro e he
  rw [Select.expressions_eq] at he
  rcases List.mem_append.1 he with he | he
  · obtain ⟨c, hc, rfl⟩ := List.mem_map.1 he
    exact (normal_columns h lexed c hc).formed
  · exact (normal_clauseExpressions h lexed e he).formed

end Normal

/-- The statements of an entry are read from tokens of its own. -/
theorem statement_of_entry (entry : Source) :
    ∀ {ks : List Kind}, EntryAmong ks entry → ∀ inner ∈ entry.statements,
      ∃ js, YieldsSelect inner js ∧ ∀ k ∈ js, k ∈ ks := by
  induction entry using Source.entryInduction with
  | table name schema aliasName join =>
      intro ks h inner mem
      cases mem
  | derived statement aliasName join ih =>
      intro ks h inner mem
      obtain ⟨js, hjs, within⟩ := h.derived
      rcases Select.mem_statements_iff.1 mem with rfl | ⟨entry, hentry, mem⟩
      · exact ⟨js, hjs, within⟩
      · have listed : ∃ entries, statement.sources = some entries ∧ entry ∈ entries := by
          cases written : statement.sources with
          | none => rw [written] at hentry; cases hentry
          | some entries => exact ⟨entries, rfl, by rwa [written] at hentry⟩
        obtain ⟨entries, written, hentry'⟩ := listed
        obtain ⟨ls, hls, inside⟩ :=
          ih entries written entry hentry' (entry_of_yieldsSelect hjs hentry) inner mem
        exact ⟨ls, hls, fun k hk => within k (inside k hk)⟩

/-- Every statement within a statement is read from tokens of its own. -/
theorem statement_of_yieldsSelect {s : Select} {ks : List Kind} (h : YieldsSelect s ks) :
    ∀ inner ∈ s.statements, ∃ js, YieldsSelect inner js ∧ ∀ k ∈ js, k ∈ ks := by
  intro inner mem
  rcases Select.mem_statements_iff.1 mem with rfl | ⟨entry, hentry, mem⟩
  · exact ⟨ks, h, fun k hk => hk⟩
  · exact statement_of_entry entry (entry_of_yieldsSelect h hentry) inner mem

/-- What holds of every statement that is read from tokens of a text holds
of the statement of a text and of those in its derived tables. -/
theorem forall_statements_of_parse {P : Select → Prop}
    (each : ∀ {s ks}, YieldsSelect s ks → (∀ k ∈ ks, k.Lexed) → P s) {source : String}
    {statement : Select} (h : parse source = .ok statement) :
    ∀ inner ∈ statement.statements, P inner := by
  obtain ⟨tokens, -, yields, lexed⟩ := parse_yields h
  intro inner mem
  generalize tokens.map Token.kind = kinds at yields lexed
  cases yields with
  | plain h | terminated h =>
      obtain ⟨js, hjs, within⟩ := statement_of_yieldsSelect h inner mem
      exact each hjs fun k hk => lexed k (List.mem_append_left _ (within k hk))

/-- Every node of the statement of a text is formed. -/
theorem formed_of_parse {source : String} {statement : Select}
    (h : parse source = .ok statement) : ∀ x ∈ statement.nodes, x.Formed := by
  intro x hx
  obtain ⟨inner, hinner, hx⟩ := List.mem_flatMap.1 hx
  obtain ⟨e, he, hx⟩ := List.mem_flatMap.1 hx
  exact forall_statements_of_parse formed_of_yieldsSelect h inner hinner e he x hx

end SqlSelect
