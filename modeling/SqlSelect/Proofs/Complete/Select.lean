/-
The grammar reads the statements that are written.

The clauses of a statement are read one behind the other, each up to the
keyword of the next that is there.

# Bounds

The statements in a `FROM` list have fewer tokens than the statement has, so
the bound on the depth is never reached. Every lemma about a part of the list
asks for a bound that the tokens of the part do not exceed (`enough`), and the
parentheses of a derived table are what makes it smaller inside. The induction
follows the normal form of the statement, so that the lemmas about statements,
entries and lists of entries call one another as their definitions do.
-/
import SqlSelect.Proofs.Complete.Clause

namespace SqlSelect.Grammar

variable {α : Type} {rest : List Kind}

-- ======================================================= statements

/-- A clause that may be absent, before what ends it. -/
theorem reads_clauseKinds {keyword : Keyword} {more : List Keyword} {body : Parser α}
    {o : Option α} {f : α → List Kind} (absent : (next rest).keyword? ≠ some keyword)
    (present : ∀ a ∈ o, Reads body (more.map Keyword.kind ++ f a) rest a) :
    Reads (clause keyword body) (clauseKinds (keyword :: more) (o.map f)) rest o := by
  cases o with
  | none => exact reads_clause_absent absent
  | some a => exact reads_clause (present a rfl)

/-- What stands behind `BY` is read behind it. -/
theorem reads_afterBy {body : Parser α} {a : α} {ks : List Kind} (h : Reads body ks rest a) :
    Reads (afterBy body) ([Keyword.BY].map Keyword.kind ++ ks) rest a :=
  (reads_expectKeyword .BY _).cons h

/-- What precedes the row counts ends where one of their clauses starts. -/
theorem limit_ends (limit : Option Limit) (ends : Ends [] rest) :
    Ends [.LIMIT, .OFFSET] ((limit.map Limit.kinds).getD [] ++ rest) := by
  cases limit with
  | none => exact ends.mono nofun
  | some limit =>
      obtain ⟨rows, offset⟩ := limit
      cases rows with
      | some rows => exact .keyword (by decide)
      | none =>
          cases offset with
          | some offset => exact .keyword (by decide)
          | none => exact ends.mono nofun

/-- And what precedes `FROM` where `FROM` starts. -/
theorem from_ends (sources : Option (List Source)) {keywords : List Keyword} {ls : List Kind}
    (ends : Ends keywords (ls ++ rest)) :
    Ends (.FROM :: keywords) (sourceListKinds sources ++ ls ++ rest) := by
  cases sources with
  | none =>
      rw [sourceListKinds]
      exact ends.mono fun _ => List.mem_cons_of_mem _
  | some entries =>
      rw [sourceListKinds]
      exact .keyword List.mem_cons_self

/-- The keywords of the clauses behind the `FROM` clause. -/
def afterSources : List Keyword := [.WHERE, .GROUP, .HAVING, .ORDER, .LIMIT, .OFFSET]

/-- A statement is read if its `FROM` clause is. -/
theorem reads_selectOf {inner : Parser Select} {s : Select} (normal : s.Normal)
    (ends : Ends [] rest)
    (from_ : ∀ rest, Ends afterSources rest →
      Reads (clause .FROM (sources inner)) (sourceListKinds s.sources) rest s.sources) :
    Reads (selectOf inner) s.kinds rest s := by
  obtain ⟨distinct, columns, sources, filter, groups, having, order, limit⟩ := s
  obtain ⟨hcolumns, -, hfilter, hgroups, hhaving, horder, hlimit⟩ := normal
  have atLimit := limit_ends limit ends
  have atOrder := atLimit.clauseKinds .ORDER [.BY]
    (order.map fun ks => commas (ks.map SortKey.kinds))
  have atHaving := atOrder.clauseKinds .HAVING [] (having.map Expr.wrapped)
  have atGroups := atHaving.clauseKinds .GROUP [.BY]
    (groups.map fun es => commas (es.map Expr.wrapped))
  have atFilter := atGroups.clauseKinds .WHERE [] (filter.map Expr.wrapped)
  have atFrom := from_ends sources atFilter
  rw [Select.kinds]
  simp only [List.append_assoc]
  refine (reads_expectKeyword .SELECT _).cons ?_
  refine Reads.then (reads_distinct ?_) ?_
  · intro word hword
    rw [List.append_assoc]
    refine columnsKinds_ne_keyword hcolumns atFrom ?_
    rcases hword with rfl | rfl <;> decide
  refine Reads.then (reads_columns hcolumns atFrom) ?_
  refine Reads.then (from_ _ atFilter) ?_
  refine Reads.then (reads_clauseKinds (atGroups.ne_keyword (by decide)) fun e he => ?_) ?_
  · exact reads_wrapped_closes (hfilter e he) (atGroups.closes (by decide))
  refine Reads.then (reads_clauseKinds (atHaving.ne_keyword (by decide)) fun es hes => ?_) ?_
  · exact reads_afterBy (reads_groups (hgroups es hes).1 (hgroups es hes).2 atHaving)
  refine Reads.then (reads_clauseKinds (atOrder.ne_keyword (by decide)) fun e he => ?_) ?_
  · exact reads_wrapped_closes (hhaving e he) (atOrder.closes (by decide))
  refine Reads.then (reads_clauseKinds (atLimit.ne_keyword (by decide)) fun keys hkeys => ?_) ?_
  · exact reads_afterBy (reads_order (horder keys hkeys).1 (horder keys hkeys).2 atLimit)
  exact (reads_limitClause hlimit ends).map
    (f := fun limit => Select.mk distinct columns sources filter groups having order limit)

-- ================================================ statements in FROM

/-- Behind an entry comes another entry or what ends the clause. -/
theorem moreSources_closes (entries : List Source) (ends : Ends afterSources rest) :
    Closes (moreSourceKinds entries ++ rest) := by
  cases entries with
  | nil =>
      rw [moreSourceKinds]
      exact ends.closes (by decide)
  | cons entry later =>
      rw [moreSourceKinds]
      cases entry.join? with
      | none => exact .comma
      | some join =>
          obtain ⟨type, on⟩ := join
          cases type
          all_goals exact .keyword (by decide)

/-- The first entry is not joined to anything. -/
theorem join?_of_normal {entry : Source} (h : entry.Normal) : entry.join? = none := by
  cases h <;> rfl

/-- No join starts where the clause ends. -/
theorem Ends.no_join (ends : Ends afterSources rest) : startsJoin (next rest) = false := by
  cases ends with
  | eof => rfl
  | rightParen => rfl
  | @keyword word rest h =>
      have others : ∀ word ∈ afterSources, (word == .JOIN || isJoinModifier word) = false := by
        decide
      exact (startsJoin_kind word).trans (others word h)

/-- Every further entry has a token. -/
theorem length_le_moreSources (entries : List Source) :
    entries.length ≤ (moreSourceKinds entries).length := by
  induction entries with
  | nil => exact Nat.zero_le _
  | cons entry later ih =>
      have link : 0 < (linkedKinds entry.kinds entry.join?).length := by
        cases entry.join? with
        | none => exact Nat.succ_pos _
        | some join =>
            rw [linkedKinds, List.length_append, List.length_cons]
            omega
      rw [moreSourceKinds, List.length_append, List.length_cons]
      omega

/-- The `FROM` clause has fewer tokens than the statement. -/
theorem length_sourceList_lt (s : Select) :
    (sourceListKinds s.sources).length < s.kinds.length := by
  obtain ⟨distinct, columns, sources, filter, groups, having, order, limit⟩ := s
  rw [Select.kinds]
  simp only [List.length_cons, List.length_append]
  omega

mutual

/-- Every normal statement is read from its tokens. -/
theorem reads_selectWithin {s : Select} (h : s.Normal) {bound : Nat} {rest : List Kind}
    (enough : s.kinds.length ≤ bound) (ends : Ends [] rest) :
    Reads (selectWithin bound) s.kinds rest s :=
  match h with
  | .mk _ sources _ _ _ _ _ => by
      have fewer := length_sourceList_lt s
      cases bound with
      | zero => omega
      | succ bound =>
          have left : (sourceListKinds s.sources).length ≤ bound := by omega
          exact reads_selectOf h ends fun later hlater => reads_from sources left hlater

/-- An entry of `FROM` is read, the statement inside it too. -/
theorem reads_source {entry : Source} (h : entry.Normal) {bound : Nat} {rest : List Kind}
    (enough : entry.kinds.length ≤ bound) (closes : Closes rest) :
    Reads (source (selectWithin bound)) entry.kinds rest entry :=
  match h with
  | .table => by
      rw [Source.kinds]
      exact reads_source_table closes
  | @Source.Normal.derived statement aliasName inner => by
      rw [Source.kinds] at enough ⊢
      refine reads_source_derived aliasName (reads_selectWithin inner ?_ .rightParen) closes
      simp only [inParens, List.length_append, List.length_cons] at enough
      omega

/-- So is the whole clause. -/
theorem reads_from {entries : Option (List Source)} (h : NormalFrom entries) {bound : Nat}
    {rest : List Kind} (enough : (sourceListKinds entries).length ≤ bound)
    (ends : Ends afterSources rest) :
    Reads (clause .FROM (sources (selectWithin bound))) (sourceListKinds entries) rest entries :=
  match h with
  | .absent => by
      rw [sourceListKinds]
      exact reads_clause_absent (ends.ne_keyword (by decide))
  | @NormalFrom.present entry later first more => by
      rw [sourceListKinds, firstSourceKinds] at enough ⊢
      simp only [List.length_cons, List.length_append] at enough
      refine reads_clause ?_
      refine Reads.then (reads_source first (by omega) (moreSources_closes later ends)) ?_
      refine runs_tokensLeft (Reads.map (f := (entry :: ·)) ?_)
      refine reads_moreSources more (by omega) ?_ ends
      rw [List.length_append]
      exact Nat.le_trans (length_le_moreSources later) (Nat.le_add_right _ _)

/-- The further entries are read round by round. -/
theorem reads_moreSources {entries : List Source} (h : NormalMore entries) {bound count : Nat}
    {rest : List Kind} (enough : (moreSourceKinds entries).length ≤ bound)
    (many : entries.length ≤ count) (ends : Ends afterSources rest) :
    Reads (moreSources (selectWithin bound) count) (moreSourceKinds entries) rest entries :=
  match h with
  | .done => by
      rw [moreSourceKinds]
      exact reads_moreSources_stop ends.ne_comma ends.no_join count
  | @NormalMore.comma entry later first more => by
      rw [moreSourceKinds, join?_of_normal first, linkedKinds] at enough ⊢
      simp only [List.length_cons, List.length_append] at enough many
      obtain ⟨count, rfl⟩ := Nat.exists_eq_add_of_le' (Nat.le_trans (Nat.succ_pos _) many)
      have hmore : Reads (moreSources (selectWithin bound) count) (moreSourceKinds later) rest
          later := reads_moreSources more (by omega) (Nat.le_of_succ_le_succ many) ends
      have hfirst : Reads (source (selectWithin bound)) entry.kinds (moreSourceKinds later ++ rest)
          entry := reads_source first (by omega) (moreSources_closes later ends)
      refine (runs_moreSources_comma hfirst count).trans ?_
      exact hmore.map (f := (entry :: ·))
  | @NormalMore.join type entry on later first condition more => by
      rw [moreSourceKinds, Source.join?_withJoin, Source.kinds_withJoin, linkedKinds] at enough ⊢
      simp only [List.length_cons, List.length_append] at enough many
      obtain ⟨count, rfl⟩ := Nat.exists_eq_add_of_le' (Nat.le_trans (Nat.succ_pos _) many)
      have hmore : Reads (moreSources (selectWithin bound) count) (moreSourceKinds later) rest
          later := reads_moreSources more (by omega) (Nat.le_of_succ_le_succ many) ends
      have hon := reads_wrapped_closes condition (moreSources_closes later ends)
      have hfirst : Reads (source (selectWithin bound)) entry.kinds
          (Keyword.ON.kind :: (on.wrapped ++ (moreSourceKinds later ++ rest))) entry :=
        reads_source first (by omega) (.keyword (by decide))
      obtain ⟨modifiers, named⟩ := modifiers_plain type
      refine (runs_moreSources_join modifiers named hfirst hon count).trans ?_
      exact hmore.map (f := (entry.withJoin ⟨type, on⟩ :: ·))

end

/-- A normal statement is read from a whole input. -/
theorem reads_input {s : Select} (h : s.Normal) : Reads input s.kinds [.eof] s := by
  have enough : s.kinds.length ≤ (s.kinds ++ [Kind.eof]).length := by
    rw [List.length_append]
    exact Nat.le_add_right _ _
  refine runs_tokensLeft (Reads.last (reads_selectWithin h enough .eof) ?_)
  refine Reads.none (reads_consume_absent ?_) (runs_current (Runs.refl _ _))
  exact nofun

end SqlSelect.Grammar
