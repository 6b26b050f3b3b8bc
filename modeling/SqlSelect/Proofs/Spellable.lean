/-
The statements of texts can be spelled.

The tokens that a statement is written with are not those it was read
from: names that were bare are in quotes, numbers have lost their sign,
parentheses are everywhere. That they have a spelling comes from what the
tokens of the text were: a name is never empty, a number never had a sign
of its own, and a bare word is only kept where it spells a keyword.

# From what was read to what is written

Each lemma takes the relation between a part of the statement and the tokens
it was read from, and that these are tokens of a text (`Kind.Lexed`). It says
that the tokens which are written for the part are `Spellable`. The induction
is on the relation, since only there is each part known to have tokens of the
text behind it.

# What could go wrong

Three things have no spelling: an empty name in quotes, a whole number with a
sign, and the least whole number even without one. The first two never come
from the lexer, and the third is never made by a sign (`spellable_integer`,
with `Grammar.ne_minValue_of_yields`).
-/
import SqlSelect.Proofs.NormalForm
import SqlSelect.Proofs.Print.Text

namespace SqlSelect

-- ============================================================ names

/-- A token of a text that may name something does not name nothing. -/
theorem ne_empty_of_anyName? {k : Kind} {name : String} (lexed : k.Lexed)
    (named : k.anyName? = some name) : name ≠ "" := by
  cases k with
  | quoted found =>
      obtain rfl := Option.some.inj named
      exact lexed
  | word found =>
      obtain rfl := Option.some.inj named
      exact lexed.1
  | _ => cases named

/-- Nor does one that is a name. -/
theorem ne_empty_of_identifier? {k : Kind} {name : String} (lexed : k.Lexed)
    (named : k.identifier? = some name) : name ≠ "" :=
  ne_empty_of_anyName? lexed (anyName?_of_identifier? named)

/-- The name of a column is spelled in quotes, and the star as its symbol. -/
theorem spellable_columnKind {name : String} (filled : name ≠ "") :
    (columnKind name).Spellable := by
  unfold columnKind
  split
  next => trivial
  next => exact filled

/-- What is called is spelled as a name or as a keyword. -/
theorem spellable_callee {k : Kind} {function : Callee} (lexed : k.Lexed)
    (called : k.Calls function) : function.kind.Spellable := by
  cases function with
  | name function => exact ne_empty_of_identifier? lexed called.1
  | keyword word =>
      obtain ⟨rfl, keyword, spelled, -⟩ := called
      exact ⟨keyword, Kind.word.inj (Kind.eq_kind_of_keyword? lexed spelled)⟩

-- ============================================================ types

/-- More text behind does not empty a text. -/
theorem ne_empty_append {a b : String} (filled : a ≠ "") : a ++ b ≠ "" := by
  intro empty
  exact filled (String.append_eq_empty_iff.1 empty).1

/-- The name of a type is not empty. -/
theorem ne_empty_of_yieldsType {target : DataType} {ks : List Kind} (h : YieldsType target ks)
    (lexed : ∀ k ∈ ks, k.Lexed) : target.name ≠ "" := by
  cases h with
  | @mk k first second name config words modifiers zone named hwords hmodifiers hzone =>
      have hfirst : first ≠ "" := ne_empty_of_identifier? (lexed k List.mem_cons_self) named
      have hsecond : second ≠ "" := by
        cases hwords with
        | absent => exact hfirst
        | present belongs => exact ne_empty_append (ne_empty_append hfirst)
      cases hzone with
      | absent => exact hsecond
      | withZone timed => exact ne_empty_append hsecond
      | withoutZone timed => exact ne_empty_append hsecond

/-- The modifiers of a type are tokens of it. -/
theorem integer_mem_of_yieldsType {target : DataType} {ks : List Kind} (h : YieldsType target ks)
    {values : List Int64} (present : target.config = some values) {n : Int64} (hn : n ∈ values) :
    .integer n ∈ ks := by
  cases h with
  | @mk k first second name config words modifiers zone named hwords hmodifiers hzone =>
      cases hmodifiers with
      | absent => cases present
      | @present found filled =>
          obtain rfl := Option.some.inj present
          have inside := mem_commas
            (List.mem_map_of_mem (f := fun value => [Kind.integer value]) hn) List.mem_cons_self
          simp [inParens, inside]

/-- A type is spelled as a name, with its modifiers behind it. -/
theorem spellable_type {target : DataType} {ks : List Kind} (h : YieldsType target ks)
    (lexed : ∀ k ∈ ks, k.Lexed) : Spellable target.kinds := by
  have hname := ne_empty_of_yieldsType h lexed
  have hvalues : ∀ values, target.config = some values → ∀ n ∈ values, (Kind.integer n).Lexed :=
    fun values present n hn => lexed _ (integer_mem_of_yieldsType h present hn)
  obtain ⟨name, config⟩ := target
  refine Spellable.cons hname ?_
  cases config with
  | none => exact .nil
  | some values =>
      refine (Spellable.commas fun item hitem => ?_).inParens
      obtain ⟨value, hvalue, rfl⟩ := List.mem_map.1 hitem
      exact Spellable.cons (hvalues values rfl value hvalue) .nil

-- ====================================================== expressions

/-- The opposite of a negative number is positive, the least one apart. -/
theorem neg_nonneg {value : Int64} (negative : value < 0) (least : value ≠ Int64.minValue) :
    0 ≤ -value := by
  have below : value.toInt < 0 := Int64.lt_iff_toInt_lt.1 negative
  rw [Int64.le_iff_toInt_le, Grammar.toInt_neg least]
  show 0 ≤ -value.toInt
  omega

/-- A whole number is spelled as it is, or as its opposite behind a minus. -/
theorem spellable_integer {value : Int64} (least : value ≠ Int64.minValue) (parens : Parens) :
    Spellable ((Expr.integer value).kinds parens) := by
  rw [Expr.kinds_integer]
  split
  next negative => exact .symbol .minus (.cons (neg_nonneg negative least) .nil)
  next positive => exact .cons (Int64.not_lt.1 positive) .nil

theorem spellable_numeric (value : Double) (parens : Parens) :
    Spellable ((Expr.numeric value).kinds parens) := by
  rw [Expr.kinds_numeric]
  cases sign : value.negative with
  | true =>
      have positive : value.neg.negative = false := by rw [Double.neg, sign]; rfl
      exact .symbol .minus (.cons positive .nil)
  | false => exact .cons sign .nil

theorem spellable_wildcard {e : Expr} {ks : List Kind} (h : YieldsWildcard e ks)
    (lexed : ∀ k ∈ ks, k.Lexed) (parens : Parens) : Spellable (e.kinds parens) := by
  cases h with
  | all => exact .symbol .star .nil
  | ofTable named =>
      have filled := ne_empty_of_identifier? (lexed _ List.mem_cons_self) named
      exact .cons filled (.symbol .dot (.symbol .star .nil))

/-- An operand has a spelling if the expression has one. -/
theorem spellable_operand {e : Expr} {parens : Parens} (h : Spellable (e.kinds parens))
    (floor : Nat) : Spellable (e.operandKinds parens floor) :=
  h.wrapIf _

/-- An operand is spelled with its operator on its side. -/
theorem spellable_unary {operand : Expr} {parens : Parens} (op : UnaryOp)
    (h : Spellable (operand.kinds parens)) : Spellable ((Expr.unary op operand).kinds parens) := by
  cases place : op.isPrefix with
  | true =>
      rw [Expr.kinds_prefix parens place]
      exact (Spellable.marks _).append (spellable_operand h _)
  | false =>
      rw [Expr.kinds_postfix parens place]
      exact (spellable_operand h _).append (.marks _)

/-- The items of a list in parentheses. -/
theorem spellable_items {items : List Expr} {parens : Parens}
    (each : ∀ e ∈ items, Spellable (e.kinds parens)) :
    Spellable (inParens (commas (items.map (Expr.operandKinds parens 0)))) := by
  refine (Spellable.commas fun item hitem => ?_).inParens
  obtain ⟨e, he, rfl⟩ := List.mem_map.1 hitem
  exact spellable_operand (each e he) 0

/-- Both operands are, and the operator between them. -/
theorem spellable_binary {left right : Expr} {parens : Parens} (op : BinaryOp)
    (hleft : Spellable (left.kinds parens)) (hright : Spellable (right.kinds parens)) :
    Spellable ((Expr.binary op left right).kinds parens) := by
  rw [Expr.kinds_binary]
  exact (spellable_operand hleft _).append
    ((Spellable.marks _).append (spellable_operand hright _))

/-- Every arm of a `CASE` is spelled between its keywords. -/
theorem spellable_case {operand otherwise : Option Expr} {arms : List (Expr × Expr)}
    {parens : Parens} (hoperand : ∀ e ∈ operand, Spellable (e.kinds parens))
    (harms : ∀ arm ∈ arms, Spellable (arm.1.kinds parens) ∧ Spellable (arm.2.kinds parens))
    (hotherwise : ∀ e ∈ otherwise, Spellable (e.kinds parens)) :
    Spellable ((Expr.case operand arms otherwise).kinds parens) := by
  have first : Spellable (operand.elim [] (Expr.operandKinds parens 0)) := by
    cases operand with
    | none => exact .nil
    | some e => exact spellable_operand (hoperand e rfl) 0
  have middle : Spellable (arms.flatMap fun arm => Keyword.WHEN.kind :: arm.1.operandKinds parens 0
      ++ Keyword.THEN.kind :: arm.2.operandKinds parens 0) := by
    intro k hk
    obtain ⟨arm, harm, hk⟩ := List.mem_flatMap.1 hk
    have whole := (Spellable.keyword .WHEN (spellable_operand (harms arm harm).1 0)).append
      (.keyword .THEN (spellable_operand (harms arm harm).2 0))
    exact whole k hk
  have last : Spellable (otherwise.elim [] fun e =>
      Keyword.ELSE.kind :: e.operandKinds parens 0) := by
    cases otherwise with
    | none => exact .nil
    | some e => exact .keyword .ELSE (spellable_operand (hotherwise e rfl) 0)
  rw [Expr.kinds_case]
  exact .keyword .CASE (first.append (middle.append (last.append (.keyword .END .nil))))

/-- An expression that was read from a text can be spelled. -/
theorem spellable_of_yields {e : Expr} {ks : List Kind} (h : Yields e ks)
    (lexed : ∀ k ∈ ks, k.Lexed) (parens : Parens) : Spellable (e.kinds parens) := by
  induction h with
  | integer value =>
      exact spellable_integer (Grammar.ne_minValue_of_yields (.integer value) lexed rfl) parens
  | signedInteger number _ =>
      exact spellable_integer (Grammar.ne_minValue_of_yields (.signedInteger number) lexed rfl)
        parens
  | numeric value => exact spellable_numeric value parens
  | signedNumeric number _ => exact spellable_numeric _ parens
  | string value => exact .cons trivial .nil
  | parameter name => exact .cons (lexed (.parameter name) List.mem_cons_self) .nil
  | true => exact .keyword .TRUE .nil
  | false => exact .keyword .FALSE .nil
  | null => exact .keyword .NULL .nil
  | column named =>
      have filled := ne_empty_of_identifier? (lexed _ List.mem_cons_self) named.1
      exact .cons (spellable_columnKind filled) .nil
  | @member k m table name named hmember =>
      have htable := ne_empty_of_identifier? (lexed k List.mem_cons_self) named.1
      have hname := ne_empty_of_anyName? (lexed m (by simp)) hmember.1
      exact .cons htable (.symbol .dot (.cons (spellable_columnKind hname) .nil))
  | @call k function parts called args ih =>
      rw [Expr.kinds_call]
      refine .cons (spellable_callee (lexed k List.mem_cons_self) called) ?_
      refine spellable_items fun arg harg => ?_
      obtain ⟨p, hp, rfl⟩ := List.mem_map.1 harg
      have inside : ∀ k ∈ p.2, k.Lexed := fun k hk =>
        lexed k (List.mem_cons_of_mem _ (mem_inParens_commas hp hk))
      -- the hypothesis of the induction is about arguments that are no
      -- wildcard
      by_cases wild : YieldsWildcard p.1 p.2
      · exact spellable_wildcard wild inside parens
      · exact ih p hp wild inside
  | binary _ _ _ ihleft ihright =>
      have hleft := ihleft fun k hk => lexed k (by simp [hk])
      have hright := ihright fun k hk => lexed k (by simp [hk])
      exact spellable_binary _ hleft hright
  | @isIn op left ls parts _ _ _ _ ihleft ihitems =>
      have hleft := ihleft fun k hk => lexed k (by simp [hk])
      refine spellable_binary _ hleft ?_
      rw [Expr.kinds_list]
      refine spellable_items fun e he => ?_
      obtain ⟨p, hp, rfl⟩ := List.mem_map.1 he
      exact ihitems p hp fun k hk =>
        lexed k (List.mem_append_right _ (mem_inParens_commas hp hk))
  | between _ _ _ ihvalue ihlow ihhigh =>
      have hvalue := ihvalue fun k hk => lexed k (by simp [hk])
      have hlow := ihlow fun k hk => lexed k (by simp [hk])
      have hhigh := ihhigh fun k hk => lexed k (by simp [hk])
      rw [Expr.kinds_between]
      exact (spellable_operand hvalue _).append ((Spellable.marks _).append
        ((spellable_operand hlow _).append (.keyword .AND (spellable_operand hhigh _))))
  | prefixed _ _ _ ih | test _ _ ih =>
      have hoperand := ih fun k hk => lexed k (by simp [hk])
      exact spellable_unary _ hoperand
  | castTo _ htarget ih | castAs _ htarget ih =>
      have hoperand := ih fun k hk => lexed k (by simp [inParens, hk])
      have hname := spellable_type htarget fun k hk => lexed k (by simp [inParens, hk])
      rw [Expr.kinds_cast]
      exact (spellable_operand hoperand _).append (.symbol .doubleColon hname)
  | @case operand otherwise arms _ _ _ _ _ ihoperand ihconditions ihvalues ihotherwise =>
      refine spellable_case ?_ ?_ ?_
      · intro e he
        obtain ⟨p, rfl, rfl⟩ := Option.map_eq_some_iff.1 he
        exact ihoperand p rfl fun k hk => lexed k (by simp [hk])
      · intro pair hpair
        obtain ⟨arm, harm, rfl⟩ := List.mem_map.1 hpair
        exact ⟨ihconditions arm harm fun k hk => lexed k (mem_caseKinds harm (Or.inl hk)),
          ihvalues arm harm fun k hk => lexed k (mem_caseKinds harm (Or.inr hk))⟩
      · intro e he
        obtain ⟨p, rfl, rfl⟩ := Option.map_eq_some_iff.1 he
        exact ihotherwise p rfl fun k hk => lexed k (by simp [hk])
  | paren _ ih => exact ih fun k hk => lexed k (by simp [inParens, hk])

-- ========================================================== clauses

/-- So is an expression in all its parentheses. -/
theorem spellable_wrapped {e : Expr} {ks : List Kind} (h : Yields e ks)
    (lexed : ∀ k ∈ ks, k.Lexed) : Spellable e.wrapped :=
  spellable_operand (spellable_of_yields h lexed .everywhere) 0

/-- An alias is spelled behind `AS`. -/
theorem spellable_alias {aliasName : Option String} {ks : List Kind} (h : YieldsAlias aliasName ks)
    (lexed : ∀ k ∈ ks, k.Lexed) : Spellable (aliasKinds aliasName) := by
  cases h with
  | absent => exact .nil
  | bare named =>
      have filled := ne_empty_of_identifier? (lexed _ List.mem_cons_self) named
      exact .keyword .AS (.cons filled .nil)
  | behindAs named =>
      have filled := ne_empty_of_identifier? (lexed _ (by simp)) named
      exact .keyword .AS (.cons filled .nil)

/-- A column of the select list is, wildcard or not. -/
theorem spellable_column {c : Column} {ks : List Kind} (h : YieldsColumn c ks)
    (lexed : ∀ k ∈ ks, k.Lexed) : Spellable c.kinds := by
  cases h with
  | wildcard h =>
      exact (spellable_operand (spellable_wildcard h lexed .everywhere) 0).append .nil
  | expr he ha =>
      have hexpr := spellable_wrapped he fun k hk => lexed k (by simp [hk])
      exact hexpr.append (spellable_alias ha fun k hk => lexed k (by simp [hk]))

/-- So is what is sorted by. -/
theorem spellable_sortKey {key : SortKey} {ks : List Kind} (h : YieldsSortKey key ks)
    (lexed : ∀ k ∈ ks, k.Lexed) : Spellable key.kinds := by
  cases h with
  | unsaid h => exact (spellable_wrapped h lexed).append .nil
  | ascending h => exact (spellable_wrapped h fun k hk => lexed k (by simp [hk])).append .nil
  | descending h =>
      exact (spellable_wrapped h fun k hk => lexed k (by simp [hk])).append (.keyword .DESC .nil)

/-- A list can be spelled if each of its items can. -/
theorem spellable_list {α : Type} {R : α → List Kind → Prop} {f : α → List Kind} {items : List α}
    {ks : List Kind} (each : ∀ ⦃a js⦄, R a js → (∀ k ∈ js, k.Lexed) → Spellable (f a))
    (h : Separated R items ks) (lexed : ∀ k ∈ ks, k.Lexed) :
    Spellable (commas (items.map f)) := by
  refine Spellable.commas fun item hitem => ?_
  obtain ⟨a, ha, rfl⟩ := List.mem_map.1 hitem
  obtain ⟨js, hjs, within⟩ := h.mem ha
  exact each hjs fun k hk => lexed k (within k hk)

/-- The select list is spelled column by column. -/
theorem spellable_columns {cs : List Column} {ks : List Kind} (h : Separated YieldsColumn cs ks)
    (lexed : ∀ k ∈ ks, k.Lexed) : Spellable (commas (cs.map Column.kinds)) :=
  spellable_list (fun _ _ => spellable_column) h lexed

/-- What is sorted by, key by key. -/
theorem spellable_order {keys : List SortKey} {ks : List Kind}
    (h : Separated YieldsSortKey keys ks) (lexed : ∀ k ∈ ks, k.Lexed) :
    Spellable (commas (keys.map SortKey.kinds)) :=
  spellable_list (fun _ _ => spellable_sortKey) h lexed

/-- What is grouped by, as a list without parentheses of its own. -/
theorem spellable_groups {es : List Expr} {ks : List Kind} (h : YieldsGroups es ks)
    (lexed : ∀ k ∈ ks, k.Lexed) : Spellable (commas (es.map Expr.wrapped)) := by
  obtain ⟨js, hjs, within⟩ := h.separated
  exact spellable_list (fun _ _ => spellable_wrapped) hjs fun k hk => lexed k (within k hk)

/-- A clause can be spelled if what it is about can. -/
theorem spellable_clause {α : Type} {R : α → List Kind → Prop} {f : α → List Kind}
    {keywords : List Keyword} {o : Option α} {ks : List Kind}
    (body : ∀ ⦃a js⦄, R a js → (∀ k ∈ js, k.Lexed) → Spellable (f a))
    (h : YieldsClause keywords R o ks) (lexed : ∀ k ∈ ks, k.Lexed) :
    Spellable (clauseKinds keywords (o.map f)) := by
  cases h with
  | absent => exact .nil
  | present inside =>
      exact (Spellable.keywords keywords).append
        (body inside fun k hk => lexed k (List.mem_append_right _ hk))

/-- A number of rows is spelled if it is not negative. -/
theorem spellable_rowCount {rows : Option UInt64} (keyword : Keyword)
    (normal : ∀ count ∈ rows, 0 ≤ count.toInt64) : Spellable (rowCountKinds keyword rows) := by
  cases rows with
  | none => exact .nil
  | some count => exact .keyword keyword (.cons (normal count rfl) .nil)

/-- So are both numbers of rows. -/
theorem spellable_limit {limit : Option Limit} (normal : ∀ l ∈ limit, l.Normal) :
    Spellable ((limit.map Limit.kinds).getD []) := by
  cases limit with
  | none => exact .nil
  | some limit =>
      have h := normal limit rfl
      exact (spellable_rowCount .LIMIT h.count).append (spellable_rowCount .OFFSET h.offset)

-- ======================================================= statements

/-- The name of a table is spelled with its schema. -/
theorem spellable_tableName {schema : Option String} {name : String} {ks : List Kind}
    (h : YieldsTableName schema name ks) (lexed : ∀ k ∈ ks, k.Lexed) :
    Spellable (tableNameKinds schema name) := by
  cases h with
  | bare named =>
      exact .cons (ne_empty_of_identifier? (lexed _ List.mem_cons_self) named) .nil
  | inSchema hschema named =>
      have first := ne_empty_of_identifier? (lexed _ List.mem_cons_self) hschema
      have second := ne_empty_of_identifier? (lexed _ (by simp)) named
      exact .cons first (.symbol .dot (.cons second .nil))

mutual

/-- A statement that was read from a text can be spelled. -/
theorem spellable_select {statement : Select} {ks : List Kind} (h : YieldsSelect statement ks)
    (lexed : ∀ k ∈ ks, k.Lexed) : Spellable statement.kinds :=
  match h with
  | @YieldsSelect.mk distinct columns sources filter groups having order limits ds cs fs ws gs hs
      os ls hdistinct hcolumns hsources hfilter hgroups hhaving horder hlimits => by
      have wdistinct : Spellable (if distinct then [Keyword.DISTINCT.kind] else []) := by
        split
        next => exact .keyword .DISTINCT .nil
        next => exact .nil
      have wcolumns := spellable_clause @spellable_columns hcolumns
        fun k hk => lexed k (by simp [hk])
      have wsources := spellable_from hsources fun k hk => lexed k (by simp [hk])
      have wfilter := spellable_clause @spellable_wrapped hfilter
        fun k hk => lexed k (by simp [hk])
      have wgroups := spellable_clause @spellable_groups hgroups
        fun k hk => lexed k (by simp [hk])
      have whaving := spellable_clause @spellable_wrapped hhaving
        fun k hk => lexed k (by simp [hk])
      have worder := spellable_clause @spellable_order horder
        fun k hk => lexed k (by simp [hk])
      have wlimit := spellable_limit (normal_of_yieldsLimits hlimits)
      rw [Select.kinds]
      exact .keyword .SELECT (((((((wdistinct.append wcolumns).append wsources).append
        wfilter).append wgroups).append whaving).append worder).append wlimit)

/-- An entry of `FROM` can be spelled. -/
theorem spellable_source {entry : Source} {ks : List Kind} (h : YieldsSource entry ks)
    (lexed : ∀ k ∈ ks, k.Lexed) : Spellable entry.kinds :=
  match h with
  | .table named _ ha => by
      have wname := spellable_tableName named fun k hk => lexed k (by simp [hk])
      have walias := spellable_alias ha fun k hk => lexed k (by simp [hk])
      rw [Source.kinds]
      exact wname.append walias
  | .derived inner ha => by
      have winner := spellable_select inner fun k hk => lexed k (by simp [inParens, hk])
      have walias := spellable_alias ha fun k hk => lexed k (by simp [hk])
      rw [Source.kinds]
      exact winner.inParens.append walias

/-- So can the whole of `FROM`. -/
theorem spellable_from {sources : Option (List Source)} {ks : List Kind} (h : YieldsFrom sources ks)
    (lexed : ∀ k ∈ ks, k.Lexed) : Spellable (sourceListKinds sources) :=
  match h with
  | .absent => by
      rw [sourceListKinds]
      exact .nil
  | .present first more => by
      have wfirst := spellable_source first fun k hk => lexed k (by simp [hk])
      have wmore := spellable_more more fun k hk => lexed k (by simp [hk])
      rw [sourceListKinds, firstSourceKinds]
      exact .keyword .FROM (wfirst.append wmore)

/-- And its further entries, each behind its comma or its join. -/
theorem spellable_more {entries : List Source} {ks : List Kind} (h : YieldsMore entries ks)
    (lexed : ∀ k ∈ ks, k.Lexed) : Spellable (moreSourceKinds entries) :=
  match h with
  | .done => by
      rw [moreSourceKinds]
      exact .nil
  | .comma hentry more => by
      have wentry := spellable_source hentry fun k hk => lexed k (by simp [hk])
      have wmore := spellable_more more fun k hk => lexed k (by simp [hk])
      rw [moreSourceKinds, join?_of_yieldsSource hentry, linkedKinds]
      exact (Spellable.symbol .comma wentry).append wmore
  | .join _ hentry hon more => by
      have wentry := spellable_source hentry fun k hk => lexed k (by simp [hk])
      have won := spellable_wrapped hon fun k hk => lexed k (by simp [hk])
      have wmore := spellable_more more fun k hk => lexed k (by simp [hk])
      rw [moreSourceKinds, Source.join?_withJoin, Source.kinds_withJoin, linkedKinds]
      exact ((Spellable.keywords _).append
        (.keyword .JOIN (wentry.append (.keyword .ON won)))).append wmore

end

end SqlSelect
