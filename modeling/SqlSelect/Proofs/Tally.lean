/-
How many stars a text has.

A bare star is an operator or a value; in double quotes it is a name. A
tally says what either counts for. Counted so, the tokens of a statement
come to as much as its tree does: the wildcards and the products in its
expressions, and the names that are stars. Since the counts add up, this
is shown rule by rule, once for every tally.

# Tokens and nodes

A token counts for something only if it is a star (`Tally.kind`), and a node
only if it is a product, a wildcard or a name that is a star (`Tally.node`).
Keywords, commas and parentheses count for nothing, so each production says no
more than that the counts of its parts add up. Why a bare word never counts:
it has been folded, and no letter folds to a star.

# Relations that weigh

`Weighs` says of one of the relations between values and tokens that the
tokens count for as much as the value does. It goes from a relation to lists
and clauses of it, so the clauses of a statement are put together without
looking at what is in them.
-/
import Mathlib.Algebra.GroupWithZero.Nat
import SqlSelect.Proofs.Parts

namespace SqlSelect

/-- What a star counts for, bare and in double quotes. -/
structure Tally where
  bare : Nat
  quoted : Nat

namespace Tally

variable (t : Tally)

-- =========================================================== counts

/-- What a name counts for. No bare word of a text is a star, so a name that
is one stood in double quotes. -/
def name (name : String) : Nat := if name = Expr.star then t.quoted else 0

/-- What a token counts for. -/
def kind : Kind → Nat
  | .symbol .star => t.bare
  | .quoted name => t.name name
  | _ => 0

/-- What tokens count for. -/
def kinds (ks : List Kind) : Nat := (ks.map t.kind).sum

/-- What a node counts for, its children apart. A column or a function whose
name is a star in double quotes is no part of any tree. -/
def node : Expr → Nat
  | .ref table name => table.elim 0 t.name + if name = Expr.star then t.bare else 0
  | .binary .mul _ _ => t.bare
  | .cast _ target => t.name target.name
  | _ => 0

/-- What nodes count for. -/
def nodes (es : List Expr) : Nat := (es.map t.node).sum

/-- What names count for. -/
def names (ns : List String) : Nat := (ns.map t.name).sum

/-- What an expression counts for. -/
def expr (e : Expr) : Nat := t.nodes e.nodes

variable {t}

@[simp]
theorem kinds_nil : t.kinds [] = 0 := rfl

@[simp]
theorem kinds_cons (k : Kind) (ks : List Kind) : t.kinds (k :: ks) = t.kind k + t.kinds ks :=
  List.sum_cons

@[simp]
theorem kinds_append (ks ls : List Kind) : t.kinds (ks ++ ls) = t.kinds ks + t.kinds ls := by
  unfold kinds
  rw [List.map_append, List.sum_append]

@[simp]
theorem nodes_cons (e : Expr) (es : List Expr) : t.nodes (e :: es) = t.node e + t.nodes es :=
  List.sum_cons

@[simp]
theorem names_nil : t.names [] = 0 := rfl

@[simp]
theorem names_cons (name : String) (ns : List String) :
    t.names (name :: ns) = t.name name + t.names ns :=
  List.sum_cons

@[simp]
theorem kind_keyword (keyword : Keyword) : t.kind keyword.kind = 0 := rfl

@[simp]
theorem kind_symbol {mark : Symbol} (other : mark ≠ .star) : t.kind (.symbol mark) = 0 := by
  cases mark <;> first | rfl | exact absurd rfl other

/-- Tokens that count for nothing one by one. -/
theorem kinds_eq_zero {ks : List Kind} (each : ∀ k ∈ ks, t.kind k = 0) : t.kinds ks = 0 := by
  induction ks with
  | nil => rfl
  | cons k ks ih =>
      rw [kinds_cons, each k List.mem_cons_self, ih fun k hk => each k (List.mem_cons_of_mem _ hk)]

@[simp]
theorem kinds_inParens (ks : List Kind) : t.kinds (inParens ks) = t.kinds ks := by
  simp [inParens]

/-- The commas count for nothing. -/
theorem kinds_commas (items : List (List Kind)) :
    t.kinds (commas items) = (items.map t.kinds).sum := by
  induction items with
  | nil => rfl
  | cons item later ih =>
      cases later with
      | nil => simp
      | cons next later =>
          have comma : t.kind (.symbol .comma) = 0 := rfl
          rw [commas_cons_cons, kinds_append, kinds_cons, ih, comma, Nat.zero_add]
          exact List.sum_cons.symm

/-- Where each item counts for what its tokens count for, so does the
list. -/
theorem kinds_parts {α : Type} {f : α → Nat} {parts : List (α × List Kind)}
    (each : ∀ p ∈ parts, t.kinds p.2 = f p.1) :
    t.kinds (commas (parts.map Prod.snd)) = ((parts.map Prod.fst).map f).sum := by
  rw [kinds_commas, List.map_map, List.map_map]
  exact congrArg List.sum (List.map_congr_left each)

/-- What is in the parts of a list adds up part by part. -/
theorem sum_map_flatMap {α β : Type} (g : β → Nat) (f : α → List β) (items : List α) :
    ((items.flatMap f).map g).sum = (items.map fun a => ((f a).map g).sum).sum := by
  induction items with
  | nil => rfl
  | cons a items ih =>
      rw [List.flatMap_cons, List.map_append, List.sum_append, ih, List.map_cons, List.sum_cons]

theorem nodes_flatMap {α : Type} (f : α → List Expr) (items : List α) :
    t.nodes (items.flatMap f) = (items.map fun a => t.nodes (f a)).sum :=
  sum_map_flatMap t.node f items

theorem names_flatMap {α : Type} (f : α → List String) (items : List α) :
    t.names (items.flatMap f) = (items.map fun a => t.names (f a)).sum :=
  sum_map_flatMap t.name f items

/-- An expression counts for what its root and its children count for. -/
theorem expr_eq (e : Expr) : t.expr e = t.node e + (e.children.map t.expr).sum := by
  unfold expr
  rw [Expr.nodes_eq, nodes_cons, nodes_flatMap]

/-- An expression without children. -/
theorem expr_leaf {e : Expr} (leaf : e.children = []) : t.expr e = t.node e := by
  rw [expr_eq, leaf]
  rfl

/-- An expression with one child that counts for nothing itself. -/
theorem expr_single {e c : Expr} (node : t.node e = 0) (single : e.children = [c]) :
    t.expr e = t.expr c := by
  rw [expr_eq, node, single]
  simp

/-- An operator counts for its marks, and its operands for themselves. -/
theorem expr_binary (op : BinaryOp) (left right : Expr) :
    t.expr (.binary op left right)
      = t.kinds (Mark.kinds op.marks) + t.expr left + t.expr right := by
  have operator : t.node (.binary op left right) = t.kinds (Mark.kinds op.marks) := by
    cases op <;> rfl
  rw [expr_eq, operator]
  simp [Expr.children, Nat.add_assoc]

-- ============================================================ names

/-- A name that is no star counts for nothing. -/
theorem name_eq_zero {name : String} (other : name ≠ Expr.star) : t.name name = 0 :=
  if_neg other

/-- A name of several words is no star. -/
theorem name_spaced {name : String} (spaced : ' ' ∈ name.toList) : t.name name = 0 := by
  refine name_eq_zero ?_
  rintro rfl
  exact absurd spaced (by decide)

/-- A token that names something counts for the name. -/
theorem kind_of_anyName? {k : Kind} {name : String} (lexed : k.Lexed)
    (named : k.anyName? = some name) : t.kind k = t.name name := by
  cases k with
  | quoted found =>
      obtain rfl := Option.some.inj named
      rfl
  | word found => exact (name_eq_zero (ne_star_of_anyName? lexed named nofun)).symm
  | _ => cases named

/-- A token that is a name counts for that name. -/
theorem kind_of_identifier? {k : Kind} {name : String} (lexed : k.Lexed)
    (named : k.identifier? = some name) : t.kind k = t.name name :=
  kind_of_anyName? lexed (anyName?_of_identifier? named)

/-- The token of a column, a function or the table before a column counts
for nothing. -/
theorem kind_of_names {k : Kind} {name : String} (lexed : k.Lexed) (named : k.Names name) :
    t.kind k = 0 := by
  rw [kind_of_identifier? lexed named.1]
  exact name_eq_zero (ne_star_of_names lexed named)

/-- What is called is no star. -/
theorem kind_of_calls {k : Kind} {function : Callee} (lexed : k.Lexed)
    (called : k.Calls function) : t.kind k = 0 := by
  cases function with
  | name function => exact kind_of_names lexed called
  | keyword word =>
      rw [called.1]
      rfl

-- ============================================================ types

/-- A second word of a type name changes no count. -/
theorem kinds_secondWord {first second : String} {ks : List Kind}
    (h : YieldsSecondWord first second ks) : t.name first + t.kinds ks = t.name second := by
  cases h with
  | absent => rfl
  | @present second belongs =>
      have word : t.name first = 0 := by
        refine name_eq_zero ?_
        rintro rfl
        cases belongs
      rw [word, name_spaced (by simp)]
      rfl

/-- The words of a time zone add nothing to the name of a type. -/
theorem kinds_zone {name zoned : String} {ks : List Kind} (h : YieldsZone name zoned ks) :
    t.name name + t.kinds ks = t.name zoned := by
  have word (timed : name = "time" ∨ name = "timestamp") : t.name name = 0 := by
    refine name_eq_zero ?_
    rcases timed with rfl | rfl <;> decide
  cases h with
  | absent => rfl
  | withZone timed =>
      rw [word timed, name_spaced (by simp)]
      rfl
  | withoutZone timed =>
      rw [word timed, name_spaced (by simp)]
      rfl

/-- Nor do its modifiers. -/
theorem kinds_config {config : Option (List Int64)} {ks : List Kind} (h : YieldsConfig config ks) :
    t.kinds ks = 0 := by
  cases h with
  | absent => rfl
  | present filled =>
      rw [kinds_inParens]
      refine kinds_eq_zero (forall_commas rfl fun item hitem k hk => ?_)
      obtain ⟨value, -, rfl⟩ := List.mem_map.1 hitem
      rw [List.mem_singleton.1 hk]
      rfl

/-- The tokens of a type count for its name. -/
theorem kinds_type {target : DataType} {ks : List Kind} (h : YieldsType target ks)
    (lexed : ∀ k ∈ ks, k.Lexed) : t.kinds ks = t.name target.name := by
  cases h with
  | @mk k first second name config ws ms zs named words modifiers zone =>
      have hfirst : t.kind k = t.name first :=
        kind_of_identifier? (lexed k List.mem_cons_self) named
      have hsecond : t.name first + t.kinds ws = t.name second := kinds_secondWord words
      have hname : t.name second + t.kinds zs = t.name name := kinds_zone zone
      rw [kinds_cons, kinds_append, kinds_append, kinds_config modifiers]
      show _ = t.name name
      omega

-- ====================================================== expressions

/-- No operator on one operand is a star. -/
theorem kinds_unary (op : UnaryOp) : t.kinds (Mark.kinds op.marks) = 0 := by
  cases op <;> rfl

/-- A wildcard counts for its star and for its table. -/
theorem expr_wildcard (table : Option String) :
    t.expr (.ref table Expr.star) = table.elim 0 t.name + t.bare :=
  (expr_leaf rfl).trans (congrArg _ (if_pos rfl))

/-- So do its tokens. -/
theorem kinds_wildcard {e : Expr} {ks : List Kind} (h : YieldsWildcard e ks)
    (lexed : ∀ k ∈ ks, k.Lexed) : t.kinds ks = t.expr e := by
  cases h with
  | all => exact (Nat.add_comm _ _).trans (expr_wildcard none).symm
  | @ofTable k table named =>
      have qualifier : t.kind k = t.name table :=
        kind_of_identifier? (lexed k List.mem_cons_self) named
      have star : t.kinds [.symbol .dot, .symbol .star] = t.bare := Nat.zero_add _
      rw [kinds_cons, qualifier, star]
      exact (expr_wildcard (some table)).symm

/-- A column counts for nothing, save for names that are stars. -/
theorem expr_ref {table : Option String} {name : String} (plain : name ≠ Expr.star)
    (qualifier : table ≠ some Expr.star) : t.expr (.ref table name) = 0 := by
  have column : t.node (.ref table name) = table.elim 0 t.name + 0 :=
    congrArg _ (if_neg plain)
  rw [expr_leaf rfl, column]
  cases table with
  | none => rfl
  | some table => exact name_eq_zero fun star => qualifier (congrArg some star)

/-- The arms of a `CASE` count for what stands in them. -/
theorem kinds_arms {arms : List ((Expr × List Kind) × (Expr × List Kind))}
    (conditions : ∀ arm ∈ arms, t.kinds arm.1.2 = t.expr arm.1.1)
    (values : ∀ arm ∈ arms, t.kinds arm.2.2 = t.expr arm.2.1) :
    t.kinds (arms.flatMap fun arm =>
        Keyword.WHEN.kind :: arm.1.2 ++ Keyword.THEN.kind :: arm.2.2)
      = (((arms.map fun arm => (arm.1.1, arm.2.1)).flatMap
        fun arm => [arm.1, arm.2]).map t.expr).sum := by
  induction arms with
  | nil => rfl
  | cons arm arms ih =>
      have head := conditions arm List.mem_cons_self
      have value := values arm List.mem_cons_self
      have tail := ih (fun arm harm => conditions arm (List.mem_cons_of_mem _ harm))
        fun arm harm => values arm (List.mem_cons_of_mem _ harm)
      rw [List.flatMap_cons, kinds_append, tail]
      simp [head, value, Nat.add_assoc]

/-- The tokens of an expression count for what its nodes count for. -/
theorem kinds_of_yields {e : Expr} {ks : List Kind} (h : Yields e ks)
    (lexed : ∀ k ∈ ks, k.Lexed) : t.kinds ks = t.expr e := by
  induction h with
  | integer | numeric | string | parameter | true | false | null => rfl
  | column named =>
      have column := lexed _ List.mem_cons_self
      have alone : none ≠ some Expr.star := nofun
      rw [expr_ref (ne_star_of_names column named) alone, kinds_cons, kind_of_names column named,
        kinds_nil]
  | @member k m table name named member =>
      have first := lexed k List.mem_cons_self
      have last := lexed m (by simp)
      have column := ne_star_of_anyName? last member.1 member.2
      have qualifier : some table ≠ some Expr.star := fun star =>
        ne_star_of_names first named (Option.some.inj star)
      rw [expr_ref column qualifier, kinds_cons, kind_of_names first named, kinds_cons, kinds_cons,
        kind_of_anyName? last member.1, name_eq_zero column]
      rfl
  | @call k function parts called args ih =>
      have each : ∀ p ∈ parts, t.kinds p.2 = t.expr p.1 := by
        intro p hp
        have inside : ∀ k ∈ p.2, k.Lexed := fun k hk =>
          lexed k (List.mem_cons_of_mem _ (mem_inParens_commas hp hk))
        -- an argument may be a wildcard, which is no expression of its own
        by_cases wild : YieldsWildcard p.1 p.2
        · exact kinds_wildcard wild inside
        · exact ih p hp wild inside
      rw [kinds_cons, kind_of_calls (lexed k List.mem_cons_self) called, kinds_inParens,
        kinds_parts each, expr_eq]
      rfl
  | @binary op left right ls rs plain _ _ ihleft ihright =>
      rw [kinds_append, kinds_append, expr_binary, ihleft fun k hk => lexed k (by simp [hk]),
        ihright fun k hk => lexed k (by simp [hk])]
      omega
  | @isIn op left ls parts membership _ filled _ ihleft ihitems =>
      have each : ∀ p ∈ parts, t.kinds p.2 = t.expr p.1 := fun p hp =>
        ihitems p hp fun k hk =>
          lexed k (List.mem_append_right _ (mem_inParens_commas hp hk))
      have list : t.expr (.list (parts.map Prod.fst)) = ((parts.map Prod.fst).map t.expr).sum :=
        (expr_eq _).trans (Nat.zero_add _)
      rw [kinds_append, kinds_append, expr_binary, kinds_inParens, kinds_parts each, list,
        ihleft fun k hk => lexed k (by simp [hk])]
      omega
  | @between negated value low high vs ls hs _ _ _ ihvalue ihlow ihhigh =>
      have marks : t.kinds (Mark.kinds (betweenMarks negated)) = 0 := by
        cases negated <;> rfl
      have node : t.node (.between negated value low high) = 0 := rfl
      rw [kinds_append, kinds_append, kinds_append, kinds_cons, kind_keyword, marks,
        ihvalue fun k hk => lexed k (by simp [hk]), ihlow fun k hk => lexed k (by simp [hk]),
        ihhigh fun k hk => lexed k (by simp [hk]), expr_eq (.between negated value low high), node]
      simp [Expr.children, Nat.add_assoc]
  | prefixed _ _ _ ih =>
      rw [kinds_append, kinds_unary, Nat.zero_add, ih fun k hk => lexed k (by simp [hk])]
      exact (expr_single rfl rfl).symm
  | signedInteger number ih | signedNumeric number ih =>
      rw [kinds_cons, ih fun k hk => lexed k (by simp [hk])]
      rfl
  | test _ _ ih =>
      rw [kinds_append, kinds_unary, Nat.add_zero, ih fun k hk => lexed k (by simp [hk])]
      exact (expr_single rfl rfl).symm
  | @castTo operand target ks ts _ htarget ih =>
      have colons : t.kind (.symbol .doubleColon) = 0 := rfl
      have node : t.node (.cast operand target) = t.name target.name := rfl
      rw [kinds_append, kinds_cons, colons, kinds_type htarget fun k hk => lexed k (by simp [hk]),
        ih fun k hk => lexed k (by simp [hk]), expr_eq (.cast operand target), node]
      simp [Expr.children, Nat.add_comm]
  | @castAs operand target ks ts _ htarget ih =>
      have node : t.node (.cast operand target) = t.name target.name := rfl
      rw [kinds_cons, kind_keyword, kinds_inParens, kinds_append, kinds_cons, kind_keyword,
        kinds_type htarget fun k hk => lexed k (by simp [inParens, hk]),
        ih fun k hk => lexed k (by simp [inParens, hk]), expr_eq (.cast operand target), node]
      simp [Expr.children, Nat.add_comm]
  | @case operand otherwise arms filled _ _ _ _ ihoperand ihconditions ihvalues ihotherwise =>
      have hoperand : t.kinds ((operand.map Prod.snd).getD [])
          = ((operand.map Prod.fst).toList.map t.expr).sum := by
        cases operand with
        | none => rfl
        | some p => simpa using ihoperand p rfl fun k hk => lexed k (by simp [hk])
      have hotherwise : t.kinds (otherwise.elim [] fun p => Keyword.ELSE.kind :: p.2)
          = ((otherwise.map Prod.fst).toList.map t.expr).sum := by
        cases otherwise with
        | none => rfl
        | some p => simpa using ihotherwise p rfl fun k hk => lexed k (by simp [hk])
      have harms := kinds_arms
        (fun arm harm => ihconditions arm harm fun k hk => lexed k (mem_caseKinds harm (Or.inl hk)))
        fun arm harm => ihvalues arm harm fun k hk => lexed k (mem_caseKinds harm (Or.inr hk))
      have node : ∀ arms, t.node (.case (operand.map Prod.fst) arms (otherwise.map Prod.fst)) = 0 :=
        fun _ => rfl
      rw [kinds_cons, kinds_append, kinds_append, kinds_append, hoperand, harms, hotherwise,
        expr_eq, node]
      simp [Expr.children, Nat.add_assoc]
  | paren _ ih =>
      rw [kinds_inParens]
      exact ih fun k hk => lexed k (by simp [inParens, hk])

-- ========================================================== clauses

/-- The tokens that `R` relates to a value count for what `f` gives the
value. -/
def Weighs (t : Tally) {α : Type} (R : α → List Kind → Prop) (f : α → Nat) : Prop :=
  ∀ ⦃a ks⦄, R a ks → (∀ k ∈ ks, k.Lexed) → t.kinds ks = f a

/-- Expressions weigh what their tokens do. -/
theorem weighs_yields : t.Weighs Yields t.expr :=
  fun _ _ => kinds_of_yields

section Clause

variable {α : Type} {keywords : List Keyword} {R : α → List Kind → Prop} {f : α → Nat}

/-- Lists weigh what their items do. -/
theorem weighs_separated (h : t.Weighs R f) :
    t.Weighs (Separated R) fun items => (items.map f).sum := by
  rintro _ _ ⟨parts, -, rfl, rfl, each⟩ lexed
  refine kinds_parts fun p hp => h (each p hp) fun k hk => lexed k ?_
  exact mem_commas (List.mem_map_of_mem hp) hk

/-- Keywords count for nothing. -/
theorem kinds_keywords (keywords : List Keyword) : t.kinds (keywords.map Keyword.kind) = 0 := by
  refine kinds_eq_zero fun k hk => ?_
  obtain ⟨keyword, -, rfl⟩ := List.mem_map.1 hk
  rfl

/-- Clauses weigh what is in them. -/
theorem weighs_clause (h : t.Weighs R f) :
    t.Weighs (YieldsClause keywords R) fun o => o.elim 0 f := by
  intro o ks hks lexed
  cases hks with
  | absent => rfl
  | present body =>
      rw [kinds_append, kinds_keywords, Nat.zero_add,
        h body fun k hk => lexed k (List.mem_append_right _ hk)]
      rfl

/-- A clause with a list counts for the items. -/
theorem weighs_items {Rs : List α → List Kind → Prop}
    (h : t.Weighs Rs fun items => (items.map f).sum) :
    t.Weighs (YieldsClause keywords Rs) fun o => ((o.getD []).map f).sum := by
  intro o ks hks lexed
  rw [weighs_clause h hks lexed]
  cases o <;> rfl

end Clause

/-- An alias weighs what its name does. -/
theorem weighs_alias : t.Weighs YieldsAlias fun aliasName => t.names aliasName.toList := by
  intro aliasName ks h lexed
  cases h with
  | absent => rfl
  | bare named =>
      rw [kinds_cons, kind_of_identifier? (lexed _ (by simp)) named]
      rfl
  | behindAs named =>
      rw [kinds_cons, kind_keyword, Nat.zero_add, kinds_cons,
        kind_of_identifier? (lexed _ (by simp)) named]
      rfl

/-- What an entry of the select list counts for. -/
def column (t : Tally) (c : Column) : Nat := t.expr c.expr + t.names c.aliasName.toList

/-- A column weighs what its expression and its alias do. -/
theorem weighs_column : t.Weighs YieldsColumn t.column := by
  intro c ks h lexed
  cases h with
  | wildcard h => exact kinds_wildcard h lexed
  | expr he ha =>
      rw [kinds_append, kinds_of_yields he fun k hk => lexed k (by simp [hk]),
        weighs_alias ha fun k hk => lexed k (by simp [hk])]
      rfl

/-- What is grouped by weighs the same with or without parentheses. -/
theorem weighs_groups : t.Weighs YieldsGroups fun es => (es.map t.expr).sum := by
  intro es ks h lexed
  cases h with
  | plain h => exact weighs_separated weighs_yields h lexed
  | wrapped h =>
      rw [kinds_inParens]
      exact weighs_separated weighs_yields h fun k hk => lexed k (by simp [inParens, hk])

/-- The direction of a sort key counts for nothing. -/
theorem weighs_sortKey : t.Weighs YieldsSortKey fun key => t.expr key.expr := by
  intro key ks h lexed
  cases h with
  | unsaid h => exact kinds_of_yields h lexed
  | ascending h | descending h =>
      rw [kinds_append, kinds_of_yields h fun k hk => lexed k (by simp [hk])]
      rfl

theorem kinds_rowCount {count : UInt64} {ks : List Kind} (h : YieldsRowCount count ks) :
    t.kinds ks = 0 := by
  cases h <;> rfl

theorem kinds_optionally {keywords : List Keyword} {ks : List Kind}
    (h : Optionally keywords ks) : t.kinds ks = 0 := by
  rcases h with rfl | ⟨keyword, -, rfl⟩ <;> rfl

/-- Neither does any clause about rows. -/
theorem kinds_limits {limits : Grammar.RowLimits} {ks : List Kind} (h : YieldsLimits limits ks) :
    t.kinds ks = 0 := by
  induction h with
  | unsaid => rfl
  | all _ ih => simp [ih]
  | limit _ hcount ih => simp [ih, kinds_rowCount hcount]
  | fetch _ _ hcount hrow honly ih =>
      simp [ih, kinds_rowCount hcount, kinds_optionally hrow, kinds_optionally honly]
  | fetchOne _ _ _ honly ih => simp [ih, kinds_optionally honly]
  | offset _ hoffset hrow ih => simp [ih, kinds_rowCount hoffset, kinds_optionally hrow]

/-- Nor `DISTINCT`. -/
theorem kinds_distinct {distinct : Bool} {ks : List Kind} (h : YieldsDistinct distinct ks) :
    t.kinds ks = 0 := by
  cases h <;> rfl

/-- A table counts for its names. -/
theorem kinds_tableName {schema : Option String} {name : String} {ks : List Kind}
    (h : YieldsTableName schema name ks) (lexed : ∀ k ∈ ks, k.Lexed) :
    t.kinds ks = t.names (name :: schema.toList) := by
  cases h with
  | bare named =>
      rw [kinds_cons, kind_of_identifier? (lexed _ (by simp)) named]
      rfl
  | @inSchema k m schema name hschema named =>
      have dot : t.kind (.symbol .dot) = 0 := rfl
      have first : t.kind k = t.name schema := kind_of_identifier? (lexed k (by simp)) hschema
      have last : t.kind m = t.name name := kind_of_identifier? (lexed m (by simp)) named
      rw [kinds_cons, kinds_cons, kinds_cons, kinds_nil, dot, first, last, Option.toList_some,
        names_cons, names_cons, names_nil]
      omega

-- ======================================================= statements

/-- What a statement counts for, its derived tables apart. -/
def own (t : Tally) (s : Select) : Nat :=
  t.nodes (s.expressions.flatMap Expr.nodes) + t.names s.names

/-- What several statements count for. -/
def statements (t : Tally) (ss : List Select) : Nat := (ss.map t.own).sum

/-- What an entry of the `FROM` list counts for, with its join and the
statements in it. -/
def entry (t : Tally) (entry : Source) : Nat :=
  t.statements entry.statements + t.names entry.names
    + entry.join?.elim 0 fun join => t.expr join.on

/-- Lists of statements add up. -/
theorem statements_append (ss us : List Select) :
    t.statements (ss ++ us) = t.statements ss + t.statements us := by
  unfold statements
  rw [List.map_append, List.sum_append]

/-- So do lists of names. -/
theorem names_append (ns ms : List String) : t.names (ns ++ ms) = t.names ns + t.names ms := by
  unfold names
  rw [List.map_append, List.sum_append]

/-- The entries of the select list: their expressions and their aliases. -/
theorem sum_column (columns : List Column) :
    (columns.map t.column).sum
      = ((columns.map Column.expr).map t.expr).sum
        + t.names (columns.filterMap Column.aliasName) := by
  induction columns with
  | nil => rfl
  | cons c columns ih =>
      have aliases : t.names ((c :: columns).filterMap Column.aliasName)
          = t.names c.aliasName.toList + t.names (columns.filterMap Column.aliasName) := by
        rw [← names_append]
        cases h : c.aliasName <;> simp [h]
      rw [aliases, List.map_cons, List.sum_cons, ih]
      simp only [List.map_cons, List.sum_cons, column]
      omega

/-- The entries of the `FROM` list: the statements in them, their names and
the conditions of their joins. -/
theorem sum_entry (entries : List Source) :
    (entries.map t.entry).sum
      = t.statements (entries.flatMap Source.statements) + t.names (entries.flatMap Source.names)
        + ((joinConditions entries).map t.expr).sum := by
  induction entries with
  | nil => rfl
  | cons e entries ih =>
      have condition : ((e.join?.map Join.on).toList.map t.expr).sum
          = e.join?.elim 0 fun join => t.expr join.on := by
        cases e.join? <;> simp
      rw [joinConditions_cons, List.map_append, List.sum_append, condition, List.map_cons,
        List.sum_cons, ih, List.flatMap_cons, List.flatMap_cons, statements_append, names_append,
        entry]
      omega

/-- A statement and its derived tables, clause by clause. -/
theorem statements_eq (s : Select) :
    t.statements s.statements
      = ((s.columns.getD []).map t.column).sum + ((s.sources.getD []).map t.entry).sum
        + s.filter.elim 0 t.expr + ((s.groups.getD []).map t.expr).sum + s.having.elim 0 t.expr
        + ((s.order.getD []).map fun key => t.expr key.expr).sum := by
  have optional (o : Option Expr) : (o.toList.map t.expr).sum = o.elim 0 t.expr := by
    cases o <;> simp
  have whole : t.statements s.statements
      = t.own s + t.statements ((s.sources.getD []).flatMap Source.statements) := by
    rw [Select.statements_eq]
    exact List.sum_cons
  have expressions : t.nodes (s.expressions.flatMap Expr.nodes)
      = (((s.columns.getD []).map Column.expr).map t.expr).sum
        + (s.clauseExpressions.map t.expr).sum := by
    rw [nodes_flatMap, Select.expressions_eq, List.map_append, List.sum_append]
    rfl
  have clauses : (s.clauseExpressions.map t.expr).sum
      = ((joinConditions (s.sources.getD [])).map t.expr).sum + s.filter.elim 0 t.expr
        + ((s.groups.getD []).map t.expr).sum + s.having.elim 0 t.expr
        + ((s.order.getD []).map fun key => t.expr key.expr).sum := by
    unfold Select.clauseExpressions
    simp only [List.map_append, List.sum_append, optional, List.map_map]
    rfl
  have names : t.names s.names = t.names ((s.columns.getD []).filterMap Column.aliasName)
      + t.names ((s.sources.getD []).flatMap Source.names) := names_append _ _
  rw [whole, own, expressions, clauses, names, sum_column, sum_entry]
  omega

/-- A join counts for its condition. -/
theorem entry_withJoin {e : Source} (bare : e.join? = none) (join : Join) :
    t.entry (e.withJoin join) = t.entry e + t.expr join.on := by
  unfold entry
  rw [statements_withJoin, names_withJoin, Source.join?_withJoin, bare]
  rfl

mutual

/-- The tokens of a statement count for what it counts for, with its
derived tables. -/
theorem kinds_of_yieldsSelect {s : Select} {ks : List Kind} (h : YieldsSelect s ks)
    (lexed : ∀ k ∈ ks, k.Lexed) : t.kinds ks = t.statements s.statements :=
  match h with
  | @YieldsSelect.mk distinct columns sources filter groups having order limits ds cs fs ws gs hs
      os ls hdistinct hcolumns hsources hfilter hgroups hhaving horder hlimits => by
      have ccolumns := weighs_items (t := t) (weighs_separated weighs_column) hcolumns
        fun k hk => lexed k (by simp [hk])
      have cfrom := kinds_of_yieldsFrom hsources fun k hk => lexed k (by simp [hk])
      have cfilter := weighs_clause (t := t) weighs_yields hfilter
        fun k hk => lexed k (by simp [hk])
      have cgroups := weighs_items (t := t) weighs_groups hgroups
        fun k hk => lexed k (by simp [hk])
      have chaving := weighs_clause (t := t) weighs_yields hhaving
        fun k hk => lexed k (by simp [hk])
      have corder := weighs_items (t := t) (weighs_separated weighs_sortKey) horder
        fun k hk => lexed k (by simp [hk])
      rw [statements_eq]
      simp only [kinds_cons, kinds_append, kind_keyword, kinds_distinct hdistinct,
        kinds_limits hlimits, ccolumns, cfrom, cfilter, cgroups, chaving, corder]
      omega

/-- The tokens of an entry of `FROM` count for the entry. -/
theorem kinds_of_yieldsSource {e : Source} {ks : List Kind} (h : YieldsSource e ks)
    (lexed : ∀ k ∈ ks, k.Lexed) : t.kinds ks = t.entry e :=
  match h with
  | @YieldsSource.table name schema aliasName ns ps as named parens ha => by
      have none : t.kinds ps = 0 := by
        rcases parens with rfl | rfl <;> rfl
      rw [kinds_append, kinds_append, none,
        kinds_tableName named fun k hk => lexed k (by simp [hk]),
        weighs_alias ha fun k hk => lexed k (by simp [hk]), Nat.add_zero, ← names_append]
      exact (Nat.zero_add _).symm
  | .derived inner ha => by
      rw [kinds_append, kinds_inParens,
        kinds_of_yieldsSelect inner fun k hk => lexed k (by simp [inParens, hk]),
        weighs_alias ha fun k hk => lexed k (by simp [hk])]
      rfl

/-- Those of the whole list do for its entries. -/
theorem kinds_of_yieldsFrom {sources : Option (List Source)} {ks : List Kind}
    (h : YieldsFrom sources ks) (lexed : ∀ k ∈ ks, k.Lexed) :
    t.kinds ks = ((sources.getD []).map t.entry).sum :=
  match h with
  | .absent => rfl
  | .present first more => by
      rw [kinds_cons, kind_keyword, kinds_append,
        kinds_of_yieldsSource first fun k hk => lexed k (by simp [hk]),
        kinds_of_yieldsMore more fun k hk => lexed k (by simp [hk])]
      exact Nat.zero_add _

/-- And those of the further entries, with what joins them. -/
theorem kinds_of_yieldsMore {entries : List Source} {ks : List Kind} (h : YieldsMore entries ks)
    (lexed : ∀ k ∈ ks, k.Lexed) : t.kinds ks = (entries.map t.entry).sum :=
  match h with
  | .done => rfl
  | .comma hentry more => by
      have comma : t.kind (.symbol .comma) = 0 := rfl
      rw [kinds_cons, comma, kinds_append,
        kinds_of_yieldsSource hentry fun k hk => lexed k (by simp [hk]),
        kinds_of_yieldsMore more fun k hk => lexed k (by simp [hk])]
      exact Nat.zero_add _
  | @YieldsMore.join type words e on later es os ls spelled hentry hon more => by
      have joined : t.entry (e.withJoin ⟨type, on⟩) = t.entry e + t.expr on :=
        entry_withJoin (join?_of_yieldsSource hentry) ⟨type, on⟩
      rw [kinds_append, kinds_keywords, kinds_cons, kind_keyword, kinds_append, kinds_append,
        kinds_cons, kind_keyword,
        kinds_of_yieldsSource hentry fun k hk => lexed k (by simp [hk]),
        kinds_of_yields hon fun k hk => lexed k (by simp [hk]),
        kinds_of_yieldsMore more fun k hk => lexed k (by simp [hk]), List.map_cons, List.sum_cons,
        joined]
      omega

end

/-- Statements count for their nodes and their names. -/
theorem statements_nodes (ss : List Select) :
    t.statements ss = t.nodes (statementNodes ss) + t.names (ss.flatMap Select.names) := by
  unfold statementNodes
  rw [nodes_flatMap, names_flatMap]
  unfold statements
  induction ss with
  | nil => rfl
  | cons s ss ih =>
      simp only [List.map_cons, List.sum_cons, ih, own]
      omega

/-- The tokens of a text count for the nodes and the names of its statement,
those of the derived tables included. -/
theorem kinds_of_yieldsInput {s : Select} {ks : List Kind} (h : YieldsInput s ks)
    (lexed : ∀ k ∈ ks, k.Lexed) :
    t.kinds ks = t.nodes s.nodes + t.names (s.statements.flatMap Select.names) := by
  refine Eq.trans ?_ (statements_nodes s.statements)
  cases h with
  | plain h =>
      rw [kinds_append, kinds_of_yieldsSelect h fun k hk => lexed k (by simp [hk])]
      rfl
  | terminated h =>
      rw [kinds_append, kinds_of_yieldsSelect h fun k hk => lexed k (by simp [hk])]
      rfl

/-- Every tally of the tokens of a text is the tally of its statement. -/
theorem kinds_of_parse {source : String} {statement : Select}
    (h : parse source = .ok statement) :
    ∃ tokens, tokenize source = .ok tokens ∧ ∀ t : Tally,
      t.kinds (tokens.map Token.kind)
        = t.nodes statement.nodes + t.names (statement.statements.flatMap Select.names) := by
  obtain ⟨tokens, htokens, yields, lexed⟩ := parse_yields h
  exact ⟨tokens, htokens, fun t => kinds_of_yieldsInput yields lexed⟩

-- ====================================================== single stars

/-- Where one token counts, and counts once, tokens are counted. -/
theorem kinds_eq_count {star : Kind} (one : t.kind star = 1)
    (other : ∀ k, k ≠ star → t.kind k = 0) (ks : List Kind) : t.kinds ks = ks.count star := by
  induction ks with
  | nil => rfl
  | cons k ks ih =>
      by_cases same : k = star
      · rw [kinds_cons, ih, same, one, List.count_cons_self, Nat.add_comm]
      · rw [kinds_cons, ih, other k same, List.count_cons_of_ne same, Nat.zero_add]

/-- Where the nodes of two sorts count once each, nodes are counted. -/
theorem nodes_eq_countP {p q : Expr → Bool}
    (each : ∀ e, t.node e = (if p e then 1 else 0) + if q e then 1 else 0) (es : List Expr) :
    t.nodes es = es.countP p + es.countP q := by
  induction es with
  | nil => rfl
  | cons e es ih =>
      rw [nodes_cons, ih, each, List.countP_cons, List.countP_cons]
      omega

end Tally

end SqlSelect
