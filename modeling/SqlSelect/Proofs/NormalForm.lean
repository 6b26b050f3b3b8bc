/-
The form of the trees that the grammar yields.

Not every tree is the tree of a text. A minus sign goes into a number, a
list stands only on the right of `IN`, a wildcard is only an argument, the
least whole number has no spelling. `Expr.Formed` says it of one node and
its children, `Expr.Normal` of a whole expression and `Select.Normal` of a
statement; what yields tokens of a text is normal.

# Nodes and trees

`Formed` looks at a node, its own values and the sort of its children, and can
be decided. An expression is normal if it is an operand and all its nodes are
formed, so that a child which is an operand is normal too (`Normal.child`). The
lemmas named `normal_…` build normal expressions, one lemma a constructor.

# Statements

The normal form of a statement is an inductive family that follows the `FROM`
list, with one member for statements, one for entries and two for lists of
entries. The proofs that a grammar reads back what is written go by induction
on it.
-/
import SqlSelect.Proofs.Sound.Expr
import SqlSelect.Proofs.Tree

namespace SqlSelect

/-- What a call can call: a function whose name is no star, or one of the
keywords that are called like functions. -/
def Callee.Formed : Callee → Prop
  | .name function => function ≠ Expr.star
  | .keyword word => (Keyword.ofWord? word).any Keyword.isFunction = true

instance (function : Callee) : Decidable function.Formed :=
  match function with
  | .name function => inferInstanceAs (Decidable (function ≠ Expr.star))
  | .keyword word => inferInstanceAs (Decidable ((Keyword.ofWord? word).any _ = true))

/-- Whether the operator is a membership test. -/
def BinaryOp.isMembership : BinaryOp → Bool
  | .isIn | .notIn => true
  | _ => false

namespace Expr

/-- Whether the children of a node are where the grammar puts them, and its
own values ones that it can have. -/
def Formed : Expr → Prop
  | .integer value => value ≠ Int64.minValue
  | .ref (some table) name => name = star ∨ table ≠ star
  | .call function args => function.Formed ∧ ∀ arg ∈ args, arg.isList = false
  | .binary op left right =>
    left.isOperand = true
      ∧ if op.isMembership then right.isList = true else right.isOperand = true
  | .unary op operand =>
    operand.isOperand = true ∧ (op = .neg → operand.isNumber = false)
  | .between _ value low high =>
    value.isOperand = true ∧ low.isOperand = true ∧ high.isOperand = true
  | .cast operand target => operand.isOperand = true ∧ target.config ≠ some []
  | .case operand arms otherwise =>
    arms ≠ [] ∧ ∀ x ∈ (Expr.case operand arms otherwise).children, x.isOperand = true
  | .list items => items ≠ [] ∧ ∀ item ∈ items, item.isOperand = true
  | _ => True

instance (e : Expr) : Decidable e.Formed :=
  match e with
  | .integer value => inferInstanceAs (Decidable (value ≠ Int64.minValue))
  | .ref (some table) name => inferInstanceAs (Decidable (name = star ∨ table ≠ star))
  | .call function args => inferInstanceAs (Decidable (function.Formed ∧ ∀ arg ∈ args, _))
  | .binary op left right => inferInstanceAs
      (Decidable (left.isOperand = true
        ∧ if op.isMembership then right.isList = true else right.isOperand = true))
  | .unary op operand => inferInstanceAs
      (Decidable (operand.isOperand = true ∧ (op = .neg → operand.isNumber = false)))
  | .between _ value low high => inferInstanceAs
      (Decidable (value.isOperand = true ∧ low.isOperand = true ∧ high.isOperand = true))
  | .cast operand target => inferInstanceAs
      (Decidable (operand.isOperand = true ∧ target.config ≠ some []))
  | .case operand arms otherwise =>
    match arms with
    | [] => isFalse fun h => h.1 rfl
    | arm :: later => decidable_of_iff
        (∀ x ∈ (Expr.case operand (arm :: later) otherwise).children, x.isOperand = true)
        ⟨fun h => ⟨List.cons_ne_nil arm later, h⟩, And.right⟩
  | .list [] => isFalse fun h => h.1 rfl
  | .list (item :: later) => decidable_of_iff (∀ x ∈ item :: later, x.isOperand = true)
      ⟨fun h => ⟨List.cons_ne_nil item later, h⟩, And.right⟩
  | .numeric _ | .string _ | .boolean _ | .null | .ref none _ | .parameter _ => isTrue trivial

/-- An operand all of whose nodes are formed. -/
structure Normal (e : Expr) : Prop where
  operand : e.isOperand = true
  formed : ∀ x ∈ e.nodes, x.Formed

instance (e : Expr) : Decidable e.Normal :=
  decidable_of_iff (e.isOperand = true ∧ ∀ x ∈ e.nodes, x.Formed)
    ⟨fun h => ⟨h.1, h.2⟩, fun h => ⟨h.operand, h.formed⟩⟩

/-- The children of an expression have formed nodes too. -/
theorem formed_child {e c : Expr} (formed : ∀ x ∈ e.nodes, x.Formed) (h : c ∈ e.children) :
    ∀ x ∈ c.nodes, x.Formed :=
  fun x hx => formed x (mem_nodes_iff.2 (Or.inr ⟨c, h, hx⟩))

theorem Normal.node {e : Expr} (h : e.Normal) : e.Formed := h.formed e e.mem_nodes_self

/-- A child that is an operand is normal. -/
theorem Normal.child {e c : Expr} (h : e.Normal) (hc : c ∈ e.children)
    (operand : c.isOperand = true) : c.Normal :=
  ⟨operand, formed_child h.formed hc⟩

theorem isOperand_iff {e : Expr} :
    e.isOperand = true ↔ e.isWildcard = false ∧ e.isList = false := by
  simp [isOperand]

/-- An expression without children is normal if its own values are ones
that it can have. -/
theorem normal_leaf {e : Expr} (operand : e.isOperand = true) (node : e.Formed)
    (leaf : e.children = []) : e.Normal :=
  ⟨operand, forall_nodes node (by rw [leaf]; nofun)⟩

/-- An expression with one child is normal if the child is. -/
theorem normal_single {e c : Expr} (operand : e.isOperand = true) (node : e.Formed)
    (single : e.children = [c]) (h : c.Normal) : e.Normal := by
  refine ⟨operand, forall_nodes node ?_⟩
  rw [single]
  intro x hx
  rw [List.mem_singleton.1 hx]
  exact h.formed

/-- Of the arguments of a call only lists are ruled out. -/
theorem normal_call {function : Callee} {args : List Expr} (called : function.Formed)
    (each : ∀ arg ∈ args, arg.isList = false ∧ ∀ x ∈ arg.nodes, x.Formed) :
    (Expr.call function args).Normal := by
  refine ⟨rfl, forall_nodes ⟨called, ?_⟩ ?_⟩
  · exact fun arg harg => (each arg harg).1
  · exact fun arg harg => (each arg harg).2

section Binary

variable {op : BinaryOp} {left right : Expr}

/-- An operator with two children, of which the second may be a list. -/
theorem normal_binary_of_formed (node : (Expr.binary op left right).Formed)
    (hleft : ∀ x ∈ left.nodes, x.Formed) (hright : ∀ x ∈ right.nodes, x.Formed) :
    (Expr.binary op left right).Normal := by
  refine ⟨rfl, forall_nodes node ?_⟩
  simp only [children, List.mem_cons, List.not_mem_nil, or_false]
  rintro c (rfl | rfl)
  · exact hleft
  · exact hright

theorem normal_binary (plain : op.isMembership = false) (hleft : left.Normal)
    (hright : right.Normal) : (Expr.binary op left right).Normal := by
  refine normal_binary_of_formed ⟨hleft.operand, ?_⟩ hleft.formed hright.formed
  rw [plain]
  exact hright.operand

theorem normal_membership {items : List Expr} (test : op.isMembership = true)
    (hleft : left.Normal) (filled : items ≠ []) (each : ∀ item ∈ items, item.Normal) :
    (Expr.binary op left (.list items)).Normal := by
  have hlist : ∀ x ∈ (Expr.list items).nodes, x.Formed := by
    refine forall_nodes ⟨filled, ?_⟩ ?_
    · exact fun item hitem => (each item hitem).operand
    · exact fun item hitem => (each item hitem).formed
  refine normal_binary_of_formed ⟨hleft.operand, ?_⟩ hleft.formed hlist
  rw [test]
  rfl

end Binary

theorem normal_between {negated : Bool} {value low high : Expr} (hvalue : value.Normal)
    (hlow : low.Normal) (hhigh : high.Normal) :
    (Expr.between negated value low high).Normal := by
  refine ⟨rfl, forall_nodes ⟨hvalue.operand, hlow.operand, hhigh.operand⟩ ?_⟩
  simp only [children, List.mem_cons, List.not_mem_nil, or_false]
  rintro c (rfl | rfl | rfl)
  · exact hvalue.formed
  · exact hlow.formed
  · exact hhigh.formed

theorem normal_case {operand otherwise : Option Expr} {arms : List (Expr × Expr)}
    (filled : arms ≠ []) (hoperand : ∀ e ∈ operand, e.Normal)
    (harms : ∀ arm ∈ arms, arm.1.Normal ∧ arm.2.Normal) (hotherwise : ∀ e ∈ otherwise, e.Normal) :
    (Expr.case operand arms otherwise).Normal := by
  have each : ∀ x ∈ (Expr.case operand arms otherwise).children, x.Normal := by
    intro x hx
    rcases List.mem_append.1 hx with hx | hx
    · rcases List.mem_append.1 hx with hx | hx
      · exact hoperand x (Option.mem_toList.1 hx)
      · obtain ⟨arm, harm, hx⟩ := List.mem_flatMap.1 hx
        simp only [List.mem_cons, List.not_mem_nil, or_false] at hx
        rcases hx with rfl | rfl
        · exact (harms arm harm).1
        · exact (harms arm harm).2
    · exact hotherwise x (Option.mem_toList.1 hx)
  refine ⟨rfl, forall_nodes ⟨filled, ?_⟩ ?_⟩
  · exact fun x hx => (each x hx).operand
  · exact fun x hx => (each x hx).formed

end Expr

-- ======================================================== no stars

/-- No bare word is a star. -/
theorem ne_star_of_anyName? {k : Kind} {name : String} (lexed : k.Lexed)
    (named : k.anyName? = some name) (other : k ≠ .quoted Expr.star) : name ≠ Expr.star := by
  rintro rfl
  cases k with
  | quoted found =>
      obtain rfl := Option.some.inj named
      exact other rfl
  | word found =>
      obtain rfl := Option.some.inj named
      exact (lexed.2 '*' (by decide)).2 rfl
  | _ => cases named

/-- What can be a name is a word or in quotes. -/
theorem anyName?_of_identifier? {k : Kind} {name : String} (h : k.identifier? = some name) :
    k.anyName? = some name := by
  cases k with
  | quoted found => exact h
  | word found =>
      change (if (Keyword.ofWord? found).any Keyword.isReserved then none else some found) = _ at h
      split at h
      · cases h
      · exact h
  | _ => cases h

theorem ne_star_of_names {k : Kind} {name : String} (lexed : k.Lexed) (named : k.Names name) :
    name ≠ Expr.star :=
  ne_star_of_anyName? lexed (anyName?_of_identifier? named.1) named.2

/-- The name of a column is no star. -/
theorem isOperand_ref {table : Option String} {name : String} (h : name ≠ Expr.star) :
    (Expr.ref table name).isOperand = true := by
  simp [Expr.isOperand, Expr.isWildcard, Expr.isList, h]

-- ====================================================== expressions

/-- A callee that a token of a text names. -/
theorem Callee.formed_of_calls {k : Kind} {function : Callee} (lexed : k.Lexed)
    (called : k.Calls function) : function.Formed := by
  cases function with
  | name function => exact ne_star_of_names lexed called
  | keyword word =>
      obtain ⟨rfl, keyword, spelled, isFunction⟩ := called
      show (Keyword.ofWord? word).any Keyword.isFunction = true
      rw [show Keyword.ofWord? word = some keyword from spelled]
      exact isFunction

/-- A wildcard is formed. -/
theorem formed_of_yieldsWildcard {e : Expr} {ks : List Kind} (h : YieldsWildcard e ks) :
    e.isList = false ∧ ∀ x ∈ e.nodes, x.Formed := by
  cases h with
  | all => exact ⟨rfl, fun x hx => List.mem_singleton.1 hx ▸ trivial⟩
  | ofTable named => exact ⟨rfl, fun x hx => List.mem_singleton.1 hx ▸ Or.inl rfl⟩

theorem config_ne_nil_of_yieldsType {target : DataType} {ks : List Kind}
    (h : YieldsType target ks) : target.config ≠ some [] := by
  cases h with
  | mk named words modifiers zone =>
      cases modifiers with
      | absent => exact nofun
      | present filled =>
          intro empty
          exact filled (Option.some.inj empty)

/-- The tokens of an arm are among those of its `CASE`. -/
theorem mem_caseKinds {before after : List Kind} {k : Kind}
    {arms : List ((Expr × List Kind) × (Expr × List Kind))}
    {arm : (Expr × List Kind) × (Expr × List Kind)} (harm : arm ∈ arms)
    (hk : k ∈ arm.1.2 ∨ k ∈ arm.2.2) :
    k ∈ Keyword.CASE.kind :: (before ++ (arms.flatMap fun arm =>
      Keyword.WHEN.kind :: arm.1.2 ++ Keyword.THEN.kind :: arm.2.2) ++ after
        ++ [Keyword.END.kind]) := by
  refine List.mem_cons_of_mem _ (List.mem_append_left _ (List.mem_append_left _ ?_))
  refine List.mem_append_right _ (List.mem_flatMap.2 ⟨arm, harm, ?_⟩)
  rcases hk with hk | hk
  · simp [hk]
  · simp [hk]

/-- What the grammar makes of the tokens of a text is normal. -/
theorem normal_of_yields {e : Expr} {ks : List Kind} (h : Yields e ks)
    (lexed : ∀ k ∈ ks, k.Lexed) : e.Normal := by
  induction h with
  | integer value =>
      exact Expr.normal_leaf rfl (Grammar.ne_minValue_of_yields (.integer value) lexed rfl) rfl
  | signedInteger number _ =>
      refine Expr.normal_leaf rfl ?_ rfl
      exact Grammar.ne_minValue_of_yields (.signedInteger number) lexed rfl
  | numeric | string | parameter | true | false | null | signedNumeric =>
      exact Expr.normal_leaf rfl trivial rfl
  | column named =>
      have name := ne_star_of_names (lexed _ List.mem_cons_self) named
      exact Expr.normal_leaf (isOperand_ref name) trivial rfl
  | @member k m table name named hmember =>
      have htable := ne_star_of_names (lexed k List.mem_cons_self) named
      have hname := ne_star_of_anyName? (lexed m (by simp)) hmember.1 hmember.2
      exact Expr.normal_leaf (isOperand_ref hname) (Or.inr htable) rfl
  | @call k function parts called args ih =>
      refine Expr.normal_call (Callee.formed_of_calls (lexed k List.mem_cons_self) called) ?_
      intro arg harg
      obtain ⟨p, hp, rfl⟩ := List.mem_map.1 harg
      by_cases wild : YieldsWildcard p.1 p.2
      · exact formed_of_yieldsWildcard wild
      · have normal := ih p hp wild fun k hk =>
          lexed k (List.mem_cons_of_mem _ (mem_inParens_commas hp hk))
        exact ⟨(Expr.isOperand_iff.1 normal.operand).2, normal.formed⟩
  | @binary op left right ls rs plain _ _ ihleft ihright =>
      have hleft := ihleft fun k hk => lexed k (by simp [hk])
      have hright := ihright fun k hk => lexed k (by simp [hk])
      have other : op.isMembership = false := by
        cases op
        case isIn => exact absurd rfl plain.1
        case notIn => exact absurd rfl plain.2
        all_goals rfl
      exact Expr.normal_binary other hleft hright
  | @isIn op left ls parts membership _ filled _ ihleft ihitems =>
      have hleft := ihleft fun k hk => lexed k (by simp [hk])
      have test : op.isMembership = true := by
        rcases membership with rfl | rfl <;> rfl
      refine Expr.normal_membership test hleft (by simpa using filled) fun item hitem => ?_
      obtain ⟨p, hp, rfl⟩ := List.mem_map.1 hitem
      exact ihitems p hp fun k hk =>
        lexed k (List.mem_append_right _ (mem_inParens_commas hp hk))
  | between _ _ _ ihvalue ihlow ihhigh =>
      have hvalue := ihvalue fun k hk => lexed k (by simp [hk])
      have hlow := ihlow fun k hk => lexed k (by simp [hk])
      have hhigh := ihhigh fun k hk => lexed k (by simp [hk])
      exact Expr.normal_between hvalue hlow hhigh
  | prefixed _ kept _ ih =>
      have hoperand := ih fun k hk => lexed k (by simp [hk])
      exact Expr.normal_single rfl ⟨hoperand.operand, kept⟩ rfl hoperand
  | @test op _ _ behind _ ih =>
      have hoperand := ih fun k hk => lexed k (by simp [hk])
      refine Expr.normal_single rfl ⟨hoperand.operand, ?_⟩ rfl hoperand
      rintro rfl
      cases behind
  | castTo _ htarget ih | castAs _ htarget ih =>
      have hoperand := ih fun k hk => lexed k (by simp [inParens, hk])
      exact Expr.normal_single rfl ⟨hoperand.operand, config_ne_nil_of_yieldsType htarget⟩ rfl
        hoperand
  | @case operand otherwise arms filled _ _ _ _ ihoperand ihconditions ihvalues ihotherwise =>
      refine Expr.normal_case (by simpa using filled) ?_ ?_ ?_
      · intro e he
        obtain ⟨p, rfl, rfl⟩ := Option.map_eq_some_iff.1 he
        exact ihoperand p rfl fun k hk => lexed k (by simp [hk])
      · intro pair hpair
        obtain ⟨arm, harm, rfl⟩ := List.mem_map.1 hpair
        exact ⟨ihconditions arm harm fun k hk => lexed k (mem_caseKinds harm (Or.inl hk)),
          ihvalues arm harm fun k hk => lexed k (mem_caseKinds harm (Or.inr hk))⟩
      · intro e he
        obtain ⟨p, rfl, rfl⟩ := Option.map_eq_some_iff.1 he
        exact ihotherwise p rfl fun k hk => lexed k (by simp [hk])
  | paren _ ih => exact ih fun k hk => lexed k (by simp [inParens, hk])

-- ========================================================== clauses

/-- Every item of a list has its tokens among those of the list. -/
theorem Separated.mem {α : Type} {R : α → List Kind → Prop} {items : List α} {ks : List Kind}
    (h : Separated R items ks) {a : α} (ha : a ∈ items) :
    ∃ js, R a js ∧ ∀ k ∈ js, k ∈ ks := by
  obtain ⟨parts, -, rfl, rfl, each⟩ := h
  obtain ⟨p, hp, rfl⟩ := List.mem_map.1 ha
  exact ⟨p.2, each p hp, fun k hk => mem_commas (List.mem_map_of_mem hp) hk⟩

/-- A list that is there is not empty. -/
theorem Separated.ne_nil {α : Type} {R : α → List Kind → Prop} {items : List α} {ks : List Kind}
    (h : Separated R items ks) : items ≠ [] := by
  obtain ⟨parts, filled, rfl, -, -⟩ := h
  simpa using filled

/-- The body of a clause has its tokens among those of the clause. -/
theorem YieldsClause.mem {α : Type} {keywords : List Keyword} {R : α → List Kind → Prop}
    {o : Option α} {ks : List Kind} (h : YieldsClause keywords R o ks) {a : α} (ha : o = some a) :
    ∃ js, R a js ∧ ∀ k ∈ js, k ∈ ks := by
  subst ha
  cases h with
  | present body => exact ⟨_, body, fun k hk => List.mem_append_right _ hk⟩

/-- An item of a clause with a list has its tokens among those of the
clause. -/
theorem YieldsClause.mem_items {α : Type} {keywords : List Keyword} {R : α → List Kind → Prop}
    {o : Option (List α)} {ks : List Kind} (h : YieldsClause keywords (Separated R) o ks) {a : α}
    (ha : a ∈ o.getD []) : ∃ js, R a js ∧ ∀ k ∈ js, k ∈ ks := by
  cases o with
  | none => cases ha
  | some items =>
      obtain ⟨ls, hls, within⟩ := h.mem rfl
      obtain ⟨js, hjs, inside⟩ := hls.mem ha
      exact ⟨js, hjs, fun k hk => within k (inside k hk)⟩

/-- The `GROUP BY` list is a list, in parentheses or not. -/
theorem YieldsGroups.separated {es : List Expr} {ks : List Kind} (h : YieldsGroups es ks) :
    ∃ js, Separated Yields es js ∧ ∀ k ∈ js, k ∈ ks := by
  cases h with
  | plain h => exact ⟨_, h, fun k hk => hk⟩
  | wrapped h => exact ⟨_, h, fun k hk => by simp [inParens, hk]⟩

theorem groups_mem {groups : Option (List Expr)} {ks : List Kind}
    (h : YieldsClause [.GROUP, .BY] YieldsGroups groups ks) {e : Expr} (he : e ∈ groups.getD []) :
    ∃ js, Yields e js ∧ ∀ k ∈ js, k ∈ ks := by
  cases groups with
  | none => cases he
  | some es =>
      obtain ⟨js, hjs, within⟩ := h.mem rfl
      obtain ⟨ls, hls, inside⟩ := hjs.separated
      obtain ⟨is, his, item⟩ := hls.mem he
      exact ⟨is, his, fun k hk => within k (inside k (item k hk))⟩

/-- What is sorted by has its tokens among those of the entry. -/
theorem YieldsSortKey.yields {key : SortKey} {ks : List Kind} (h : YieldsSortKey key ks) :
    ∃ js, Yields key.expr js ∧ ∀ k ∈ js, k ∈ ks := by
  cases h with
  | unsaid h => exact ⟨_, h, fun k hk => hk⟩
  | ascending h => exact ⟨_, h, fun k hk => by simp [hk]⟩
  | descending h => exact ⟨_, h, fun k hk => by simp [hk]⟩

/-- The expressions of a clause with a list of them are normal. -/
theorem normal_of_yieldsGroups {groups : Option (List Expr)} {ks : List Kind}
    (h : YieldsClause [.GROUP, .BY] YieldsGroups groups ks) (lexed : ∀ k ∈ ks, k.Lexed) :
    ∀ e ∈ groups.getD [], e.Normal := by
  intro e he
  obtain ⟨js, hjs, within⟩ := groups_mem h he
  exact normal_of_yields hjs fun k hk => lexed k (within k hk)

theorem normal_of_yieldsOrder {order : Option (List SortKey)} {ks : List Kind}
    (h : YieldsClause [.ORDER, .BY] (Separated YieldsSortKey) order ks)
    (lexed : ∀ k ∈ ks, k.Lexed) : ∀ key ∈ order.getD [], key.expr.Normal := by
  intro key hkey
  obtain ⟨js, hjs, within⟩ := h.mem_items hkey
  obtain ⟨is, his, inside⟩ := hjs.yields
  exact normal_of_yields his fun k hk => lexed k (within k (inside k hk))

theorem normal_of_yieldsClause {keyword : Keyword} {o : Option Expr} {ks : List Kind}
    (h : YieldsClause [keyword] Yields o ks) (lexed : ∀ k ∈ ks, k.Lexed) :
    ∀ e ∈ o, e.Normal := by
  intro e he
  obtain ⟨js, hjs, within⟩ := h.mem he
  exact normal_of_yields hjs fun k hk => lexed k (within k hk)

-- ======================================================= statements

theorem Source.join?_withJoin (entry : Source) (join : Join) :
    (entry.withJoin join).join? = some join := by
  cases entry <;> rfl

/-- Before its join an entry has none. -/
theorem join?_of_yieldsSource {entry : Source} {ks : List Kind} (h : YieldsSource entry ks) :
    entry.join? = none := by
  cases h <;> rfl

/-- An entry of the select list is a wildcard without an alias, or a normal
expression. -/
def Column.Normal (c : Column) : Prop :=
  (c.expr.isWildcard = true ∧ c.aliasName = none) ∨ c.expr.Normal

/-- A wildcard has no child, and no other expression of a select list holds
what is not formed. -/
theorem Column.Normal.formed {c : Column} (h : c.Normal) : ∀ x ∈ c.expr.nodes, x.Formed := by
  rcases h with ⟨wild, -⟩ | normal
  · cases hexpr : c.expr with
    | ref table name =>
        rw [hexpr] at wild
        refine Expr.forall_nodes ?_ nofun
        cases table with
        | none => trivial
        | some table => exact Or.inl (eq_of_beq wild)
    | _ =>
        rw [hexpr] at wild
        cases wild
  · exact normal.formed

/-- A limit says something, in numbers of rows that have a spelling. -/
structure Limit.Normal (limit : Limit) : Prop where
  said : limit.count.isSome = true ∨ limit.offset.isSome = true
  count : ∀ rows ∈ limit.count, 0 ≤ rows.toInt64
  offset : ∀ rows ∈ limit.offset, 0 ≤ rows.toInt64

mutual

/-- A statement has normal expressions, and no list of it is empty. -/
inductive Select.Normal : Select → Prop
  | mk {s : Select} (columns : ∀ cs ∈ s.columns, cs ≠ [] ∧ ∀ c ∈ cs, c.Normal)
    (sources : NormalFrom s.sources) (filter : ∀ e ∈ s.filter, e.Normal)
    (groups : ∀ es ∈ s.groups, es ≠ [] ∧ ∀ e ∈ es, e.Normal)
    (having : ∀ e ∈ s.having, e.Normal)
    (order : ∀ keys ∈ s.order, keys ≠ [] ∧ ∀ key ∈ keys, key.expr.Normal)
    (limit : ∀ limit ∈ s.limit, limit.Normal) : Select.Normal s

/-- An entry of the `FROM` list, before its join. -/
inductive Source.Normal : Source → Prop
  | table {name : String} {schema aliasName : Option String} :
    Source.Normal (.table name schema aliasName none)
  | derived {statement : Select} {aliasName : String} (inner : statement.Normal) :
    Source.Normal (.derived statement aliasName none)

/-- The `FROM` list, if there is one, whose first entry has no join. -/
inductive NormalFrom : Option (List Source) → Prop
  | absent : NormalFrom none
  | present {entry : Source} {later : List Source} (first : entry.Normal)
    (more : NormalMore later) : NormalFrom (some (entry :: later))

/-- The entries behind the first. -/
inductive NormalMore : List Source → Prop
  | done : NormalMore []
  | comma {entry : Source} {later : List Source} (first : entry.Normal)
    (more : NormalMore later) : NormalMore (entry :: later)
  | join {type : JoinType} {entry : Source} {on : Expr} {later : List Source}
    (first : entry.Normal) (condition : on.Normal) (more : NormalMore later) :
    NormalMore (entry.withJoin ⟨type, on⟩ :: later)

end

theorem normal_of_yieldsColumn {c : Column} {ks : List Kind} (h : YieldsColumn c ks)
    (lexed : ∀ k ∈ ks, k.Lexed) : c.Normal := by
  cases h with
  | wildcard h =>
      refine Or.inl ⟨?_, rfl⟩
      cases h <;> rfl
  | expr he ha => exact Or.inr (normal_of_yields he fun k hk => lexed k (by simp [hk]))

theorem normal_of_yieldsRowCount {rows : UInt64} {ks : List Kind} (h : YieldsRowCount rows ks) :
    0 ≤ rows.toInt64 := by
  cases h with
  | @plain value positive =>
      rw [Int64.toInt64_toUInt64]
      exact positive
  | minusZero => decide

/-- The numbers of rows that are said have a spelling. -/
theorem rows_of_yieldsLimits {limits : Grammar.RowLimits} {ks : List Kind}
    (h : YieldsLimits limits ks) :
    (∀ rows, limits.count = some (some rows) → 0 ≤ rows.toInt64)
      ∧ ∀ rows, limits.offset = some rows → 0 ≤ rows.toInt64 := by
  induction h with
  | unsaid => exact ⟨nofun, nofun⟩
  | all _ ih => exact ⟨nofun, ih.2⟩
  | limit _ hcount ih =>
      refine ⟨?_, ih.2⟩
      rintro rows ⟨⟩
      exact normal_of_yieldsRowCount hcount
  | fetch _ _ hcount _ _ ih =>
      refine ⟨?_, ih.2⟩
      rintro rows ⟨⟩
      exact normal_of_yieldsRowCount hcount
  | fetchOne _ _ _ _ ih =>
      refine ⟨?_, ih.2⟩
      rintro rows ⟨⟩
      decide
  | offset _ hoffset _ ih =>
      refine ⟨ih.1, ?_⟩
      rintro rows ⟨⟩
      exact normal_of_yieldsRowCount hoffset

theorem normal_of_yieldsLimits {limits : Grammar.RowLimits} {ks : List Kind}
    (h : YieldsLimits limits ks) : ∀ limit ∈ limits.clause?, limit.Normal := by
  obtain ⟨hcount, hoffset⟩ := rows_of_yieldsLimits h
  intro limit hlimit
  change (if limits.count.join.isSome || limits.offset.isSome then
    some (Limit.mk limits.count.join limits.offset) else none) = some limit at hlimit
  split at hlimit
  next said =>
    obtain rfl := Option.some.inj hlimit
    refine ⟨by simpa using said, fun rows hrows => ?_, hoffset⟩
    exact hcount rows (Option.join_eq_some_iff.1 hrows)
  next => cases hlimit

mutual

/-- What the grammar makes of the tokens of a text is a normal
statement. -/
theorem normal_of_yieldsSelect {statement : Select} {ks : List Kind}
    (h : YieldsSelect statement ks) (lexed : ∀ k ∈ ks, k.Lexed) : statement.Normal :=
  match h with
  | @YieldsSelect.mk distinct columns sources filter groups having order limits ds cs fs ws gs hs
      os ls hdistinct hcolumns hsources hfilter hgroups hhaving horder hlimits => by
      have hfrom := normal_of_yieldsFrom hsources fun k hk => lexed k (by simp [hk])
      refine .mk ?_ hfrom ?_ ?_ ?_ ?_ (normal_of_yieldsLimits hlimits)
      · rintro cs rfl
        obtain ⟨js, hjs, -⟩ := hcolumns.mem rfl
        refine ⟨hjs.ne_nil, fun c hc => ?_⟩
        obtain ⟨is, his, within⟩ := hcolumns.mem_items hc
        exact normal_of_yieldsColumn his fun k hk => lexed k (by simp [within k hk])
      · exact normal_of_yieldsClause hfilter fun k hk => lexed k (by simp [hk])
      · rintro es rfl
        obtain ⟨js, hjs, -⟩ := hgroups.mem rfl
        obtain ⟨is, his, -⟩ := hjs.separated
        exact ⟨his.ne_nil, normal_of_yieldsGroups hgroups fun k hk => lexed k (by simp [hk])⟩
      · exact normal_of_yieldsClause hhaving fun k hk => lexed k (by simp [hk])
      · rintro keys rfl
        obtain ⟨js, hjs, -⟩ := horder.mem rfl
        exact ⟨hjs.ne_nil, normal_of_yieldsOrder horder fun k hk => lexed k (by simp [hk])⟩

theorem normal_of_yieldsSource {entry : Source} {ks : List Kind} (h : YieldsSource entry ks)
    (lexed : ∀ k ∈ ks, k.Lexed) : entry.Normal :=
  match h with
  | .table _ _ _ => .table
  | .derived inner _ => .derived
      (normal_of_yieldsSelect inner fun k hk => lexed k (by simp [inParens, hk]))

theorem normal_of_yieldsFrom {sources : Option (List Source)} {ks : List Kind}
    (h : YieldsFrom sources ks) (lexed : ∀ k ∈ ks, k.Lexed) : NormalFrom sources :=
  match h with
  | .absent => .absent
  | .present first more => .present
      (normal_of_yieldsSource first fun k hk => lexed k (by simp [hk]))
      (normal_of_yieldsMore more fun k hk => lexed k (by simp [hk]))

theorem normal_of_yieldsMore {entries : List Source} {ks : List Kind}
    (h : YieldsMore entries ks) (lexed : ∀ k ∈ ks, k.Lexed) : NormalMore entries :=
  match h with
  | .done => .done
  | .comma hentry more => .comma
      (normal_of_yieldsSource hentry fun k hk => lexed k (by simp [hk]))
      (normal_of_yieldsMore more fun k hk => lexed k (by simp [hk]))
  | .join _ hentry hon more => .join
      (normal_of_yieldsSource hentry fun k hk => lexed k (by simp [hk]))
      (normal_of_yields hon fun k hk => lexed k (by simp [hk]))
      (normal_of_yieldsMore more fun k hk => lexed k (by simp [hk]))

end

end SqlSelect
