/-
The grammar groups operators as the table of tiers says.

The loop that reads an expression takes operators as long as they bind
tightly enough. So when the tokens of an expression come first, the loop
arrives behind them with that expression in hand, whatever comes next, if
only the next operator does not bind more tightly than the outermost one:
`Leads` says so. It carries the induction over the tree, since the left
operand of an operator is read by the same loop as the operator itself.
From there the loop either stops, and the expression is read, or goes on
with it as a left operand.

Nothing here depends on where parentheses are written beyond what the
table demands.
-/
import SqlSelect.Proofs.Complete.Operand

namespace SqlSelect.Grammar

variable {parens : Parens} {e : Expr}

-- ============================================================ leading

/-- Before the tokens of `e`, the loop for expressions of at least the rank
`floor` goes on behind them with `e` as its left operand. -/
def LeadsFrom (ks : List Kind) (limit : Nat) (e : Expr) : Prop :=
  ∀ ⦃bound floor : Nat⦄ ⦃rest : List Kind⦄, ks.length ≤ bound → floor ≤ limit →
    Follows (limit + 1) rest → ∃ count, bound < count + ks.length
      ∧ Runs (expressionWithin (bound + 1) floor) ks rest
        (extendAll (expressionWithin bound) floor count e)

/-- The tokens of an expression, written without parentheses around it,
lead to it. -/
def Leads (parens : Parens) (e : Expr) : Prop := LeadsFrom (e.kinds parens) e.rank e

/-- Behind the expression the loop stops where nothing goes on with it. -/
theorem reads_extendAll {expr : Nat → Parser Expr} {floor : Nat} {rest : List Kind}
    (looser : ∀ tier, nextTier? rest = some tier → tier.rank < floor) (count : Nat)
    (left : Expr) : Reads (extendAll expr floor count left) [] rest left := by
  cases count with
  | zero => exact Runs.refl _ rest
  | succ count => exact (reads_extend?_stop looser).none (Runs.refl _ rest)

/-- What leads to an expression reads it. -/
theorem LeadsFrom.reads {ks rest : List Kind} {limit bound floor : Nat}
    (h : LeadsFrom ks limit e) (enough : ks.length < bound) (high : floor ≤ limit)
    (follows : Follows floor rest) : Reads (expressionWithin bound floor) ks rest e := by
  obtain ⟨bound, rfl⟩ := Nat.exists_eq_add_one_of_ne_zero (Nat.ne_zero_of_lt enough)
  obtain ⟨count, -, runs⟩ := h (Nat.le_of_lt_succ enough) high
    (follows.mono (Nat.le_succ_of_le high))
  rw [← List.append_nil ks]
  exact runs.trans (reads_extendAll follows.looser count e)

/-- All the tokens that are left are bound enough, if there is one more. -/
theorem LeadsFrom.reads_expression {ks rest : List Kind} {limit : Nat} (h : LeadsFrom ks limit e)
    (follows : Follows 0 rest) (more : rest ≠ []) : Reads (expression 0) ks rest e := by
  refine runs_tokensLeft (h.reads ?_ (Nat.zero_le _) follows)
  have := List.length_pos_iff.2 more
  rw [List.length_append]
  omega

/-- What is read without operators leads to itself. -/
theorem LeadsFrom.of_prefixed {ks : List Kind} {limit : Nat} (filled : ks ≠ [])
    (h : ∀ ⦃bound rest⦄, ks.length ≤ bound → Follows (limit + 1) rest →
      Reads (prefixed (expressionWithin bound)) ks rest e) : LeadsFrom ks limit e := by
  intro bound floor rest enough _ follows
  refine ⟨bound, ?_, (h enough follows).last (Runs.refl _ rest)⟩
  have := List.length_pos_iff.2 filled
  omega

/-- One more operator leads on, if it does not bind more tightly than what
is to its left. -/
theorem LeadsFrom.extend {ls ks : List Kind} {limit : Nat} {left : Expr}
    (h : LeadsFrom ls limit left) (filled : ks ≠ [])
    (starts : ∀ rest, Follows (limit + 1) (ks ++ rest))
    (step : ∀ ⦃bound floor rest⦄, (ls ++ ks).length ≤ bound → floor ≤ limit →
      Follows (limit + 1) rest →
      Reads (extend? (expressionWithin bound) floor left) ks rest (some e)) :
    LeadsFrom (ls ++ ks) limit e := by
  intro bound floor rest enough high follows
  have more := List.length_pos_iff.2 filled
  have total : (ls ++ ks).length = ls.length + ks.length := List.length_append
  have inner : ls.length ≤ bound := by omega
  obtain ⟨count, left_enough, runs⟩ := h inner high (starts rest)
  obtain ⟨count, rfl⟩ : ∃ n, count = n + 1 := ⟨count - 1, by omega⟩
  refine ⟨count, by omega, runs.trans ?_⟩
  exact (step enough high follows).last (Runs.refl _ rest)

-- ======================================================== parentheses

/-- In parentheses every expression is read, and binds most tightly. -/
theorem LeadsFrom.inParens {ks : List Kind} {limit : Nat} (h : LeadsFrom ks limit e)
    (higher : Nat) : LeadsFrom (inParens ks) higher e := by
  refine LeadsFrom.of_prefixed (List.cons_ne_nil _ _) fun bound rest enough follows => ?_
  have total : (SqlSelect.inParens ks).length = ks.length + 2 := by simp [SqlSelect.inParens]
  have inside : Reads (expressionWithin bound 0) ks (.symbol .rightParen :: rest) e :=
    h.reads (by omega) (Nat.zero_le _) .rightParen
  exact runs_prefixed rfl (runs_current (reads_parenthesized inside inside.opens))

/-- An operand leads as its place demands, in parentheses or without. -/
theorem Leads.operand (h : Leads parens e) (operand : e.isOperand = true) (floor : Nat) :
    LeadsFrom (e.operandKinds parens floor) floor e := by
  unfold Expr.operandKinds wrapIf
  cases parens with
  | everywhere =>
      rw [show Parens.everywhere.around floor e = true from operand, if_pos rfl]
      exact LeadsFrom.inParens h floor
  | needed =>
      by_cases low : e.rank < floor
      · rw [show Parens.needed.around floor e = true from decide_eq_true low, if_pos rfl]
        exact LeadsFrom.inParens h floor
      · rw [show Parens.needed.around floor e = false from decide_eq_false low,
          if_neg Bool.false_ne_true]
        intro bound lower rest enough high follows
        have le : floor ≤ e.rank := Nat.not_lt.1 low
        exact h enough (Nat.le_trans high le) (follows.mono (Nat.succ_le_succ le))

/-- An expression leads as an operand wherever it stands. -/
def LeadsAnywhere (parens : Parens) (e : Expr) : Prop :=
  ∀ floor, LeadsFrom (e.operandKinds parens floor) floor e

/-- An operand is read where its place demands. -/
theorem LeadsAnywhere.reads {bound floor : Nat} {rest : List Kind} (h : LeadsAnywhere parens e)
    (enough : (e.operandKinds parens floor).length < bound) (follows : Follows floor rest) :
    Reads (expressionWithin bound floor) (e.operandKinds parens floor) rest e :=
  (h floor).reads enough (Nat.le_refl _) follows

-- =========================================================== literals

theorem prefixOp?_literal {k : Kind} {value : Expr} (h : literalValue? k = some value) :
    prefixOp? k = none := by
  cases k with
  | integer | numeric | string | parameter => rfl
  | _ => cases h

/-- What one token stands for. -/
theorem leads_literal {k : Kind} {value : Expr} (h : literalValue? k = some value)
    (limit : Nat) : LeadsFrom [k] limit value :=
  LeadsFrom.of_prefixed (List.cons_ne_nil _ _) fun _ rest _ _ =>
    runs_prefixed (prefixOp?_literal h) (reads_operand_literal h rest)

/-- A number with its sign, which goes into it. -/
theorem leads_signed {k : Kind} {number value : Expr} (h : literalValue? k = some number)
    (signed : applyPrefix .neg number = value) :
    LeadsFrom [.symbol .minus, k] Tier.sign.rank value := by
  refine LeadsFrom.of_prefixed (List.cons_ne_nil _ _) fun bound rest enough follows => ?_
  have below : Follows UnaryOp.neg.tier.rank rest := Follows.of_prefix rfl follows
  have inner : Reads (expressionWithin bound Tier.sign.rank) [k] rest number :=
    (leads_literal h Tier.sign.rank).reads enough (Nat.le_refl _) below
  rw [← signed]
  exact reads_prefixed (k := .symbol .minus) rfl inner

theorem leads_integer {value : Int64} (spelled : value ≠ Int64.minValue) :
    Leads parens (.integer value) := by
  unfold Leads
  rw [Expr.kinds_integer, Expr.rank]
  by_cases negative : value < 0
  · rw [if_pos negative, if_pos negative]
    refine leads_signed (k := .integer (-value)) rfl ?_
    rw [applyPrefix, if_neg (neg_ne_minValue spelled), Int64.neg_neg]
  · rw [if_neg negative, if_neg negative]
    exact leads_literal rfl _

theorem leads_numeric (value : Double) : Leads parens (.numeric value) := by
  unfold Leads
  rw [Expr.kinds_numeric, Expr.rank]
  by_cases negative : value.negative = true
  · rw [if_pos negative, if_pos negative]
    refine leads_signed (k := .numeric value.neg) rfl ?_
    have same : value.neg.neg = value := by simp [Double.neg]
    rw [applyPrefix, same]
  · rw [if_neg negative, if_neg negative]
    exact leads_literal rfl _

theorem leads_boolean (value : Bool) : Leads parens (.boolean value) := by
  unfold Leads Expr.kinds
  refine LeadsFrom.of_prefixed (List.cons_ne_nil _ _) fun bound rest _ _ => ?_
  cases value with
  | true =>
      refine runs_prefixed ((prefixOp?_keyword .TRUE).trans (if_neg nofun)) ?_
      refine runs_operand_keyword .TRUE (fun word spelled => ?_)
        (reads_literal (k := Keyword.TRUE.kind) nofun _ rest)
      rw [wordOperand, spelled]
  | false =>
      refine runs_prefixed ((prefixOp?_keyword .FALSE).trans (if_neg nofun)) ?_
      refine runs_operand_keyword .FALSE (fun word spelled => ?_)
        (reads_literal (k := Keyword.FALSE.kind) nofun _ rest)
      rw [wordOperand, spelled]

theorem leads_null : Leads parens .null := by
  unfold Leads Expr.kinds
  refine LeadsFrom.of_prefixed (List.cons_ne_nil _ _) fun bound rest _ _ => ?_
  refine runs_prefixed ((prefixOp?_keyword .NULL).trans (if_neg nofun)) ?_
  refine runs_operand_keyword .NULL (fun word spelled => ?_)
        (reads_literal (k := Keyword.NULL.kind) nofun _ rest)
  rw [wordOperand, spelled]

/-- A column, which no dot and no parenthesis follows. -/
theorem leads_ref {table : Option String} {name : String} (plain : name ≠ Expr.star)
    (htable : table ≠ some Expr.star) : Leads parens (.ref table name) := by
  cases table with
  | none =>
      unfold Leads Expr.kinds columnKind
      rw [if_neg plain]
      refine LeadsFrom.of_prefixed (List.cons_ne_nil _ _) fun bound rest _ follows => ?_
      exact runs_prefixed rfl (runs_current (reads_reference_column plain follows))
  | some table =>
      have other : table ≠ Expr.star := fun same => htable (congrArg some same)
      unfold Leads Expr.kinds columnKind
      rw [if_neg plain]
      refine LeadsFrom.of_prefixed (List.cons_ne_nil _ _) fun bound rest _ _ => ?_
      exact runs_prefixed rfl (runs_current (reads_reference_member other plain rest))

-- =========================================================== operators

/-- A left operand leads on over an operator, given what follows the
operator. -/
theorem LeadsAnywhere.connective {left : Expr} {c : Connective} {ks : List Kind}
    (h : LeadsAnywhere parens left) (read : c.IsRead)
    (step : ∀ ⦃bound rest⦄, ks.length < bound → Follows (c.tier.rank + 1) rest →
      Reads (applyConnective (expressionWithin bound) c left) ks rest e) :
    LeadsFrom (left.operandKinds parens c.tier.rank ++ (Mark.kinds c.marks ++ ks)) c.tier.rank
      e := by
  have filled := c.length_marks_pos
  refine (h c.tier.rank).extend ?_ ?_ ?_
  · exact List.append_ne_nil_of_left_ne_nil (List.ne_nil_of_length_pos filled) _
  · intro rest
    rw [List.append_assoc]
    exact Connective.follows_marks read (Nat.lt_succ_self _) _
  · intro bound floor rest enough high follows
    refine reads_extend?_connective read high (step ?_ follows)
    rw [List.length_append, List.length_append] at enough
    omega

/-- A left operand, an operator and a right operand of higher rank. -/
theorem leads_binary {op : BinaryOp} {left right : Expr} (plain : op.isMembership = false)
    (hleft : LeadsAnywhere parens left) (hright : LeadsAnywhere parens right) :
    Leads parens (.binary op left right) := by
  have read : (Connective.binary op).IsRead := by
    cases op
    case isIn | notIn => cases plain
    all_goals exact ⟨nofun, nofun⟩
  unfold Leads
  rw [Expr.kinds_binary]
  exact hleft.connective read fun _ _ enough follows => reads_binary (hright.reads enough follows)

/-- A range test, each bound of higher rank; the `AND` between them ends
the first. -/
theorem leads_between {negated : Bool} {value low high : Expr}
    (hvalue : LeadsAnywhere parens value) (hlow : LeadsAnywhere parens low)
    (hhigh : LeadsAnywhere parens high) : Leads parens (.between negated value low high) := by
  have read : (Connective.between negated).IsRead := ⟨nofun, nofun⟩
  unfold Leads
  rw [Expr.kinds_between]
  refine hvalue.connective read fun bound rest enough follows => ?_
  rw [List.length_append, List.length_cons] at enough
  exact reads_between (hlow.reads (by omega) .and) (hhigh.reads (by omega) follows)

/-- In its place a list has no parentheses but its own. -/
theorem operandKinds_list (parens : Parens) (floor : Nat) (low : floor ≤ primaryRank)
    (items : List Expr) : (Expr.list items).operandKinds parens floor
      = inParens (commas (items.map (Expr.operandKinds parens 0))) := by
  have bare : parens.around floor (.list items) = false := by
    cases parens with
    | needed => exact decide_eq_false (Nat.not_lt.2 low)
    | everywhere => rfl
  rw [Expr.operandKinds, wrapIf, bare, if_neg Bool.false_ne_true, Expr.kinds_list]

/-- A membership test, whose list has parentheses of its own. -/
theorem leads_membership {op : BinaryOp} {left : Expr} {items : List Expr}
    (test : op.isMembership = true) (filled : items ≠ []) (hleft : LeadsAnywhere parens left)
    (hitems : ∀ item ∈ items, LeadsAnywhere parens item) :
    Leads parens (.binary op left (.list items)) := by
  obtain ⟨negated, rfl⟩ : ∃ negated, op = membershipOp negated := by
    cases op with
    | isIn => exact ⟨false, rfl⟩
    | notIn => exact ⟨true, rfl⟩
    | _ => cases test
  have read : (Connective.isIn negated).IsRead := ⟨nofun, nofun⟩
  have rank : (membershipOp negated).tier = Tier.pattern := by cases negated <;> rfl
  unfold Leads
  rw [Expr.kinds_binary, Expr.rank, rank,
    operandKinds_list parens (Tier.pattern.rank + 1) (by decide)]
  refine hleft.connective read fun bound rest enough follows =>
    reads_membership (reads_inList filled rest fun item hitem later behind => ?_)
  have shorter := length_le_commas (List.mem_map_of_mem (f := Expr.operandKinds parens 0) hitem)
  have reads : Reads (expressionWithin bound 0) (item.operandKinds parens 0) later item := by
    refine (hitems item hitem).reads ?_ behind
    simp only [inParens, List.length_cons, List.length_append] at enough
    omega
  exact ⟨reads, reads.opens⟩

/-- A test behind its operand. -/
theorem leads_test {op : UnaryOp} {operand : Expr} (behind : op.isPrefix = false)
    (h : LeadsAnywhere parens operand) : Leads parens (.unary op operand) := by
  obtain ⟨negated, last, marks, -, -⟩ := marks_test behind
  have tier : op.tier = .test := by cases op <;> first | rfl | cases behind
  unfold Leads
  rw [Expr.kinds_postfix parens behind]
  refine (h op.tier.rank).extend ?_ ?_ ?_
  · rw [marks]
    exact List.cons_ne_nil _ _
  · intro rest
    rw [marks, tier]
    exact .test
  · intro bound floor rest _ high follows
    refine reads_extend?_postfix .test ?_ ?_ (reads_test behind operand rest)
    · rw [marks]
      exact (postfixTier?_keyword .IS).trans (if_pos rfl)
    · rw [tier] at high
      exact high

/-- A cast behind its operand. -/
theorem leads_cast {operand : Expr} {target : DataType} (filled : target.config ≠ some [])
    (h : LeadsAnywhere parens operand) : Leads parens (.cast operand target) := by
  refine (h Tier.cast.rank).extend (List.cons_ne_nil _ _) (fun _ => .cast) ?_
  intro bound floor rest _ high follows
  exact reads_extend?_postfix .cast rfl high (reads_castTo operand filled follows)

/-- An operator before its operand; a sign stays before what is no
number. -/
theorem leads_prefix {op : UnaryOp} {operand : Expr} (before : op.isPrefix = true)
    (kept : op = .neg → operand.isNumber = false) (h : LeadsAnywhere parens operand) :
    Leads parens (.unary op operand) := by
  have applied : applyPrefix op operand = .unary op operand := by
    cases op with
    | neg =>
        have other := kept rfl
        cases operand <;> first | rfl | cases other
    | _ => cases operand <;> rfl
  have single : ∃ k, Mark.kinds op.marks = [k] ∧ prefixOp? k = some op := by
    cases op with
    | neg => exact ⟨.symbol .minus, rfl, rfl⟩
    | plus => exact ⟨.symbol .plus, rfl, rfl⟩
    | not => exact ⟨Keyword.NOT.kind, rfl, (prefixOp?_keyword .NOT).trans (if_pos rfl)⟩
    | _ => cases before
  obtain ⟨k, marks, spelled⟩ := single
  unfold Leads
  rw [Expr.kinds_prefix parens before, marks]
  refine LeadsFrom.of_prefixed (List.cons_ne_nil _ _) fun bound rest enough follows => ?_
  have inner : Reads (expressionWithin bound op.tier.rank)
      (operand.operandKinds parens op.tier.rank) rest operand :=
    h.reads enough (Follows.of_prefix before follows)
  rw [← applied]
  exact reads_prefixed spelled inner

-- =================================================== calls and cases

/-- A wildcard is written without parentheses. -/
theorem operandKinds_wildcard (parens : Parens) (wild : e.isWildcard = true) :
    e.operandKinds parens 0 = e.kinds parens := by
  have bare : parens.around 0 e = false := by
    cases parens with
    | needed => exact decide_eq_false (Nat.not_lt_zero e.rank)
    | everywhere => simp [Parens.around, Expr.isOperand, wild]
  rw [Expr.operandKinds, wrapIf, bare, if_neg Bool.false_ne_true]

/-- Where the first operator is of no tier, there is none. -/
theorem continuesOperand_of_follows {rest : List Kind} (follows : Follows 0 rest) :
    continuesOperand (next rest) (rest.getD 1 .eof) = false := by
  have looser := follows.looser
  unfold nextTier? at looser
  unfold continuesOperand
  cases hpost : postfixTier? (next rest) with
  | some tier =>
      rw [hpost] at looser
      exact absurd (looser tier rfl) (Nat.not_lt_zero _)
  | none =>
      rw [hpost] at looser
      cases hc : Connective.at? (next rest) (rest.getD 1 .eof) with
      | some c =>
          rw [hc] at looser
          exact absurd (looser c.tier rfl) (Nat.not_lt_zero _)
      | none => rfl

theorem next_wildcard_ne_rightParen (parens : Parens) (wild : e.isWildcard = true)
    (rest : List Kind) : next (e.kinds parens ++ rest) ≠ .symbol .rightParen := by
  cases e with
  | ref table name =>
      obtain rfl : name = Expr.star := eq_of_beq wild
      cases table <;> exact nofun
  | _ => cases wild

theorem leads_call {function : Callee} {args : List Expr} (named : function.Formed)
    (each : ∀ arg ∈ args, arg.isWildcard = true ∨ LeadsAnywhere parens arg) :
    Leads parens (.call function args) := by
  unfold Leads
  rw [Expr.kinds_call]
  refine LeadsFrom.of_prefixed (List.cons_ne_nil _ _) fun bound rest enough follows => ?_
  have called : Reads (call (expressionWithin bound) function)
      (inParens (commas (args.map (Expr.operandKinds parens 0)))) rest (.call function args) := by
    refine reads_call function rest fun arg harg later behind => ?_
    rcases each arg harg with wild | leads
    · rw [operandKinds_wildcard parens wild]
      refine ⟨reads_item_wildcard wild (continuesOperand_of_follows behind), ?_⟩
      exact next_wildcard_ne_rightParen parens wild later
    · have shorter := length_le_commas (List.mem_map_of_mem (f := Expr.operandKinds parens 0) harg)
      have reads : Reads (expressionWithin bound 0) (arg.operandKinds parens 0) later arg := by
        refine leads.reads ?_ behind
        simp only [inParens, List.length_cons, List.length_append] at enough
        omega
      exact ⟨reads_item reads reads.opens, reads.opens.ne_rightParen⟩
  cases function with
  | name function =>
      exact runs_prefixed rfl (runs_current (reads_reference_call named rfl called))
  | keyword word =>
      have other : prefixOp? (.word word) = none := by
        refine if_neg fun (negation : Keyword.ofWord? word = some .NOT) => ?_
        change (Keyword.ofWord? word).any Keyword.isFunction = true at named
        rw [negation] at named
        cases named
      exact runs_prefixed other (runs_current (reads_wordOperand_call named rfl called))

/-- The tokens of a part of a `CASE` are fewer than those of the whole. -/
theorem length_lt_case (parens : Parens) {operand otherwise : Option Expr}
    {arms : List (Expr × Expr)} {x : Expr}
    (hx : x ∈ (Expr.case operand arms otherwise).children) :
    (x.operandKinds parens 0).length
      < ((Expr.case operand arms otherwise).kinds parens).length := by
  rw [Expr.kinds_case, List.length_cons, List.length_append, List.length_append,
    List.length_append]
  rcases List.mem_append.1 hx with hx | hx
  · rcases List.mem_append.1 hx with hx | hx
    · obtain rfl := Option.mem_toList.1 hx
      simp only [Option.elim_some]
      omega
    · obtain ⟨arm, harm, inArm⟩ := List.mem_flatMap.1 hx
      obtain ⟨before, after, harms⟩ := List.append_of_mem harm
      simp only [List.mem_cons, List.not_mem_nil, or_false] at inArm
      simp only [harms, List.flatMap_append, List.flatMap_cons, List.length_append,
        List.length_cons]
      rcases inArm with rfl | rfl
      · omega
      · omega
  · obtain rfl := Option.mem_toList.1 hx
    simp only [Option.elim_some, List.length_cons]
    omega

/-- The parts of a `CASE` end at its keywords. -/
theorem leads_case {operand otherwise : Option Expr} {arms : List (Expr × Expr)}
    (filled : arms ≠ [])
    (each : ∀ x ∈ (Expr.case operand arms otherwise).children, LeadsAnywhere parens x) :
    Leads parens (.case operand arms otherwise) := by
  unfold Leads
  rw [Expr.kinds_case]
  refine LeadsFrom.of_prefixed (List.cons_ne_nil _ _) fun bound rest enough _ => ?_
  refine runs_prefixed ((prefixOp?_keyword .CASE).trans (if_neg nofun)) ?_
  refine runs_operand_keyword .CASE (fun word spelled => by rw [wordOperand, spelled]) ?_
  refine reads_case filled rest fun x hx later behind => ?_
  have reads : Reads (expressionWithin bound 0) (x.operandKinds parens 0) later x := by
    have shorter := length_lt_case parens hx
    rw [Expr.kinds_case] at shorter
    exact (each x hx).reads (Nat.lt_of_lt_of_le shorter enough) behind
  exact ⟨reads, reads.opens⟩

/-- The tokens of every normal expression lead to it. The items of a list
are spoken of apart, for a list is no operand. -/
theorem leads_parts (parens : Parens) (e : Expr) (formed : ∀ x ∈ e.nodes, x.Formed) :
    (e.isOperand = true → Leads parens e)
      ∧ ∀ x ∈ e.children, x.isOperand = true → LeadsAnywhere parens x := by
  induction e using Expr.childInduction with
  | step e ih =>
      have child : ∀ x ∈ e.children, x.isOperand = true → LeadsAnywhere parens x := by
        intro x hx operand floor
        exact ((ih x hx (Expr.formed_child formed hx)).1 operand).operand operand floor
      refine ⟨fun isOperand => ?_, child⟩
      have node := formed e e.mem_nodes_self
      cases e with
      | integer value => exact leads_integer node
      | numeric value => exact leads_numeric value
      | string value => exact leads_literal rfl _
      | parameter name => exact leads_literal rfl _
      | boolean value => exact leads_boolean value
      | null => exact leads_null
      | ref table name =>
          have plain : name ≠ Expr.star := by
            have := (Expr.isOperand_iff.1 isOperand).1
            simpa [Expr.isWildcard] using this
          refine leads_ref plain ?_
          rintro rfl
          rcases node with star | other
          · exact plain star
          · exact other rfl
      | call function args =>
          refine leads_call node.1 fun arg harg => ?_
          cases wild : arg.isWildcard with
          | true => exact Or.inl rfl
          | false => exact Or.inr (child arg harg (Expr.isOperand_iff.2 ⟨wild, node.2 arg harg⟩))
      | binary op left right =>
          obtain ⟨hleft, hright⟩ := node
          have leadsLeft := child left (by simp [Expr.children]) hleft
          have member : right ∈ (Expr.binary op left right).children := by simp [Expr.children]
          cases test : op.isMembership with
          | false =>
              rw [test, if_neg Bool.false_ne_true] at hright
              exact leads_binary test leadsLeft (child right member hright)
          | true =>
              rw [test, if_pos rfl] at hright
              have inner := Expr.formed_child formed member
              cases right with
              | list items =>
                  obtain ⟨filled, operands⟩ := inner _ (Expr.mem_nodes_self _)
                  refine leads_membership test filled leadsLeft fun item hitem => ?_
                  exact (ih _ member inner).2 item hitem (operands item hitem)
              | _ => cases hright
      | unary op operand =>
          have inner := child operand (by simp [Expr.children]) node.1
          cases before : op.isPrefix with
          | true => exact leads_prefix before node.2 inner
          | false => exact leads_test before inner
      | between negated value low high =>
          exact leads_between (child value (by simp [Expr.children]) node.1)
            (child low (by simp [Expr.children]) node.2.1)
            (child high (by simp [Expr.children]) node.2.2)
      | cast operand target =>
          exact leads_cast node.2 (child operand (by simp [Expr.children]) node.1)
      | case operand arms otherwise =>
          exact leads_case node.1 fun x hx => child x hx (node.2 x hx)
      | list items => cases isOperand

theorem leads (parens : Parens) (normal : e.Normal) : Leads parens e :=
  (leads_parts parens e normal.formed).1 normal.operand

end SqlSelect.Grammar
