/-
The grammar reads the operands that are written.

One lemma a production, given that the nested expressions are read: their
tokens are read before what follows them there, and start like an
expression where the production looks for something else.

# What is told apart by looking ahead

Several productions start with the same token. A parenthesis may hold an
expression or, wrongly, a statement or a wildcard; a name may be a column, a
member of a table or a function; `CASE` may have an operand or not. In each
case the lemma asks of the tokens that follow no more than what the production
looks at: that they open an expression (`Opens`), or that no dot and no
parenthesis comes next (`Follows`).
-/
import SqlSelect.Proofs.Complete.Follow
import SqlSelect.Proofs.NormalForm
import SqlSelect.Proofs.Print.Expr

namespace SqlSelect.Grammar

-- ============================================================ types

/-- The words that go on with the name of a type separate nothing. -/
theorem ofWord?_typeWord : ∀ word ∈ ["precision", "varying", "with", "without"],
    (Keyword.ofWord? word).any (· != .WITH) = false := by
  decide +kernel

/-- What follows an expression is no second word of a type. -/
theorem ne_secondWord {floor : Nat} {rest : List Kind} {first second : String}
    (follows : Follows floor rest) (h : secondWord? first = some second) :
    next rest ≠ .word second := by
  refine follows.ne_word ?_
  unfold secondWord? at h
  split at h
  all_goals cases h
  all_goals exact ofWord?_typeWord _ (by simp)

/-- A type that is written has one word, and no second one is read. -/
theorem reads_typeName {first : String} {rest : List Kind}
    (h : ∀ second, secondWord? first = some second → next rest ≠ .word second) :
    Reads (typeName first) [] rest first := by
  unfold typeName
  cases hsecond : secondWord? first with
  | none => exact Runs.refl _ rest
  | some second => exact runs_current (runs_else (h second hsecond) (Runs.refl _ rest))

/-- A modifier is read. -/
theorem reads_typeModifier (value : Int64) (rest : List Kind) :
    Reads typeModifier [.integer value] rest value := by
  refine runs_current ?_
  exact (reads_advance (k := .integer value) nofun).cons (Runs.refl _ rest)

/-- So is the list of them. -/
theorem reads_typeConfig {values : List Int64} (filled : values ≠ []) (rest : List Kind) :
    Reads typeConfig (inParens (commas (values.map fun value => [.integer value]))) rest
      (some values) := by
  refine (reads_consume .leftParen _).cons ?_
  refine Reads.then (reads_commaSeparated filled nofun ?_) ?_
  · exact fun value _ later _ => reads_typeModifier value later
  · exact runs_expect fun _ => Runs.refl _ rest

/-- No time zone is read behind it. -/
theorem reads_zonedName {floor : Nat} {rest : List Kind} (name : String)
    (follows : Follows floor rest) : Reads (zonedName name) [] rest name := by
  unfold zonedName
  split
  next =>
    have nothing : zone? (next rest) (rest.getD 1 .eof) (rest.getD 2 .eof) = none := by
      unfold zone?
      split
      next here _ _ => exact absurd here (follows.ne_word (ofWord?_typeWord _ (by simp)))
      next here _ _ => exact absurd here (follows.ne_word (ofWord?_typeWord _ (by simp)))
      next => rfl
    refine runs_peek (runs_peek (runs_peek ?_))
    rw [List.nil_append, nothing]
    exact Runs.refl _ rest
  next => exact Runs.refl _ rest

/-- A type is read from its name in quotes, which no bare word makes
longer. -/
theorem reads_dataType {floor : Nat} {target : DataType} {rest : List Kind}
    (filled : target.config ≠ some []) (follows : Follows floor rest) :
    Reads dataType target.kinds rest target := by
  obtain ⟨name, config⟩ := target
  refine runs_current ?_
  show Runs (advance >>= fun _ => typeName name >>= fun name => typeConfig >>= fun config =>
    zonedName name >>= fun zoned => pure (DataType.mk zoned config)) _ rest _
  refine (reads_advance (k := .quoted name) nofun).cons ?_
  cases config with
  | none =>
      refine (reads_typeName fun _ => ne_secondWord follows).none ?_
      refine Reads.none ((reads_consume_absent follows.ne_leftParen).none (Runs.refl _ _)) ?_
      exact (reads_zonedName name follows).none (Runs.refl _ rest)
  | some values =>
      have some_filled : values ≠ [] := fun empty => filled (congrArg some empty)
      refine (reads_typeName fun _ _ here => by cases here).none ?_
      refine (reads_typeConfig some_filled _).last ?_
      exact (reads_zonedName name follows).none (Runs.refl _ rest)

-- ======================================================== wildcards

/-- Where no wildcard starts none is read. -/
theorem reads_wildcard?_absent {rest : List Kind}
    (h : wildcardAt? (next rest) (rest.getD 1 .eof) (rest.getD 2 .eof) = none) :
    Reads wildcard? [] rest none := by
  refine runs_peek (runs_peek (runs_peek ?_))
  rw [List.nil_append, h]
  exact Runs.refl _ rest

/-- A wildcard is read from its star, or from its table and its star. -/
theorem reads_wildcard? {parens : Parens} {e : Expr} (wild : e.isWildcard = true)
    (rest : List Kind) : Reads wildcard? (e.kinds parens) rest (some e) := by
  cases e with
  | ref table name =>
      obtain rfl : name = Expr.star := eq_of_beq wild
      refine runs_peek (runs_peek (runs_peek ?_))
      cases table with
      | none =>
          exact (reads_skip [.symbol .star] (by simp)).map
      | some table =>
          exact (reads_skip [.quoted table, .symbol .dot, .symbol .star] (by simp)).map
  | _ => cases wild

/-- The value that a token alone stands for. -/
def literalValue? : Kind → Option Expr
  | .integer value => some (.integer value)
  | .numeric value => some (.numeric value)
  | .string value => some (.string value)
  | .parameter name => some (.parameter name)
  | _ => none

section Productions

variable {expr : Nat → Parser Expr} {ks rest : List Kind} {e : Expr}

-- ============================================================ lists

/-- An expression of a list that may have wildcards. -/
theorem reads_item (h : Reads (expr 0) ks rest e) (opens : Opens (ks ++ rest)) :
    Reads (item expr) ks rest e :=
  runs_position fun _ => (reads_wildcard?_absent opens.noWildcard).none h

/-- A wildcard is read as an item, unless an operator follows it. -/
theorem reads_item_wildcard {parens : Parens} (wild : e.isWildcard = true)
    (h : continuesOperand (next rest) (rest.getD 1 .eof) = false) :
    Reads (item expr) (e.kinds parens) rest e := by
  refine runs_position fun start => ?_
  refine (reads_wildcard? wild _).last ?_
  refine runs_peek (runs_peek (runs_else ?_ (Runs.refl _ rest)))
  intro continues
  exact absurd (continues.symm.trans h) nofun

/-- The arguments of a call are read one by one; none starts with the
closing parenthesis. -/
theorem reads_call {f : Expr → List Kind} {args : List Expr} (function : Callee)
    (rest : List Kind)
    (each : ∀ arg ∈ args, ∀ later, Follows 0 later →
      Reads (item expr) (f arg) later arg ∧ next (f arg ++ later) ≠ .symbol .rightParen) :
    Reads (call expr function) (inParens (commas (args.map f))) rest (.call function args) := by
  refine runs_expect fun _ => ?_
  cases args with
  | nil =>
      refine Reads.none (a := []) ?_ (runs_expect fun _ => Runs.refl _ rest)
      exact runs_atSymbol (runs_if rfl (Runs.refl _ _))
  | cons arg args =>
      refine Reads.then (a := arg :: args) ?_ (runs_expect fun _ => Runs.refl _ rest)
      refine runs_atSymbol (runs_else ?_ ?_)
      · obtain ⟨later, hlater, same⟩ := commas_append f arg args (.symbol .rightParen :: rest)
        intro here
        refine (each arg List.mem_cons_self later (Follows.rightParen.inList hlater)).2 ?_
        rw [← same]
        exact eq_of_beq here
      · refine reads_commaSeparated (List.cons_ne_nil _ _) nofun fun a ha later hlater => ?_
        exact (each a ha later (Follows.rightParen.inList hlater)).1

/-- The right side of `IN` is read item by item; it is no statement. -/
theorem reads_inList {f : Expr → List Kind} {items : List Expr} (filled : items ≠ [])
    (rest : List Kind)
    (each : ∀ item ∈ items, ∀ later, Follows 0 later →
      Reads (expr 0) (f item) later item ∧ Opens (f item ++ later)) :
    Reads (inList expr) (inParens (commas (items.map f))) rest (.list items) := by
  refine runs_expect fun _ => runs_atKeyword (runs_else ?_ ?_)
  · cases items with
    | nil => exact absurd rfl filled
    | cons item items =>
        obtain ⟨later, hlater, same⟩ := commas_append f item items (.symbol .rightParen :: rest)
        have opens := (each item List.mem_cons_self later (Follows.rightParen.inList hlater)).2
        rw [← same] at opens
        intro here
        have starts := opens.keyword .SELECT (by simpa using eq_of_beq here)
        cases starts
  · refine Reads.then (reads_commaSeparated filled nofun fun a ha later hlater => ?_)
      (runs_expect fun _ => Runs.refl _ rest)
    exact (each a ha later (Follows.rightParen.inList hlater)).1

-- ========================================================= operands

/-- An expression in parentheses is read as what is inside. -/
theorem reads_parenthesized (h : Reads (expr 0) ks (.symbol .rightParen :: rest) e)
    (opens : Opens (ks ++ .symbol .rightParen :: rest)) :
    Reads (parenthesized expr) (inParens ks) rest e := by
  refine runs_expect fun _ => runs_atKeyword (runs_else ?_ ?_)
  · intro here
    rw [List.append_assoc] at here
    have starts := opens.keyword .SELECT (eq_of_beq here)
    cases starts
  · refine Reads.none (reads_wildcard?_absent ?_) ?_
    · rw [List.append_assoc]
      exact opens.noWildcard
    · exact Reads.then h (runs_expect fun _ => Runs.refl _ rest)

/-- A name that is no star gets through. -/
theorem reads_noQuotedStar {name : String} (plain : name ≠ Expr.star) (rest : List Kind) :
    Reads noQuotedStar [] (.quoted name :: rest) () :=
  runs_current (runs_else (fun here => plain (Kind.quoted.inj here)) (Runs.refl _ _))

/-- A column of a table. -/
theorem reads_qualified (table : String) {name : String} (plain : name ≠ Expr.star)
    (rest : List Kind) : Reads (qualified table) [.quoted name] rest (.ref (some table) name) := by
  refine (reads_noQuotedStar plain rest).none (runs_current ?_)
  exact (reads_advance (k := .quoted name) nofun).cons (Runs.refl _ rest)

/-- A name is read up to what goes on with it. -/
theorem runs_reference {name : String} {ls : List Kind} {q : Parser Expr}
    (plain : name ≠ Expr.star)
    (h : Runs (do
      match ← current with
      | .symbol .leftParen => call expr (.name name)
      | .symbol .dot =>
        let dot ← position
        if (← peek 1) = .symbol .star then reject .misplacedWildcard dot (← positionAt 1)
        else
          advance
          qualified name
      | _ => return .ref none name) ls rest q) :
    Runs (reference expr) (.quoted name :: ls) rest q :=
  (reads_noQuotedStar plain _).none ((reads_identifier _ rfl).cons h)

/-- A name that nothing follows is a column. -/
theorem reads_reference_column {floor : Nat} {name : String} (plain : name ≠ Expr.star)
    (follows : Follows floor rest) :
    Reads (reference expr) [.quoted name] rest (.ref none name) := by
  refine runs_reference plain (runs_current ?_)
  have open_ := follows.ne_leftParen
  have dot := follows.ne_dot
  show Runs (match next rest with
      | .symbol .leftParen => call expr (.name name)
      | .symbol .dot => _
      | _ => pure (.ref none name)) [] rest _
  split
  next here => exact absurd here open_
  next here => exact absurd here dot
  next => exact Runs.refl _ rest

/-- A name behind a dot is a member of the table. -/
theorem reads_reference_member {table name : String} (htable : table ≠ Expr.star)
    (hname : name ≠ Expr.star) (rest : List Kind) :
    Reads (reference expr) [.quoted table, .symbol .dot, .quoted name] rest
      (.ref (some table) name) := by
  refine runs_reference htable (runs_current (runs_position fun _ => runs_peek (runs_else ?_ ?_)))
  · exact nofun
  · exact (reads_advance (k := .symbol .dot) nofun).cons (reads_qualified table hname rest)

/-- And one before a parenthesis is a function. -/
theorem reads_reference_call {name : String} {ls : List Kind} (plain : name ≠ Expr.star)
    (opened : next ls = .symbol .leftParen) (h : Reads (call expr (.name name)) ls rest e) :
    Reads (reference expr) (.quoted name :: ls) rest e := by
  refine runs_reference plain (runs_current ?_)
  cases ls with
  | nil => cases opened
  | cons k ls =>
      obtain rfl : k = .symbol .leftParen := opened
      exact h

/-- The arms of a `CASE` are read one by one, up to what is no `WHEN`. -/
theorem reads_caseArms {f : Expr → List Kind} {arms : List (Expr × Expr)} {count : Nat}
    (enough : arms.length ≤ count) (stop : (next rest).keyword? ≠ some .WHEN)
    (follows : Follows 0 rest)
    (each : ∀ arm ∈ arms, ∀ later, Follows 0 later →
      Reads (expr 0) (f arm.1) later arm.1 ∧ Reads (expr 0) (f arm.2) later arm.2) :
    Reads (caseArms expr count) (arms.flatMap fun arm =>
      Keyword.WHEN.kind :: f arm.1 ++ Keyword.THEN.kind :: f arm.2) rest arms := by
  induction arms generalizing count with
  | nil =>
      cases count with
      | zero => exact Runs.refl _ rest
      | succ count => exact (reads_consumeKeyword_absent stop).none (Runs.refl _ rest)
  | cons arm arms ih =>
      obtain ⟨condition, value⟩ := arm
      cases count with
      | zero => cases enough
      | succ count =>
          have head := each (condition, value) List.mem_cons_self
          have tail := ih (Nat.le_of_succ_le_succ enough)
            fun arm harm => each arm (List.mem_cons_of_mem _ harm)
          have behind : Follows 0 ((arms.flatMap fun arm =>
              Keyword.WHEN.kind :: f arm.1 ++ Keyword.THEN.kind :: f arm.2) ++ rest) := by
            cases arms with
            | nil => exact follows
            | cons arm arms => exact Follows.keyword .WHEN nofun nofun fun _ => rfl
          rw [List.flatMap_cons, List.append_assoc, List.cons_append, List.cons_append]
          refine (reads_consumeKeyword .WHEN _).cons ?_
          refine Reads.then (head _ (Follows.keyword .THEN nofun nofun fun _ => rfl)).1 ?_
          refine (reads_expectKeyword .THEN _).cons ?_
          exact Reads.then (head _ behind).2 (tail.map (f := ((condition, value) :: ·)))

/-- `CASE` has an operand where one opens. -/
theorem reads_caseOperand (h : Reads (expr 0) ks rest e) (opens : Opens (ks ++ rest)) :
    Reads (caseOperand expr) ks rest (some e) := by
  refine runs_atKeyword (runs_else ?_ h.map)
  intro here
  have starts := opens.keyword .WHEN (eq_of_beq here)
  cases starts

/-- And none where an arm does. -/
theorem reads_caseOperand_absent (rest : List Kind) :
    Reads (caseOperand expr) [] (Keyword.WHEN.kind :: rest) none :=
  runs_atKeyword (runs_if (beq_iff_eq.2 Keyword.WHEN.keyword?_kind) (Runs.refl _ _))

/-- The last part of a `CASE` is read up to its `END`. -/
theorem reads_caseElse {f : Expr → List Kind} {otherwise : Option Expr} {rest : List Kind}
    (each : ∀ x ∈ otherwise, Reads (expr 0) (f x) (Keyword.END.kind :: rest) x) :
    Reads (clause .ELSE (expr 0)) (otherwise.elim [] fun e => Keyword.ELSE.kind :: f e)
      (Keyword.END.kind :: rest) otherwise := by
  cases otherwise with
  | none =>
      exact reads_clause_absent (next_ne_keyword nofun)
  | some e => exact reads_clause (each e rfl)

/-- What follows the arms of a `CASE` is `ELSE` or `END`. -/
theorem next_caseElse (f : Expr → List Kind) (otherwise : Option Expr) (rest : List Kind) :
    ∃ later, (otherwise.elim [] fun e => Keyword.ELSE.kind :: f e) ++ Keyword.END.kind :: rest
        = Keyword.ELSE.kind :: later
      ∨ (otherwise.elim [] fun e => Keyword.ELSE.kind :: f e) ++ Keyword.END.kind :: rest
        = Keyword.END.kind :: later := by
  cases otherwise with
  | none => exact ⟨rest, Or.inr rfl⟩
  | some e => exact ⟨_, Or.inl rfl⟩

/-- Every arm of a `CASE` has a token. -/
theorem length_le_caseArms (f : Expr → List Kind) (arms : List (Expr × Expr)) :
    arms.length ≤ (arms.flatMap fun arm =>
      Keyword.WHEN.kind :: f arm.1 ++ Keyword.THEN.kind :: f arm.2).length := by
  induction arms with
  | nil => exact Nat.le_refl 0
  | cons arm arms ih =>
      rw [List.flatMap_cons, List.length_append, List.length_append, List.length_cons,
        List.length_cons]
      omega

/-- A `CASE` is read part by part; a keyword ends each. -/
theorem reads_case {f : Expr → List Kind} {operand otherwise : Option Expr}
    {arms : List (Expr × Expr)} (filled : arms ≠ []) (rest : List Kind)
    (each : ∀ x ∈ (Expr.case operand arms otherwise).children, ∀ later, Follows 0 later →
      Reads (expr 0) (f x) later x ∧ Opens (f x ++ later)) :
    Reads (case expr)
      (Keyword.CASE.kind :: (operand.elim [] f
        ++ ((arms.flatMap fun arm => Keyword.WHEN.kind :: f arm.1 ++ Keyword.THEN.kind :: f arm.2)
        ++ ((otherwise.elim [] fun e => Keyword.ELSE.kind :: f e) ++ [Keyword.END.kind]))))
      rest (.case operand arms otherwise) := by
  have harms : ∀ arm ∈ arms, ∀ later, Follows 0 later →
      Reads (expr 0) (f arm.1) later arm.1 ∧ Reads (expr 0) (f arm.2) later arm.2 := by
    intro arm harm later follows
    have inArm : ∀ x ∈ [arm.1, arm.2], x ∈ (Expr.case operand arms otherwise).children := by
      intro x hx
      exact Expr.mem_children_of_arm harm hx
    exact ⟨(each _ (inArm _ (by simp)) later follows).1,
      (each _ (inArm _ (by simp)) later follows).1⟩
  have hotherwise : ∀ x ∈ otherwise, Reads (expr 0) (f x) (Keyword.END.kind :: rest) x := by
    intro x hx
    refine (each x ?_ _ (Follows.keyword .END nofun nofun fun _ => rfl)).1
    exact List.mem_append_right _ (Option.mem_toList.2 hx)
  refine (reads_expectKeyword .CASE _).cons (Reads.then (a := operand) ?_ ?_)
  · obtain ⟨arm, later, rfl⟩ := List.exists_cons_of_ne_nil filled
    cases operand with
    | none => exact reads_caseOperand_absent _
    | some e =>
        have member : e ∈ (Expr.case (some e) (arm :: later) otherwise).children :=
          List.mem_append_left _ (List.mem_append_left _ (by simp))
        have h := fun later => each e member (Keyword.WHEN.kind :: later)
          (Follows.keyword .WHEN nofun nofun fun _ => rfl)
        exact reads_caseOperand (h _).1 (h _).2
  · obtain ⟨later, hlater⟩ := next_caseElse f otherwise rest
    refine runs_tokensLeft (Reads.then (a := arms) (reads_caseArms ?_ ?_ ?_ harms) ?_)
    · rw [List.append_assoc, List.length_append]
      exact Nat.le_trans (length_le_caseArms f arms) (Nat.le_add_right _ _)
    · rw [List.append_assoc]
      rcases hlater with here | here
      · rw [List.singleton_append, here]
        exact next_ne_keyword nofun
      · rw [List.singleton_append, here]
        exact next_ne_keyword nofun
    · rw [List.append_assoc]
      rcases hlater with here | here
      · rw [List.singleton_append, here]
        exact Follows.keyword .ELSE nofun nofun fun _ => rfl
      · rw [List.singleton_append, here]
        exact Follows.keyword .END nofun nofun fun _ => rfl
    · refine runs_else (by simpa using filled) ?_
      refine Reads.then (reads_caseElse hotherwise) ?_
      exact (reads_expectKeyword .END rest).map

/-- A keyword that is called like a function. -/
theorem reads_wordOperand_call {word : String} {ls : List Kind}
    (function : (Keyword.ofWord? word).any Keyword.isFunction = true)
    (opened : next ls = .symbol .leftParen) (h : Reads (call expr (.keyword word)) ls rest e) :
    Reads (wordOperand expr word) (.word word :: ls) rest e := by
  cases ls with
  | nil => cases opened
  | cons k ls =>
      obtain rfl : k = .symbol .leftParen := opened
      unfold wordOperand
      cases spelled : Keyword.ofWord? word with
      | none =>
          rw [spelled] at function
          cases function
      | some keyword =>
          rw [spelled] at function
          change keyword.isFunction = true at function
          have called : Reads (do
              if keyword.isFunction ∧ (← peek 1) = .symbol .leftParen then
                advance
                call expr (.keyword word)
              else if keyword.isReserved then unexpected "expression"
              else reference expr : Parser Expr)
              (.word word :: .symbol .leftParen :: ls) rest e := by
            refine runs_peek (runs_if ⟨function, rfl⟩ ?_)
            exact (reads_advance (k := .word word) nofun).cons h
          cases keyword with
          | TRUE | FALSE | NULL | CASE | CAST => cases function
          | _ => exact called

/-- A literal is one token. -/
theorem reads_literal {k : Kind} (inner : k ≠ .eof) (value : Expr) (rest : List Kind) :
    Reads (literal value) [k] rest value :=
  (reads_advance inner).map

/-- A literal is read from its token. -/
theorem reads_operand_literal {k : Kind} {value : Expr} (h : literalValue? k = some value)
    (rest : List Kind) : Reads (operand expr) [k] rest value := by
  have inner : k ≠ .eof := by
    rintro rfl
    cases h
  refine runs_current ?_
  cases k with
  | integer | numeric | string | parameter =>
      cases h
      exact reads_literal inner _ rest
  | _ => cases h

/-- A keyword is read as the operand that starts with it. -/
theorem runs_operand_keyword (keyword : Keyword) {ls : List Kind} {p q : Parser Expr}
    (starts : ∀ word, Keyword.ofWord? word = some keyword → wordOperand expr word = p)
    (h : Runs p (keyword.kind :: ls) rest q) : Runs (operand expr) (keyword.kind :: ls) rest q := by
  refine runs_current ?_
  show Runs (wordOperand expr keyword.word) (keyword.kind :: ls) rest q
  rw [starts _ keyword.ofWord?_word]
  exact h

/-- No operator stands before an operand. -/
theorem runs_prefixed {q : Parser Expr} (plain : prefixOp? (next (ks ++ rest)) = none)
    (h : Runs (operand expr) ks rest q) : Runs (prefixed expr) ks rest q := by
  refine runs_current ?_
  rw [plain]
  exact h

/-- An operator before its operand. -/
theorem reads_prefixed {k : Kind} {op : UnaryOp} (spelled : prefixOp? k = some op)
    (h : Reads (expr op.tier.rank) ks rest e) :
    Reads (prefixed expr) (k :: ks) rest (applyPrefix op e) := by
  have inner : k ≠ .eof := by
    rintro rfl
    cases spelled
  have here : prefixOp? (next (k :: ks ++ rest)) = some op := spelled
  refine runs_current ?_
  rw [here]
  exact (reads_advance inner).cons h.map

-- ======================================================== operators

/-- What follows a value may leave no operator to read. -/
theorem reads_extend?_stop {floor : Nat} {left : Expr}
    (looser : ∀ tier, nextTier? rest = some tier → tier.rank < floor) :
    Reads (extend? expr floor left) [] rest none := by
  unfold nextTier? at looser
  refine runs_current ?_
  rw [List.nil_append]
  cases hpost : postfixTier? (next rest) with
  | some tier =>
      rw [hpost] at looser
      exact runs_if (looser tier rfl) (Runs.refl _ rest)
  | none =>
      rw [hpost] at looser
      refine runs_peek (runs_peek ?_)
      rw [List.nil_append]
      cases hc : Connective.at? (next rest) (rest.getD 1 .eof) with
      | none => exact Runs.refl _ rest
      | some c =>
          rw [hc] at looser
          exact runs_if (looser c.tier rfl) (Runs.refl _ rest)

/-- An operator behind its operand that binds tightly enough. -/
theorem reads_extend?_postfix {floor : Nat} {left : Expr} (tier : Tier)
    (spelled : postfixTier? (next (ks ++ rest)) = some tier) (high : floor ≤ tier.rank)
    (h : Reads (applyPostfix left) ks rest e) :
    Reads (extend? expr floor left) ks rest (some e) := by
  refine runs_current ?_
  rw [spelled]
  exact runs_else (Nat.not_lt.2 high) h.map

/-- An operator between operands that binds tightly enough. -/
theorem reads_extend?_connective {floor : Nat} {left : Expr} {c : Connective} (read : c.IsRead)
    (high : floor ≤ c.tier.rank) (h : Reads (applyConnective expr c left) ks rest e) :
    Reads (extend? expr floor left) (Mark.kinds c.marks ++ ks) rest (some e) := by
  have inner : .eof ∉ Mark.kinds c.marks := by
    unfold Mark.kinds
    intro eof
    obtain ⟨mark, -, hmark⟩ := List.mem_map.1 eof
    cases mark <;> cases hmark
  refine runs_current ?_
  rw [List.append_assoc, Connective.postfixTier?_marks read]
  refine runs_peek (runs_peek ?_)
  rw [List.append_assoc, Connective.at?_marks read]
  refine runs_else (Nat.not_lt.2 high) ?_
  rw [← Connective.length_marks read]
  exact (reads_skip _ inner).then h.map

/-- A test is `IS`, perhaps `NOT`, and the keyword that names it. -/
theorem marks_test {op : UnaryOp} (behind : op.isPrefix = false) :
    ∃ negated last, op.marks = .keyword .IS :: ((if negated then [.keyword .NOT] else [])
      ++ [.keyword last]) ∧ testOp? (some last) negated = some op ∧ last ≠ .NOT := by
  cases op with
  | neg | plus | not => cases behind
  | isNull => exact ⟨false, .NULL, rfl, rfl, nofun⟩
  | isNotNull => exact ⟨true, .NULL, rfl, rfl, nofun⟩
  | isTrue => exact ⟨false, .TRUE, rfl, rfl, nofun⟩
  | isNotTrue => exact ⟨true, .TRUE, rfl, rfl, nofun⟩
  | isFalse => exact ⟨false, .FALSE, rfl, rfl, nofun⟩
  | isNotFalse => exact ⟨true, .FALSE, rfl, rfl, nofun⟩

/-- What follows `IS` is read as the test that it names. -/
theorem reads_test {op : UnaryOp} (behind : op.isPrefix = false) (left : Expr)
    (rest : List Kind) :
    Reads (applyPostfix left) (Mark.kinds op.marks) rest (.unary op left) := by
  obtain ⟨negated, last, marks, named, other⟩ := marks_test behind
  have kinds : Mark.kinds op.marks = Keyword.IS.kind
      :: ((if negated then [Keyword.NOT.kind] else []) ++ [last.kind]) := by
    rw [marks]
    cases negated <;> rfl
  have here : (next ([last.kind] ++ rest)).keyword? = some last := last.keyword?_kind
  rw [kinds]
  refine Reads.none (reads_consume_absent nofun) ?_
  refine (reads_expectKeyword .IS _).cons ?_
  refine (reads_consumeKeyword_if negated (next_ne_keyword other)).then (runs_current ?_)
  rw [here, named]
  exact (reads_advance (k := last.kind) nofun).map

/-- A cast to a type. -/
theorem reads_castTo {floor : Nat} {target : DataType} (left : Expr)
    (filled : target.config ≠ some []) (follows : Follows floor rest) :
    Reads (applyPostfix left) (.symbol .doubleColon :: target.kinds) rest (.cast left target) :=
  (reads_consume .doubleColon _).cons (reads_dataType filled follows).map

/-- The right operand is read above the tier of its operator. -/
theorem reads_binary {op : BinaryOp} {left right : Expr}
    (h : Reads (expr (op.tier.rank + 1)) ks rest right) :
    Reads (applyConnective expr (.binary op) left) ks rest (.binary op left right) :=
  h.map

/-- Behind `IN` a list is read. -/
theorem reads_membership {negated : Bool} {left : Expr}
    (h : Reads (inList expr) ks rest e) :
    Reads (applyConnective expr (.isIn negated) left) ks rest
      (.binary (membershipOp negated) left e) :=
  h.map

/-- Behind `BETWEEN` both bounds are, with `AND` between them. -/
theorem reads_between {negated : Bool} {left low high : Expr} {ls hs : List Kind}
    (hlow : Reads (expr (Tier.pattern.rank + 1)) ls (Keyword.AND.kind :: (hs ++ rest)) low)
    (hhigh : Reads (expr (Tier.pattern.rank + 1)) hs rest high) :
    Reads (applyConnective expr (.between negated) left) (ls ++ Keyword.AND.kind :: hs) rest
      (.between negated left low high) :=
  Reads.then hlow ((reads_expectKeyword .AND _).cons hhigh.map)

end Productions

end SqlSelect.Grammar
