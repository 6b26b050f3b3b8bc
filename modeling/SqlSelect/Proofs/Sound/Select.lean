/-
The grammar of statements passes what it yields, and nothing else.

One lemma a clause, as for expressions. The statement inside a derived table
has a smaller bound.

# Reading twice

Only the `GROUP BY` list reads tokens twice: a failed attempt at the list in
parentheses is taken back to where it started, so that what is passed is what
the second reading passes. An attempt that succeeds has passed what it would
have passed without being one (`attempt_ok`).

# The whole text

A parser stops at the first end of the input, and the lexer puts one behind
the last token and nowhere else. So what is passed by a successful run is the
whole text, and `yieldsInput_of_parse` is about all of its tokens.
-/
import SqlSelect.Proofs.Sound.Expr
import SqlSelect.Proofs.Tandem.Reader

namespace SqlSelect.Grammar

variable {α : Type}

-- ====================================================== select list

/-- An alias is a name, with `AS` or without. -/
theorem passes_optionalAlias : Passes optionalAlias YieldsAlias := by
  intro s found s' hs h
  unfold optionalAlias at h
  obtain ⟨b, t, has, h₁⟩ := bind_ok.1 h
  rcases consumeKeyword_ok hs has with ⟨rfl, m⟩ | ⟨rfl, rfl, -⟩
  · obtain ⟨name, u, hname, h₂⟩ := bind_ok.1 h₁
    obtain ⟨rfl, rfl⟩ := pure_ok.1 h₂
    obtain ⟨k, -, named, n⟩ := identifier_ok hname
    exact ⟨_, m.trans n, .behindAs named⟩
  · change (current >>= fun k => if k.identifier?.isSome = true then _ else _) t = _ at h₁
    rw [current_bind] at h₁
    split at h₁
    next =>
      obtain ⟨name, u, hname, h₂⟩ := bind_ok.1 h₁
      obtain ⟨rfl, rfl⟩ := pure_ok.1 h₂
      obtain ⟨k, -, named, m⟩ := identifier_ok hname
      exact ⟨_, m, .bare named⟩
    next =>
      obtain ⟨rfl, rfl⟩ := pure_ok.1 h₁
      exact ⟨[], Moves.refl _, .absent⟩

/-- What the tokens of an expression spell is no wildcard. -/
theorem isWildcard_of_yieldsWildcard {e : Expr} {ks : List Kind} (h : YieldsWildcard e ks) :
    e.isWildcard = true := by
  cases h <;> rfl

/-- A column is a wildcard, or an expression with its alias. -/
theorem passes_column : Passes column YieldsColumn := by
  intro s c s' hs h
  unfold column at h
  obtain ⟨e, t, he, h₁⟩ := bind_ok.1 h
  obtain ⟨ks, m, yields⟩ := passes_item passes_expression hs he
  split at h₁
  next wild =>
    obtain ⟨rfl, rfl⟩ := pure_ok.1 h₁
    rcases yields with yields | yields
    · exact ⟨ks, m, .wildcard yields⟩
    · refine ⟨ks, m, ?_⟩
      rw [← List.append_nil ks]
      exact .expr yields .absent
  next plain =>
    obtain ⟨aliasName, u, halias, h₂⟩ := bind_ok.1 h₁
    obtain ⟨rfl, rfl⟩ := pure_ok.1 h₂
    obtain ⟨as, n, named⟩ := passes_optionalAlias (m.lexed hs) halias
    rcases yields with yields | yields
    · exact absurd (isWildcard_of_yieldsWildcard yields) plain
    · exact ⟨_, m.trans n, .expr yields named⟩

/-- The select list may be empty. -/
theorem passes_columns : Passes columns (YieldsClause [] (Separated YieldsColumn)) := by
  intro s found s' hs h
  unfold columns at h
  rw [current_bind] at h
  split at h
  next =>
    obtain ⟨rfl, rfl⟩ := pure_ok.1 h
    exact ⟨[], Moves.refl _, .absent⟩
  next =>
    obtain ⟨items, t, hitems, h₁⟩ := bind_ok.1 h
    obtain ⟨rfl, rfl⟩ := pure_ok.1 h₁
    obtain ⟨ks, m, yields⟩ := passes_commaSeparated passes_column hs hitems
    exact ⟨ks, m, .present yields⟩

-- ============================================================= FROM

/-- The words before a join are the next tokens. -/
theorem rest_of_joinWords {rest : List Kind} (lexed : ∀ k ∈ rest, k.Lexed) :
    ∃ later, rest = (joinWords rest).map Keyword.kind ++ later := by
  induction rest with
  | nil => exact ⟨[], rfl⟩
  | cons k rest ih =>
      obtain ⟨later, hlater⟩ := ih fun k hk => lexed k (List.mem_cons_of_mem _ hk)
      rw [joinWords]
      cases hword : k.keyword? with
      | none => exact ⟨k :: rest, rfl⟩
      | some word =>
          show ∃ later, k :: rest
            = (if isJoinModifier word then word :: joinWords rest else []).map Keyword.kind ++ later
          split
          next =>
            refine ⟨later, ?_⟩
            rw [Kind.eq_kind_of_keyword? (lexed k List.mem_cons_self) hword, List.map_cons,
              List.cons_append, ← hlater]
          next => exact ⟨k :: rest, rfl⟩

/-- The words that name a join are one of its spellings. -/
theorem mem_spellings_of_joinType? {words : List Keyword} {type : JoinType}
    (h : joinType? words = some type) : words ∈ type.spellings := by
  unfold joinType? at h
  split at h
  all_goals cases h
  all_goals simp [JoinType.spellings]

/-- A join is passed with its words and its `JOIN`. -/
theorem passes_joinType : Passes joinType fun type ks =>
    ∃ words ∈ type.spellings, ks = words.map Keyword.kind ++ [Keyword.JOIN.kind] := by
  intro s type s' hs h
  rw [joinType_eq, position_bind] at h
  obtain ⟨words, t, hwords, h₁⟩ := bind_ok.1 h
  rw [position_bind] at h₁
  obtain ⟨_, u, hjoin, h₂⟩ := bind_ok.1 h₁
  rw [joinModifiers_apply] at hwords
  obtain ⟨_, t', hskip, hdone⟩ := bind_ok.1 hwords
  obtain ⟨rfl, rfl⟩ := pure_ok.1 hdone
  obtain ⟨later, hrest⟩ := rest_of_joinWords hs
  -- keywords only, so the end of the input is not among them
  have inner : .eof ∉ (joinWords s.rest).map Keyword.kind := by
    simp [Keyword.kind]
  have m : Moves s ((joinWords s.rest).map Keyword.kind) t' := by
    rw [← List.length_map Keyword.kind] at hskip
    exact skip_ok hskip hrest inner
  have n := expectKeyword_ok (m.lexed hs) hjoin
  cases htype : joinType? (joinWords s.rest) with
  | none =>
      rw [htype] at h₂
      exact (reject_ok.1 h₂).elim
  | some found =>
      rw [htype] at h₂
      obtain ⟨rfl, rfl⟩ := pure_ok.1 h₂
      exact ⟨_, m.trans n, _, mem_spellings_of_joinType? htype, rfl⟩

/-- A table has a schema if a dot follows. -/
theorem passes_tableName : Passes tableName fun name ks =>
    YieldsTableName name.1 name.2 ks := by
  intro s name s' hs h
  unfold tableName at h
  obtain ⟨first, t, hfirst, h₁⟩ := bind_ok.1 h
  obtain ⟨k, -, named, m⟩ := identifier_ok hfirst
  obtain ⟨b, u, hdot, h₂⟩ := bind_ok.1 h₁
  rcases consume_ok hdot with ⟨rfl, n⟩ | ⟨rfl, rfl, -⟩
  · obtain ⟨second, v, hsecond, h₃⟩ := bind_ok.1 h₂
    obtain ⟨rfl, rfl⟩ := pure_ok.1 h₃
    obtain ⟨l, -, member, o⟩ := identifier_ok hsecond
    exact ⟨_, m.trans (n.trans o), .inSchema named member⟩
  · obtain ⟨rfl, rfl⟩ := pure_ok.1 h₂
    exact ⟨_, m, .bare named⟩

/-- Parentheses behind a table are empty, or absent. -/
theorem passes_emptyParens : Passes emptyParens fun _ ks => ks = [] ∨ ks = inParens [] := by
  intro s u s' _ h
  unfold emptyParens at h
  rw [peek_bind, peek_bind] at h
  split at h
  next here =>
    obtain ⟨later, hrest⟩ := s.rest_of_kindsAt (inParens [])
      (by simp [List.range_succ, inParens, here]) (by simp [inParens])
    have m : Moves s (inParens []) s' := skip_ok h hrest (by simp [inParens])
    exact ⟨_, m, Or.inr rfl⟩
  next =>
    obtain ⟨-, rfl⟩ := pure_ok.1 h
    exact ⟨[], Moves.refl _, Or.inl rfl⟩

/-- A table is its name, its parentheses and its alias. -/
theorem passes_table : Passes table YieldsSource := by
  intro s entry s' hs h
  unfold table at h
  obtain ⟨name, t, hname, h₁⟩ := bind_ok.1 h
  obtain ⟨_, u, hparens, h₂⟩ := bind_ok.1 h₁
  obtain ⟨aliasName, v, halias, h₃⟩ := bind_ok.1 h₂
  obtain ⟨rfl, rfl⟩ := pure_ok.1 h₃
  obtain ⟨ns, m, r⟩ := passes_tableName hs hname
  obtain ⟨ps, m₁, r₁⟩ := passes_emptyParens (m.lexed hs) hparens
  obtain ⟨as, m₂, r₂⟩ := passes_optionalAlias (m₁.lexed (m.lexed hs)) halias
  exact ⟨_, (m.trans m₁).trans m₂, .table r r₁ r₂⟩

section Productions

variable {select : Parser Select} (hselect : Passes select YieldsSelect)

include hselect

/-- A statement in parentheses always has an alias. -/
theorem passes_derivedTable : Passes (derivedTable select) YieldsSource := by
  intro s entry s' hs h
  unfold derivedTable at h
  obtain ⟨_, t, hopen, h₁⟩ := bind_ok.1 h
  obtain ⟨statement, u, hstatement, h₂⟩ := bind_ok.1 h₁
  obtain ⟨_, v, hclose, h₃⟩ := bind_ok.1 h₂
  obtain ⟨found, w, halias, h₄⟩ := bind_ok.1 h₃
  have m := expect_ok hopen
  obtain ⟨ks, m₁, r₁⟩ := hselect (m.lexed hs) hstatement
  have m₂ := m.trans (m₁.trans (expect_ok hclose))
  obtain ⟨as, m₃, r₃⟩ := passes_optionalAlias (m₂.lexed hs) halias
  cases found with
  | none => exact (reject_ok.1 h₄).elim
  | some aliasName =>
      obtain ⟨rfl, rfl⟩ := pure_ok.1 h₄
      exact ⟨_, m₂.trans m₃, .derived r₁ r₃⟩

/-- Which of the two it is, a parenthesis tells. -/
theorem passes_source : Passes (source select) YieldsSource := by
  intro s entry s' hs h
  unfold source at h
  rw [atSymbol_bind] at h
  split at h
  next => exact passes_derivedTable hselect hs h
  next => exact passes_table hs h

/-- A join is its words, its entry and its condition. -/
theorem passes_joinedSource : Passes (joinedSource select) fun entry ks =>
    ∃ type words, ∃ plain on es os, words ∈ JoinType.spellings type
      ∧ YieldsSource plain es ∧ Yields on os ∧ entry = plain.withJoin ⟨type, on⟩
      ∧ ks = words.map Keyword.kind ++ Keyword.JOIN.kind :: (es ++ Keyword.ON.kind :: os) := by
  intro s entry s' hs h
  unfold joinedSource at h
  obtain ⟨type, t, htype, h₁⟩ := bind_ok.1 h
  obtain ⟨plain, u, hplain, h₂⟩ := bind_ok.1 h₁
  obtain ⟨_, v, hon, h₃⟩ := bind_ok.1 h₂
  obtain ⟨on, w, hcondition, h₄⟩ := bind_ok.1 h₃
  obtain ⟨rfl, rfl⟩ := pure_ok.1 h₄
  obtain ⟨ks, m, words, spelled, rfl⟩ := passes_joinType hs htype
  obtain ⟨es, m₁, r₁⟩ := passes_source hselect (m.lexed hs) hplain
  have hu := m₁.lexed (m.lexed hs)
  have m₂ := expectKeyword_ok hu hon
  obtain ⟨os, m₃, r₃⟩ := passes_expression 0 (m₂.lexed hu) hcondition
  refine ⟨_, m.trans (m₁.trans (m₂.trans m₃)), type, words, plain, on, es, os, spelled, r₁, r₃,
    rfl, ?_⟩
  simp

/-- Further entries come behind a comma or as a join. -/
theorem passes_moreSources (count : Nat) : Passes (moreSources select count) YieldsMore := by
  induction count with
  | zero =>
      intro s entries s' _ h
      obtain ⟨rfl, rfl⟩ := pure_ok.1 h
      exact ⟨[], Moves.refl _, .done⟩
  | succ count ih =>
      intro s entries s' hs h
      rw [moreSources] at h
      obtain ⟨b, t, hcomma, h₁⟩ := bind_ok.1 h
      rcases consume_ok hcomma with ⟨rfl, m⟩ | ⟨rfl, rfl, -⟩
      · obtain ⟨entry, u, hentry, h₂⟩ := bind_ok.1 h₁
        obtain ⟨later, v, hlater, h₃⟩ := bind_ok.1 h₂
        obtain ⟨rfl, rfl⟩ := pure_ok.1 h₃
        obtain ⟨es, m₁, r₁⟩ := passes_source hselect (m.lexed hs) hentry
        obtain ⟨ls, m₂, r₂⟩ := ih (m₁.lexed (m.lexed hs)) hlater
        refine ⟨_, m.trans (m₁.trans m₂), ?_⟩
        show YieldsMore (entry :: later) (.symbol .comma :: (es ++ ls))
        exact .comma r₁ r₂
      · change (current >>= fun k => if startsJoin k = true then _ else _) t = _ at h₁
        rw [current_bind] at h₁
        split at h₁
        next =>
          obtain ⟨entry, u, hentry, h₂⟩ := bind_ok.1 h₁
          obtain ⟨later, v, hlater, h₃⟩ := bind_ok.1 h₂
          obtain ⟨rfl, rfl⟩ := pure_ok.1 h₃
          obtain ⟨ks, m, type, words, plain, on, es, os, spelled, r₁, r₂, rfl, rfl⟩ :=
            passes_joinedSource hselect hs hentry
          obtain ⟨ls, n, r₃⟩ := ih (m.lexed hs) hlater
          refine ⟨_, m.trans n, ?_⟩
          rw [List.append_assoc, List.cons_append]
          exact .join spelled r₁ r₂ r₃
        next =>
          obtain ⟨rfl, rfl⟩ := pure_ok.1 h₁
          exact ⟨[], Moves.refl _, .done⟩

/-- `FROM` is absent, or has a first entry and further ones. -/
theorem passes_from : Passes (clause .FROM (sources select)) YieldsFrom := by
  have hsources : Passes (sources select) fun entries ks => ∃ entry later es ls,
      entries = entry :: later ∧ ks = es ++ ls ∧ YieldsSource entry es ∧ YieldsMore later ls := by
    intro s entries s' hs h
    unfold sources at h
    obtain ⟨entry, t, hentry, h₁⟩ := bind_ok.1 h
    rw [tokensLeft_bind] at h₁
    obtain ⟨later, u, hlater, h₂⟩ := bind_ok.1 h₁
    obtain ⟨rfl, rfl⟩ := pure_ok.1 h₂
    obtain ⟨es, m, r⟩ := passes_source hselect hs hentry
    obtain ⟨ls, n, rs⟩ := passes_moreSources hselect _ (m.lexed hs) hlater
    exact ⟨_, m.trans n, entry, later, es, ls, rfl, rfl, r, rs⟩
  intro s found s' hs h
  obtain ⟨ks, m, yields⟩ := passes_clause hsources hs h
  cases yields with
  | absent => exact ⟨_, m, .absent⟩
  | present body =>
      obtain ⟨entry, later, es, ls, rfl, rfl, r, rs⟩ := body
      refine ⟨_, m, ?_⟩
      show YieldsFrom (some (entry :: later)) (Keyword.FROM.kind :: (es ++ ls))
      exact .present r rs

end Productions

-- ========================================================= GROUP BY

/-- An attempt that succeeds passes what it would pass in earnest. -/
theorem attempt_ok {body : Parser α} {R : α → List Kind → Prop} (hbody : Passes body R)
    {s s' : State} {a : α} (hs : s.Lexed) (h : attempt body s = .ok (some a) s') :
    ∃ ks, Moves s ks s' ∧ R a ks := by
  rw [attempt_eq] at h
  cases htry : body { s with trial := true } with
  | error fault t =>
      rw [htry] at h
      cases h
  | ok found t =>
      rw [htry] at h
      cases h
      have ahead : State.Lexed { s with trial := true } := hs
      obtain ⟨ks, m, r⟩ := hbody ahead htry
      exact ⟨ks, ⟨m.rest, m.position, m.inner⟩, r⟩

/-- A list in parentheses that is accepted is behind the first of them. -/
theorem wrappedGroups_ok {s s' : State} {es : List Expr} (hs : s.Lexed)
    (h : wrappedGroups s = .ok (some es) s') :
    ∃ ks, Moves s (ks ++ [.symbol .rightParen]) s' ∧ Separated Yields es ks := by
  unfold wrappedGroups at h
  obtain ⟨found, t, hfound, h₁⟩ := bind_ok.1 h
  cases found with
  | none =>
      obtain ⟨impossible, -⟩ := pure_ok.1 h₁
      cases impossible
  | some found =>
      obtain ⟨ks, m, r⟩ := attempt_ok (passes_commaSeparated (passes_expression 0)) hs hfound
      obtain ⟨b, u, hclose, h₂⟩ := bind_ok.1 h₁
      rcases consume_ok hclose with ⟨rfl, n⟩ | ⟨rfl, rfl, -⟩
      · change (current >>= fun k => if endsClause afterGroups k = true then _ else _) u = _ at h₂
        rw [current_bind] at h₂
        split at h₂
        next =>
          obtain ⟨same, rfl⟩ := pure_ok.1 h₂
          cases same
          exact ⟨ks, m.trans n, r⟩
        next =>
          obtain ⟨impossible, -⟩ := pure_ok.1 h₂
          cases impossible
      · obtain ⟨impossible, -⟩ := pure_ok.1 h₂
        cases impossible

/-- What is grouped by is a list in parentheses or without them. -/
theorem passes_groups : Passes groups YieldsGroups := by
  have plain : ∀ ⦃s : State⦄ ⦃es : List Expr⦄ ⦃s' : State⦄, s.Lexed →
      expressionList expression s = .ok es s' → ∃ ks, Moves s ks s' ∧ YieldsGroups es ks := by
    intro s es s' hs h
    obtain ⟨ks, m, r⟩ := passes_commaSeparated (passes_expression 0) hs h
    exact ⟨ks, m, .plain r⟩
  intro s es s' hs h
  unfold groups at h
  rw [atSymbol_bind] at h
  split at h
  next here =>
    rw [get_bind] at h
    obtain ⟨_, t, hopen, h₁⟩ := bind_ok.1 h
    have m := advance_ok hopen (eq_of_beq here) nofun
    obtain ⟨found, u, hfound, h₂⟩ := bind_ok.1 h₁
    cases found with
    | some found =>
        obtain ⟨rfl, rfl⟩ := pure_ok.1 h₂
        obtain ⟨ks, n, r⟩ := wrappedGroups_ok (m.lexed hs) hfound
        exact ⟨_, m.trans n, .wrapped r⟩
    | none =>
        -- whatever the attempt did, the second reading starts at the parenthesis again
        obtain ⟨_, v, hreport, h₃⟩ := bind_ok.1 h₂
        obtain ⟨_, w, hback, h₄⟩ := bind_ok.1 h₃
        have back : Moves s [] w := by
          cases hback
          exact Moves.stay rfl rfl
        obtain ⟨ks, n, r⟩ := plain (back.lexed hs) h₄
        exact ⟨_, back.trans n, r⟩
  next => exact plain hs h

-- ========================================================= ORDER BY

/-- A key is ascending where nothing else is said. -/
theorem passes_sortKey : Passes sortKey YieldsSortKey := by
  intro s key s' hs h
  unfold sortKey at h
  obtain ⟨e, t, he, h₁⟩ := bind_ok.1 h
  obtain ⟨ks, m, r⟩ := passes_expression 0 hs he
  obtain ⟨b, u, hdesc, h₂⟩ := bind_ok.1 h₁
  rcases consumeKeyword_ok (m.lexed hs) hdesc with ⟨rfl, n⟩ | ⟨rfl, rfl, -⟩
  · obtain ⟨rfl, rfl⟩ := pure_ok.1 h₂
    exact ⟨_, m.trans n, .descending r⟩
  · obtain ⟨c, v, hasc, h₃⟩ := bind_ok.1 h₂
    obtain ⟨rfl, rfl⟩ := pure_ok.1 h₃
    rcases consumeKeyword_ok (m.lexed hs) hasc with ⟨rfl, n⟩ | ⟨rfl, rfl, -⟩
    · exact ⟨_, m.trans n, .ascending r⟩
    · exact ⟨_, m, .unsaid r⟩

-- =========================================== LIMIT, OFFSET, FETCH

/-- Of the whole numbers of a text only zero has an opposite that is not
negative. -/
theorem eq_zero_of_neg {digits : Int64} (positive : 0 ≤ digits) (h : ¬-digits < 0) :
    digits = 0 := by
  have opposite := toInt_neg (ne_minValue_of_nonneg positive)
  rw [Int64.le_iff_toInt_le, Int64.toInt_zero] at positive
  rw [Int64.lt_iff_toInt_lt, opposite, Int64.toInt_zero] at h
  refine Int64.toInt_inj.1 ?_
  rw [Int64.toInt_zero]
  omega

theorem passes_rowCount : Passes rowCount YieldsRowCount := by
  intro s n s' hs h
  unfold rowCount at h
  rw [position_bind] at h
  obtain ⟨negative, t, hminus, h₁⟩ := bind_ok.1 h
  change (position >>= fun here => current >>= _) t = _ at h₁
  rw [position_bind, current_bind] at h₁
  cases here : t.kindAt 0 with
  | integer digits =>
      simp only [here] at h₁
      obtain ⟨_, u, hmove, h₂⟩ := bind_ok.1 h₁
      have m := advance_ok hmove here nofun
      generalize hvalue : (if negative = true then -digits else digits) = value at h₂
      by_cases below : value < 0
      · rw [if_pos below] at h₂
        exact (reject_ok.1 h₂).elim
      · rw [if_neg below] at h₂
        obtain ⟨rfl, rfl⟩ := pure_ok.1 h₂
        rcases consume_ok hminus with ⟨rfl, n⟩ | ⟨rfl, rfl, -⟩
        · have positive : 0 ≤ digits := m.lexed_kinds (n.lexed hs) _ List.mem_cons_self
          subst hvalue
          obtain rfl := eq_zero_of_neg positive below
          exact ⟨_, n.trans m, .minusZero⟩
        · subst hvalue
          exact ⟨_, m, .plain (m.lexed_kinds hs _ List.mem_cons_self)⟩
  | numeric value =>
      simp only [here] at h₁
      exact (reject_ok.1 h₁).elim
  | _ =>
      simp only [here] at h₁
      exact (unexpected_ok.1 h₁).elim

/-- One of the words is passed if and only if it is there. -/
theorem rowWord_ok {s s' : State} {u : Unit} (hs : s.Lexed) (h : rowWord s = .ok u s') :
    (∃ row, (row = .ROW ∨ row = .ROWS) ∧ Moves s [Keyword.kind row] s')
      ∨ (s' = s ∧ (s.kindAt 0).keyword? ≠ some .ROW ∧ (s.kindAt 0).keyword? ≠ some .ROWS) := by
  unfold rowWord at h
  obtain ⟨b, t, hrows, h₁⟩ := bind_ok.1 h
  rcases consumeKeyword_ok hs hrows with ⟨rfl, m⟩ | ⟨rfl, rfl, noRows⟩
  · obtain ⟨-, rfl⟩ := pure_ok.1 h₁
    exact Or.inl ⟨.ROWS, Or.inr rfl, m⟩
  · obtain ⟨c, v, hrow, h₂⟩ := bind_ok.1 h₁
    obtain ⟨-, rfl⟩ := pure_ok.1 h₂
    rcases consumeKeyword_ok hs hrow with ⟨rfl, m⟩ | ⟨rfl, rfl, noRow⟩
    · exact Or.inl ⟨.ROW, Or.inl rfl, m⟩
    · exact Or.inr ⟨rfl, noRow, noRows⟩

theorem passes_rowWord : Passes rowWord fun _ ks => Optionally [.ROW, .ROWS] ks := by
  intro s u s' hs h
  rcases rowWord_ok hs h with ⟨row, hrow, m⟩ | ⟨rfl, -, -⟩
  · exact ⟨_, m, Or.inr ⟨row, by simpa using hrow, rfl⟩⟩
  · exact ⟨[], Moves.refl _, Or.inl rfl⟩

/-- What follows the word behind `FETCH`: a number of rows, or none before
`ROW` or `ROWS`. -/
theorem passes_fetched : Passes fetched fun count ks =>
    (∃ cs row only, ks = cs ++ row ++ only ∧ YieldsRowCount count cs
      ∧ Optionally [.ROW, .ROWS] row ∧ Optionally [.ONLY] only)
    ∨ ∃ row only, (row = Keyword.ROW ∨ row = Keyword.ROWS) ∧ ks = row.kind :: only
      ∧ count = 1 ∧ Optionally [.ONLY] only := by
  intro s count s' hs h
  unfold fetched at h
  obtain ⟨found, t, hcount, h₁⟩ := bind_ok.1 h
  obtain ⟨_, u, hrow, h₂⟩ := bind_ok.1 h₁
  obtain ⟨only, v, honly, h₃⟩ := bind_ok.1 h₂
  obtain ⟨rfl, rfl⟩ := pure_ok.1 h₃
  have passes_only : u.Lexed → ∃ os, Moves u os v ∧ Optionally [.ONLY] os := by
    intro hu
    rcases consumeKeyword_ok hu honly with ⟨-, m⟩ | ⟨-, rfl, -⟩
    · exact ⟨_, m, Or.inr ⟨.ONLY, by simp, rfl⟩⟩
    · exact ⟨[], Moves.refl _, Or.inl rfl⟩
  unfold rowCountOrOne at hcount
  rw [current_bind] at hcount
  split at hcount
  next word =>
    obtain ⟨rfl, rfl⟩ := pure_ok.1 hcount
    rcases rowWord_ok hs hrow with ⟨row, either, m⟩ | ⟨-, noRow, noRows⟩
    · obtain ⟨os, n, o⟩ := passes_only (m.lexed hs)
      exact ⟨_, m.trans n, Or.inr ⟨row, os, either, rfl, rfl, o⟩⟩
    · rcases word with word | word
      · exact absurd word noRow
      · exact absurd word noRows
  next =>
    obtain ⟨cs, m, r⟩ := passes_rowCount hs hcount
    obtain ⟨rs, m₁, r₁⟩ := passes_rowWord (m.lexed hs) hrow
    obtain ⟨os, m₂, r₂⟩ := passes_only (m₁.lexed (m.lexed hs))
    exact ⟨_, (m.trans m₁).trans m₂, Or.inl ⟨cs, rs, os, rfl, r, r₁, r₂⟩⟩

/-- What follows `FETCH` adds a limit. -/
theorem passes_fetchCount : Passes fetchCount fun count ks =>
    ∀ {offset : Option UInt64} {ls : List Kind}, YieldsLimits ⟨none, offset⟩ ls →
      YieldsLimits ⟨some (some count), offset⟩ (ls ++ Keyword.FETCH.kind :: ks) := by
  have behind : ∀ {first : Keyword} {s t s' : State} {count : UInt64},
      (first = .FIRST ∨ first = .NEXT) → s.Lexed → Moves s [first.kind] t →
      fetched t = .ok count s' → ∃ ks, Moves s ks s'
        ∧ ∀ {offset : Option UInt64} {ls : List Kind}, YieldsLimits ⟨none, offset⟩ ls →
          YieldsLimits ⟨some (some count), offset⟩ (ls ++ Keyword.FETCH.kind :: ks) := by
    intro first s t s' count hfirst hs m h
    obtain ⟨ks, n, ⟨cs, row, only, rfl, r, r₁, r₂⟩ | ⟨row, only, either, rfl, rfl, r⟩⟩ :=
      passes_fetched (m.lexed hs) h
    · exact ⟨_, m.trans n, fun hls => .fetch hls hfirst r r₁ r₂⟩
    · exact ⟨_, m.trans n, fun hls => .fetchOne hls hfirst either r⟩
  intro s count s' hs h
  unfold fetchCount at h
  obtain ⟨b, t, hfirst, h₁⟩ := bind_ok.1 h
  rcases consumeKeyword_ok hs hfirst with ⟨rfl, m⟩ | ⟨rfl, rfl, -⟩
  · exact behind (Or.inl rfl) hs m h₁
  · obtain ⟨c, u, hnext, h₂⟩ := bind_ok.1 h₁
    rcases consumeKeyword_ok hs hnext with ⟨rfl, m⟩ | ⟨rfl, rfl, -⟩
    · exact behind (Or.inr rfl) hs m h₂
    · exact (unexpected_ok.1 h₂).elim

/-- What follows `LIMIT` adds a limit. -/
theorem passes_limitCount : Passes limitCount fun count ks =>
    ∀ {offset : Option UInt64} {ls : List Kind}, YieldsLimits ⟨none, offset⟩ ls →
      YieldsLimits ⟨some count, offset⟩ (ls ++ Keyword.LIMIT.kind :: ks) := by
  intro s count s' hs h
  unfold limitCount at h
  obtain ⟨b, t, hall, h₁⟩ := bind_ok.1 h
  rcases consumeKeyword_ok hs hall with ⟨rfl, m⟩ | ⟨rfl, rfl, -⟩
  · obtain ⟨rfl, rfl⟩ := pure_ok.1 h₁
    exact ⟨_, m, fun hls => .all hls⟩
  · obtain ⟨found, u, hfound, h₂⟩ := bind_ok.1 h₁
    obtain ⟨rfl, rfl⟩ := pure_ok.1 h₂
    obtain ⟨cs, m, r⟩ := passes_rowCount hs hfound
    exact ⟨cs, m, fun hls => .limit hls r⟩

/-- A clause about the rows says something that was not said before. -/
theorem passes_rowLimit? (limits : RowLimits) : Passes (rowLimit? limits) fun found ks =>
    (found = none ∧ ks = []) ∨ ∃ more, found = some more
      ∧ ∀ {ls : List Kind}, YieldsLimits limits ls → YieldsLimits more (ls ++ ks) := by
  intro s found s' hs h
  obtain ⟨count, offset⟩ := limits
  unfold rowLimit? at h
  rw [position_bind, current_bind] at h
  -- where no clause about rows starts, whatever the word is
  have nothing : (pure none : Parser (Option RowLimits)) s = .ok found s' → ∃ ks, Moves s ks s'
      ∧ ((found = none ∧ ks = []) ∨ ∃ more, found = some more
        ∧ ∀ {ls : List Kind}, YieldsLimits ⟨count, offset⟩ ls → YieldsLimits more (ls ++ ks)) := by
    intro h
    obtain ⟨rfl, rfl⟩ := pure_ok.1 h
    exact ⟨[], Moves.refl _, Or.inl ⟨rfl, rfl⟩⟩
  cases here : (s.kindAt 0).keyword? with
  | none =>
      rw [here] at h
      exact nothing h
  | some word =>
      have hk := s.kindAt_of_keyword? hs here
      rw [here] at h
      cases word with
      | LIMIT =>
          cases count with
          | some count => exact (reject_ok.1 h).elim
          | none =>
              obtain ⟨_, t, hmove, h₁⟩ := bind_ok.1 h
              obtain ⟨count, u, hcount, h₂⟩ := bind_ok.1 h₁
              obtain ⟨rfl, rfl⟩ := pure_ok.1 h₂
              have m := advance_ok hmove hk nofun
              obtain ⟨ks, n, r⟩ := passes_limitCount (m.lexed hs) hcount
              exact ⟨_, m.trans n, Or.inr ⟨_, rfl, r⟩⟩
      | OFFSET =>
          cases offset with
          | some offset => exact (reject_ok.1 h).elim
          | none =>
              obtain ⟨_, t, hmove, h₁⟩ := bind_ok.1 h
              obtain ⟨offset, u, hoffset, h₂⟩ := bind_ok.1 h₁
              obtain ⟨_, v, hrow, h₃⟩ := bind_ok.1 h₂
              obtain ⟨rfl, rfl⟩ := pure_ok.1 h₃
              have m := advance_ok hmove hk nofun
              obtain ⟨os, m₁, r₁⟩ := passes_rowCount (m.lexed hs) hoffset
              obtain ⟨rs, m₂, r₂⟩ := passes_rowWord (m₁.lexed (m.lexed hs)) hrow
              refine ⟨_, m.trans (m₁.trans m₂), Or.inr ⟨_, rfl, fun {ls} hls => ?_⟩⟩
              show YieldsLimits _ (ls ++ Keyword.OFFSET.kind :: (os ++ rs))
              exact .offset hls r₁ r₂
      | FETCH =>
          cases count with
          | some count => exact (reject_ok.1 h).elim
          | none =>
              obtain ⟨_, t, hmove, h₁⟩ := bind_ok.1 h
              obtain ⟨count, u, hcount, h₂⟩ := bind_ok.1 h₁
              obtain ⟨rfl, rfl⟩ := pure_ok.1 h₂
              have m := advance_ok hmove hk nofun
              obtain ⟨ks, n, r⟩ := passes_fetchCount (m.lexed hs) hcount
              exact ⟨_, m.trans n, Or.inr ⟨_, rfl, r⟩⟩
      | _ => exact nothing h

theorem passes_rowLimits (count : Nat) (limits : RowLimits) :
    Passes (rowLimits count limits) fun all ks =>
      ∀ {ls : List Kind}, YieldsLimits limits ls → YieldsLimits all (ls ++ ks) := by
  induction count generalizing limits with
  | zero =>
      intro s all s' _ h
      obtain ⟨rfl, rfl⟩ := pure_ok.1 h
      exact ⟨[], Moves.refl _, fun hls => by rwa [List.append_nil]⟩
  | succ count ih =>
      intro s all s' hs h
      rw [rowLimits] at h
      obtain ⟨found, t, hfound, h₁⟩ := bind_ok.1 h
      obtain ⟨ks, m, ⟨rfl, rfl⟩ | ⟨more, rfl, r⟩⟩ := passes_rowLimit? limits hs hfound
      · obtain ⟨rfl, rfl⟩ := pure_ok.1 h₁
        exact ⟨[], m, fun hls => by rwa [List.append_nil]⟩
      · obtain ⟨js, n, r₁⟩ := ih more (m.lexed hs) h₁
        refine ⟨_, m.trans n, fun hls => ?_⟩
        rw [← List.append_assoc]
        exact r₁ (r hls)

theorem passes_limitClause : Passes limitClause fun limit ks =>
    ∃ limits : RowLimits, limit = limits.clause? ∧ YieldsLimits limits ks := by
  intro s limit s' hs h
  unfold limitClause at h
  rw [tokensLeft_bind] at h
  obtain ⟨limits, t, hlimits, h₁⟩ := bind_ok.1 h
  obtain ⟨rfl, rfl⟩ := pure_ok.1 h₁
  obtain ⟨ks, m, r⟩ := passes_rowLimits _ _ hs hlimits
  exact ⟨ks, m, limits, rfl, r .unsaid⟩

-- ======================================================= statements

theorem passes_distinct : Passes distinct YieldsDistinct := by
  intro s b s' hs h
  unfold distinct at h
  obtain ⟨c, t, hdistinct, h₁⟩ := bind_ok.1 h
  rcases consumeKeyword_ok hs hdistinct with ⟨rfl, m⟩ | ⟨rfl, rfl, -⟩
  · obtain ⟨rfl, rfl⟩ := pure_ok.1 h₁
    exact ⟨_, m, .distinct⟩
  · obtain ⟨d, u, hall, h₂⟩ := bind_ok.1 h₁
    obtain ⟨rfl, rfl⟩ := pure_ok.1 h₂
    rcases consumeKeyword_ok hs hall with ⟨rfl, m⟩ | ⟨rfl, rfl, -⟩
    · exact ⟨_, m, .all⟩
    · exact ⟨[], Moves.refl _, .unsaid⟩

/-- A clause whose keyword has `BY` behind it. -/
theorem passes_clauseBy {keyword : Keyword} {body : Parser α} {R : α → List Kind → Prop}
    (hbody : Passes body R) :
    Passes (clause keyword (afterBy body)) (YieldsClause [keyword, .BY] R) := by
  have hafter : Passes (afterBy body) fun a ks => ∃ js, ks = Keyword.BY.kind :: js ∧ R a js := by
    intro s a s' hs h
    unfold afterBy at h
    obtain ⟨_, t, hby, h₁⟩ := bind_ok.1 h
    have m := expectKeyword_ok hs hby
    obtain ⟨js, n, r⟩ := hbody (m.lexed hs) h₁
    exact ⟨_, m.trans n, js, rfl, r⟩
  intro s a s' hs h
  obtain ⟨ks, m, yields⟩ := passes_clause hafter hs h
  cases yields with
  | absent => exact ⟨_, m, .absent⟩
  | present body =>
      obtain ⟨js, rfl, r⟩ := body
      exact ⟨_, m, .present r⟩

theorem passes_selectOf {inner : Parser Select} (hinner : Passes inner YieldsSelect) :
    Passes (selectOf inner) YieldsSelect := by
  intro s statement s' hs h
  unfold selectOf at h
  obtain ⟨_, s₀, hselect, h₀⟩ := bind_ok.1 h
  obtain ⟨distinct, s₁, hdistinct, h₁⟩ := bind_ok.1 h₀
  obtain ⟨columns, s₂, hcolumns, h₂⟩ := bind_ok.1 h₁
  obtain ⟨sources, s₃, hsources, h₃⟩ := bind_ok.1 h₂
  obtain ⟨filter, s₄, hfilter, h₄⟩ := bind_ok.1 h₃
  obtain ⟨groups, s₅, hgroups, h₅⟩ := bind_ok.1 h₄
  obtain ⟨having, s₆, hhaving, h₆⟩ := bind_ok.1 h₅
  obtain ⟨order, s₇, horder, h₇⟩ := bind_ok.1 h₆
  obtain ⟨limit, s₈, hlimit, h₈⟩ := bind_ok.1 h₇
  obtain ⟨rfl, rfl⟩ := pure_ok.1 h₈
  have m₀ := expectKeyword_ok hs hselect
  have l₀ := m₀.lexed hs
  obtain ⟨ds, m₁, r₁⟩ := passes_distinct l₀ hdistinct
  have l₁ := m₁.lexed l₀
  obtain ⟨cs, m₂, r₂⟩ := passes_columns l₁ hcolumns
  have l₂ := m₂.lexed l₁
  obtain ⟨fs, m₃, r₃⟩ := passes_from hinner l₂ hsources
  have l₃ := m₃.lexed l₂
  obtain ⟨ws, m₄, r₄⟩ := passes_clause (passes_expression 0) l₃ hfilter
  have l₄ := m₄.lexed l₃
  obtain ⟨gs, m₅, r₅⟩ := passes_clauseBy passes_groups l₄ hgroups
  have l₅ := m₅.lexed l₄
  obtain ⟨hs, m₆, r₆⟩ := passes_clause (passes_expression 0) l₅ hhaving
  have l₆ := m₆.lexed l₅
  obtain ⟨os, m₇, r₇⟩ := passes_clauseBy (passes_commaSeparated passes_sortKey) l₆ horder
  have l₇ := m₇.lexed l₆
  obtain ⟨ls, m₈, limits, rfl, r₈⟩ := passes_limitClause l₇ hlimit
  have m := (((((((m₁.trans m₂).trans m₃).trans m₄).trans m₅).trans m₆).trans m₇).trans m₈)
  exact ⟨_, m₀.trans m, .mk r₁ r₂ r₃ r₄ r₅ r₆ r₇ r₈⟩

/-- The knot: the statements inside have a smaller bound. -/
theorem passes_selectWithin (bound : Nat) : Passes (selectWithin bound) YieldsSelect := by
  induction bound with
  | zero =>
      intro s statement s' _ h
      exact (unexpected_ok.1 h).elim
  | succ bound ih => exact passes_selectOf ih

/-- The input is passed up to its end. -/
theorem input_ok {s s' : State} {statement : Select} (hs : s.Lexed)
    (h : input s = .ok statement s') :
    ∃ ks, Moves s ks s' ∧ s'.kindAt 0 = .eof ∧ YieldsInput statement (ks ++ [.eof]) := by
  unfold input at h
  rw [tokensLeft_bind] at h
  obtain ⟨found, t, hfound, h₁⟩ := bind_ok.1 h
  obtain ⟨ks, m, r⟩ := passes_selectWithin _ hs hfound
  obtain ⟨b, u, hend, h₂⟩ := bind_ok.1 h₁
  have last : found = statement ∧ u = s' ∧ u.kindAt 0 = .eof := by
    rw [current_bind] at h₂
    cases here : u.kindAt 0 with
    | eof =>
        rw [here] at h₂
        obtain ⟨same, stop⟩ := pure_ok.1 h₂
        exact ⟨same, stop, rfl⟩
    | _ =>
        rw [here] at h₂
        cases h₂
  obtain ⟨rfl, rfl, stop⟩ := last
  rcases consume_ok hend with ⟨-, n⟩ | ⟨-, rfl, -⟩
  · refine ⟨_, m.trans n, stop, ?_⟩
    rw [List.append_assoc]
    exact .terminated r
  · exact ⟨_, m, stop, .plain r⟩

end SqlSelect.Grammar

namespace SqlSelect

open Grammar (State)

section Results

variable {ε α β : Type} {result : Except ε α}

theorem exists_of_toOption_isSome (h : result.toOption.isSome) : ∃ a, result = .ok a := by
  cases result with
  | error e => cases h
  | ok a => exact ⟨a, rfl⟩

/-- What is computed from a result is computed from what it yields. -/
theorem exists_of_toOption_map {f : α → β} {b : β} (h : result.toOption.map f = some b) :
    ∃ a, result = .ok a ∧ f a = b := by
  cases result with
  | error e => cases h
  | ok a => exact ⟨a, rfl, Option.some.inj h⟩

theorem exists_of_toOption_any {p : α → Bool} (h : result.toOption.any p = true) :
    ∃ a, result = .ok a ∧ p a = true := by
  cases result with
  | error e => cases h
  | ok a => exact ⟨a, rfl, h⟩

end Results

/-- A text whose tokens are of kinds that the grammar takes is accepted. -/
theorem parse_of_kinds {source : String} {kinds : List Kind} {statement : Select} {after : State}
    (text : (tokenize source).toOption.map (List.map Token.kind) = some kinds)
    (taken : Grammar.input (.ofKinds kinds) = .ok statement after) :
    parse source = .ok statement := by
  obtain ⟨tokens, htokens, rfl⟩ := exists_of_toOption_map text
  exact parse_of_input htokens taken

/-- The tokens of a text that is accepted are ones that a text can have,
and tokens of its statement. -/
theorem parse_yields {source : String} {statement : Select} (h : parse source = .ok statement) :
    ∃ tokens, tokenize source = .ok tokens ∧ YieldsInput statement (tokens.map Token.kind)
      ∧ ∀ k ∈ tokens.map Token.kind, k.Lexed := by
  obtain ⟨tokens, s', htokens, hinput⟩ := parse_ok h
  have all_lexed := lexed_of_tokenize htokens
  obtain ⟨body, hbody, lexed⟩ := tokenize_kinds htokens
  refine ⟨tokens, htokens, ?_⟩
  rw [hbody] at hinput all_lexed ⊢
  have hs : State.Lexed
      { position := 0, rest := body ++ [.eof], trial := false, events := [] } := all_lexed
  obtain ⟨ks, m, stop, yields⟩ := Grammar.input_ok hs hinput
  -- the first end of the input is the one behind `body`, and behind `ks`
  suffices body = ks from ⟨this ▸ yields, all_lexed⟩
  rcases List.append_eq_append_iff.1 m.rest with ⟨more, rfl, hmore⟩ | ⟨more, rfl, hrest⟩
  · cases more with
    | nil => rw [List.append_nil]
    | cons k more =>
        have eof : Kind.eof = k := (List.cons.inj hmore).1
        exact absurd (List.mem_append_right _ (eof ▸ List.mem_cons_self)) m.inner
  · cases more with
    | nil => rw [List.append_nil]
    | cons k more =>
        have eof : k = .eof := by
          unfold State.kindAt at stop
          rw [hrest] at stop
          exact stop
        exact absurd eof (lexed k (List.mem_append_right _ List.mem_cons_self)).2

/-- No token is lost and none invented: the tokens of a text that is
accepted, all of them and in their order, are tokens of its statement. -/
theorem yieldsInput_of_parse {source : String} {statement : Select}
    (h : parse source = .ok statement) :
    ∃ tokens, tokenize source = .ok tokens
      ∧ YieldsInput statement (tokens.map Token.kind) := by
  obtain ⟨tokens, htokens, yields, -⟩ := parse_yields h
  exact ⟨tokens, htokens, yields⟩

/-- A text with most of the tokens that say nothing. -/
theorem yieldsInput_of_outerJoin :
    ∃ statement tokens,
      parse "SELECT ALL count(*), -1 n FROM t() LEFT OUTER JOIN u ON (t.a = u.a);" = .ok statement
      ∧ tokenize "SELECT ALL count(*), -1 n FROM t() LEFT OUTER JOIN u ON (t.a = u.a);" = .ok tokens
      ∧ YieldsInput statement (tokens.map Token.kind) := by
  have accepted : (parse
      "SELECT ALL count(*), -1 n FROM t() LEFT OUTER JOIN u ON (t.a = u.a);").toOption.isSome := by
    decide +kernel
  obtain ⟨statement, h⟩ := exists_of_toOption_isSome accepted
  obtain ⟨tokens, htokens, yields⟩ := yieldsInput_of_parse h
  exact ⟨statement, tokens, h, htokens, yields⟩

end SqlSelect
