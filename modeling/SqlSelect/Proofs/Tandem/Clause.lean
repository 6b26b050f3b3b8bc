/-
Clauses read side by side.

One lemma for every production of the select list, of the `FROM` list, of sort
keys and of the numbers of rows. A clause takes tokens and names as the
expressions in it do, so that most of these lemmas follow the text of their
production with what `Proofs/Tandem/Basic.lean` says of the moves in it.

# Where more than one token decides

Three productions do not decide by the token at hand alone. The words before
`JOIN` are taken all at once; they show from the tokens up to the first that
is no such word (`Grammar.joinWords_congr`), and that one is in sight when they
are passed. An illegal run of them is at fault up to the `JOIN`, which stands
before the token where the run stops. A derived table without an alias is at
fault up to its closing parenthesis, while the token behind that one says that
there is no alias; this is why both are compared from the parenthesis on.

# What comes in

As with expressions, what is nested, here a statement, is any pair of parsers
that are comparable behind the token which the production takes first.
-/
import SqlSelect.Proofs.Tandem.Expr

namespace SqlSelect.Grammar

variable {σ μ π ε τ μ' π' ε' : Type} [Cursor σ μ π ε] [Cursor τ μ' π' ε'] {w : Tandem σ τ}
  {s : σ} {start : Nat}

-- ====================================================== select list

/-- Both words are keywords. -/
theorem tandem_distinct (hs : w.left.stands s) : w.At s none? id distinct distinct := by
  refine (tandem_consumeKeyword hs .DISTINCT).share fun found s₁ h₁ _ => ?_
  cases found with
  | true => exact .done h₁ true rfl
  | false => exact (tandem_consumeKeyword h₁ .ALL).share fun _ s₂ h₂ _ => .done h₂ false rfl

/-- An alias is behind `AS` or is a name; either is seen at the current token.
-/
theorem tandem_optionalAlias (hs : w.left.stands s) :
    w.At s none? (Option.map w.view.see) optionalAlias optionalAlias := by
  refine (tandem_consumeKeyword hs .AS).share fun found s₁ h₁ _ => ?_
  have named : w.At s₁ none? (Option.map w.view.see)
      (identifier >>= fun name => pure (some name)) (identifier >>= fun name => pure (some name)) :=
    (tandem_identifier h₁).map (fun _ _ seen => congrArg some seen) fun _ => Nat.zero_le 1
  cases found with
  | true => exact named
  | false =>
      refine .current h₁ fun k l _ alike => ?_
      rw [← alike.isSome_identifier?]
      split
      next => exact named
      next => exact .done h₁ none rfl

section Columns

variable (types : w.Types)

include types

/-- A wildcard takes no alias, and it is one on both sides. -/
theorem tandem_column :
    w.From start none? (Column.mapNames w.view.see) column column := by
  intro s hs reached
  refine (tandem_item (fun floor => (tandem_expression types floor).eased) s hs reached).andThen
    fun a b s₁ same h₁ _ => ?_
  rw [Expr.isWildcard_congr w.view.star same]
  split
  next => exact .pure h₁ (by simp [Column.mapNames, same]) rfl
  next =>
    refine (tandem_optionalAlias h₁).andThen fun x y s₂ named h₂ _ => .pure h₂ ?_ rfl
    simp [Column.mapNames, same, named]

/-- A select list is left out where a clause ends. -/
theorem tandem_columns (hs : w.left.stands s) :
    w.At s none? (Option.map (List.map (Column.mapNames w.view.see))) columns columns := by
  refine .current hs fun k l _ alike => ?_
  rw [← alike.endsClause]
  split
  next => exact .done hs none rfl
  next =>
    have list := tandem_commaSeparated (tandem_column types) s hs (Nat.le_refl _)
    exact list.map (fun _ _ same => congrArg some same) fun _ => Nat.le_refl 0

end Columns

-- ============================================================ joins

/-- What is seen past dropped tokens is seen further on. -/
theorem getD_drop (ls : List Kind) (i j : Nat) :
    (ls.drop i).getD j .eof = ls.getD (i + j) .eof := by
  rw [List.getD_eq_getElem?_getD, List.getElem?_drop, ← List.getD_eq_getElem?_getD]

/-- The words before `JOIN` are as many tokens that can be passed. -/
theorem Track.joinWords_seen {k : Track σ} (hs : k.stands s) :
    ∀ i < (joinWords (Cursor.upcoming s)).length, Cursor.kindAt s i ≠ .eof := by
  intro i hi
  have seen := Grammar.joinWords_seen _ i hi
  rwa [k.upcoming hs, getD_drop, ← k.kindAt hs] at seen

/-- The same words stand before `JOIN` on both sides, if the tokens up to the
first that is no such word are alike. -/
theorem Tandem.joinWords_eq {t : τ} (hs : w.left.stands s) (abreast : w.abreast s t)
    (near : w.near (Cursor.index s + (joinWords (Cursor.upcoming s)).length)) :
    joinWords (Cursor.upcoming t) = joinWords (Cursor.upcoming s) := by
  refine Grammar.joinWords_congr (v := w.view) fun i hi => ?_
  rw [w.left.upcoming hs, w.right.upcoming (w.right_stands abreast), w.index_eq abreast,
    getD_drop, getD_drop]
  exact w.alike near (by omega)

/-- To pass tokens never fails. -/
theorem skip_total (count : Nat) (s : σ) :
    ∃ s', (skip count : ParserOf σ ε Unit) s = .ok () s' := by
  induction count generalizing s with
  | zero => exact ⟨s, rfl⟩
  | succ count ih =>
      obtain ⟨s', h⟩ := ih (Cursor.step s)
      exact ⟨s', h⟩

/-- The words are told by all the tokens up to the first that is none. What has
been passed brings that one into sight. -/
theorem tandem_joinModifiers (hs : w.left.stands s) :
    w.At s none? id joinModifiers joinModifiers := by
  have form {σ μ π ε : Type} [Cursor σ μ π ε] (s : σ) :
      (joinModifiers : ParserOf σ ε (List Keyword)) s
      = (skip (joinWords (Cursor.upcoming s)).length
        >>= fun _ => pure (joinWords (Cursor.upcoming s)) : ParserOf σ ε _) s := rfl
  generalize words : joinWords (Cursor.upcoming s) = ks
  have passed : w.At s (fun _ => ks.length) id (skip ks.length >>= fun _ => pure ks)
      (skip ks.length >>= fun _ => pure ks) := by
    refine Tandem.At.map (Tandem.At.skip hs ?_) (fun _ _ _ => rfl) fun _ => Nat.le_refl _
    rw [← words]
    exact w.left.joinWords_seen hs
  refine ⟨fun found s' h => ?_, fun e s' h => ?_⟩
  · rw [form, words] at h
    obtain ⟨stands, moved, follows⟩ := passed.ok h
    refine ⟨stands, Nat.le_trans (Nat.le_add_right _ _) moved, fun near t abreast => ?_⟩
    have same := w.joinWords_eq hs abreast (w.near_mono (words ▸ moved) near)
    rw [form, same, words]
    exact follows near t abreast
  · obtain ⟨u, hu⟩ := skip_total ks.length s
    rw [form, words, bind_apply, hu] at h
    cases h

/-- The words that make no join are at fault up to `JOIN`, and those that make
one stand before it. -/
theorem tandem_joinType (hs : w.left.stands s) : w.At s one id joinType joinType := by
  refine .position hs ((tandem_joinModifiers hs).bindSame (m := fun _ => one)
    (fun words s₁ h₁ moved => ?_) fun _ _ => Nat.le_refl 1)
  cases joinType? words with
  | some type =>
      refine (tandem_expectKeyword h₁ .JOIN).lead fun _ _ s₂ _ h₂ further => ?_
      exact .previous h₂ (by omega) (.done h₂ type rfl)
  | none =>
      -- the words are at fault together with the `JOIN` behind them
      rw [expectKeyword_eq, expectKeyword_eq, bind_assoc, bind_assoc]
      refine .current h₁ fun k l found alike => ?_
      rw [← alike.keyword?]
      split
      next here =>
        exact .rejectPrevious h₁ (ne_eof_of_keyword? (found ▸ here)) _ moved
      next =>
        rw [unexpected_bind, unexpected_bind]
        exact .unexpected h₁ _

-- ========================================================== entries

/-- A schema is told by the point behind it. -/
theorem tandem_tableName (hs : w.left.stands s) :
    w.At s one (Prod.map (Option.map w.view.see) w.view.see) tableName tableName := by
  refine (tandem_identifier hs).lead fun x y s₁ first h₁ _ => ?_
  refine (tandem_consume h₁ .dot).share fun dotted s₂ h₂ _ => ?_
  cases dotted with
  | true =>
      exact (tandem_identifier h₂).map
        (fun _ _ second => Prod.ext (congrArg some first) second) fun _ => Nat.zero_le 1
  | false => exact .pure h₂ (Prod.ext rfl first) rfl

/-- Both parentheses are in sight. -/
theorem tandem_emptyParens (hs : w.left.stands s) :
    w.At s none? id emptyParens emptyParens := by
  refine .peek hs (by decide) fun k l hk h => .peek hs (by decide) fun k' l' hk' h' => ?_
  simp only [← h.symbol, ← h'.symbol]
  subst hk hk'
  split
  next parens => exact (Tandem.At.skip hs (forall_pair parens)).ease fun _ => Nat.zero_le _
  next => exact .done hs () rfl

/-- A table is its name, its parentheses and its alias. -/
theorem tandem_table (hs : w.left.stands s) :
    w.At s one (Source.mapNames w.view.see) table table := by
  refine (tandem_tableName hs).lead fun a b s₁ names h₁ _ => ?_
  obtain ⟨schema, name⟩ := a
  obtain ⟨schema', name'⟩ := b
  obtain ⟨hschema, hname⟩ := Prod.mk.inj names
  refine (tandem_emptyParens h₁).share fun _ s₂ h₂ _ => ?_
  refine (tandem_optionalAlias h₂).andThen fun x y s₃ named h₃ _ => .pure h₃ ?_ rfl
  simp [Source.mapNames, hschema, hname, named]

/-- What is made of the parentheses around a statement and of the alias behind
them. -/
def closeDerived (start : μ) (statement : Select) : ParserOf σ ε Source := do
  let stop ← expect .rightParen
  match ← optionalAlias with
  | some aliasName => return .derived statement aliasName none
  | none => reject .derivedTableWithoutAlias start stop

/-- What is behind the statement is taken together. -/
theorem derivedTable_eq (select : ParserOf σ ε Select) :
    derivedTable select = expect .leftParen >>= fun start => select >>= closeDerived start := rfl

/-- Where an alias starts there is one, or else a fault. -/
theorem tandem_alias_bind {α γ : Type} {least : α → Nat} {see : α → γ}
    {f : Option String → ParserOf σ ε α} {g : Option String → ParserOf τ ε' α}
    (hs : w.left.stands s) (aliased : StartsAlias (Cursor.kindAt s 0))
    (later : ∀ x y s', w.view.see x = w.view.see y → w.left.stands s' →
      w.At s' least see (f (some x)) (g (some y))) :
    w.At s least see (optionalAlias >>= f) (optionalAlias >>= g) := by
  have named {s : σ} (hs : w.left.stands s) : w.At s least see
      (identifier >>= fun name => f (some name)) (identifier >>= fun name => g (some name)) :=
    (tandem_identifier hs).andThen fun x y s' seen hs' _ => later x y s' seen hs'
  rw [optionalAlias_eq, optionalAlias_eq, bind_assoc, bind_assoc]
  refine .current hs fun k l found alike => ?_
  rw [← alike.keyword?]
  split
  next here =>
    simp only [bind_assoc, pure_bind]
    refine .advance (m := least) hs (ne_eof_of_keyword? (found ▸ here)) (fun s' _ hs' _ => ?_)
      fun _ => Nat.le_succ _
    exact named hs'
  next here =>
    rw [bind_assoc, bind_assoc]
    refine .current hs fun k' l' found' alike' => ?_
    obtain rfl : k = k' := found.symm.trans found'
    have names : k.identifier?.isSome = true := (found ▸ aliased).resolve_left here
    rw [if_pos names, if_pos (alike'.isSome_identifier?.symm.trans names)]
    simp only [bind_assoc, pure_bind]
    exact named hs

/-- The closing parenthesis of a derived table and its alias, for the lack of
which the parentheses are at fault. -/
theorem tandem_closeDerived (hs : w.left.stands s) {first : Nat} (before : first < Cursor.index s)
    {a b : Select} (same : a.mapNames w.view.see = b.mapNames w.view.see) :
    w.At s none? (Source.mapNames w.view.see) (closeDerived (w.left.mark first) a)
      (closeDerived (w.right.mark first) b) := by
  by_cases missing : Cursor.kindAt s 0 = .symbol .rightParen ∧ ¬StartsAlias (Cursor.kindAt s 1)
  · -- the token behind the parenthesis decides, and it is in sight
    obtain ⟨closed, other⟩ := missing
    have inner := ne_eof_of_symbol closed
    have refuse {σ μ π ε : Type} [Cursor σ μ π ε] (k : Track σ) {s : σ} (hs : k.stands s)
        (closed : Cursor.kindAt s 0 = .symbol .rightParen)
        (other : ¬StartsAlias (Cursor.kindAt s 1)) (statement : Select) :
        (closeDerived (k.mark first) statement : ParserOf σ ε Source) s
          = .error (k.fault (.invalid .derivedTableWithoutAlias) first (Cursor.index s))
            (refused .derivedTableWithoutAlias (k.mark first) (k.mark (Cursor.index s))
              (Cursor.step s)) := by
      obtain ⟨stands, -⟩ := k.step hs (ne_eof_of_symbol closed)
      have behind : ¬StartsAlias (Cursor.kindAt (Cursor.step s) 0) := by
        rwa [k.kindAt_step hs (ne_eof_of_symbol closed)]
      have here : Cursor.markAt s 0 = k.mark (Cursor.index s) := k.markAt hs 0
      rw [← k.reject_apply stands, ← here, closeDerived, expect_bind_eq]
      show (if Cursor.kindAt s 0 = .symbol .rightParen then _ else _ : ParserOf σ ε Source) s = _
      rw [if_pos closed]
      show (optionalAlias >>= _ : ParserOf σ ε Source) (Cursor.step s) = _
      rw [bind_apply, optionalAlias_none behind]
    obtain ⟨stands, next⟩ := w.left.step hs inner
    obtain ⟨stands', still⟩ := w.left.refused stands .derivedTableWithoutAlias
      (w.left.mark first) (w.left.mark (Cursor.index s))
    refine .fail (refuse w.left hs closed other a) stands' (by omega) (Nat.le_refl _)
      (w.left.index_lt hs) (w.left.suits_rule hs _ (Nat.le_of_lt before) (Or.inl before))
      fun near t abreast => ?_
    have first' := w.kindAt (i := 0) hs abreast near (Nat.zero_le 2)
    have second := w.kindAt (i := 0) hs abreast near (by decide : 1 ≤ 2)
    have right := refuse w.right (w.right_stands abreast) ((first'.symbol _).1 closed)
      (fun starts => other (second.startsAlias.2 starts)) b
    rw [w.index_eq abreast] at right
    exact ⟨_, _, right, rfl,
      w.suits_rule hs abreast near _ (Nat.le_of_lt before) (Or.inl before),
      w.refused stands (w.step hs abreast near inner) _ _ _⟩
  · rw [closeDerived, closeDerived, expect_bind_eq, expect_bind_eq]
    refine .position hs (.current hs fun k l found alike => ?_)
    simp only [← alike.symbol]
    split
    next here =>
      have closed := found.trans here
      have inner := ne_eof_of_symbol closed
      have aliased : StartsAlias (Cursor.kindAt s 1) :=
        Classical.not_not.1 fun other => missing ⟨closed, other⟩
      refine .advance (m := none?) hs inner (fun s' next hs' _ => ?_) fun _ => Nat.zero_le _
      have starts : StartsAlias (Cursor.kindAt s' 0) := by
        rwa [next, w.left.kindAt_step hs inner]
      refine tandem_alias_bind hs' starts fun x y u seen hu => .pure hu ?_ rfl
      simp [Source.mapNames, same, seen]
    next => exact .unexpected hs _

section Sources

variable (types : w.Types) {select : ParserOf σ ε Select} {select' : ParserOf τ ε' Select}
  (nested : w.From (start + 1) none? (Select.mapNames w.view.see) select select')

include nested

/-- The statement is behind the opening parenthesis. -/
theorem tandem_derivedTable (hs : w.left.stands s) (reached : start ≤ Cursor.index s) :
    w.At s one (Source.mapNames w.view.see) (derivedTable select) (derivedTable select') := by
  rw [derivedTable_eq, derivedTable_eq]
  refine .expect (m := none?) hs .leftParen (fun s₁ h₁ moved => ?_) fun _ => Nat.le_refl 1
  refine (nested s₁ h₁ (by omega)).andThen fun a b s₂ statement h₂ further => ?_
  exact tandem_closeDerived h₂ (by omega) statement

/-- A parenthesis starts a derived table. -/
theorem tandem_source :
    w.From start one (Source.mapNames w.view.see) (source select) (source select') := by
  intro s hs reached
  refine .atSymbol hs .leftParen fun opened _ => ?_
  cases opened with
  | true => exact tandem_derivedTable nested hs reached
  | false => exact tandem_table hs

include types

/-- The type of a join is the same, and what is joined looks the same. -/
theorem tandem_joinedSource :
    w.From start one (Source.mapNames w.view.see) (joinedSource select)
      (joinedSource select') := by
  intro s hs reached
  refine (tandem_joinType hs).lead fun type type' s₁ same h₁ moved => ?_
  obtain rfl : type = type' := same
  refine ((tandem_source nested) s₁ h₁ (by omega)).andThen fun a b s₂ entry h₂ _ => ?_
  refine (tandem_expectKeyword h₂ .ON).share fun _ s₃ h₃ _ => ?_
  refine (tandem_expression types 0 s₃ h₃ (Nat.le_refl _)).map (fun c d on => ?_)
    fun _ => Nat.zero_le 1
  rw [Source.mapNames_withJoin, Source.mapNames_withJoin, entry, Join.mapNames, Join.mapNames, on]

/-- A further entry is behind a comma or a `JOIN`. -/
theorem tandem_furtherSource :
    w.From start drawn (Option.map (Source.mapNames w.view.see)) (furtherSource select)
      (furtherSource select') := by
  intro s hs reached
  have listed {p : ParserOf σ ε Source} {q : ParserOf τ ε' Source} {s : σ}
      {least : Option Source → Nat}
      (h : w.At s one (Source.mapNames w.view.see) p q) (le : ∀ entry, least entry ≤ 1) :
      w.At s least (Option.map (Source.mapNames w.view.see)) (p >>= fun entry => pure (some entry))
        (q >>= fun entry => pure (some entry)) :=
    h.map (fun _ _ same => congrArg some same) fun _ => le _
  refine (tandem_consume hs .comma).bindSame (m := fun found entry => drawn entry - taken found)
    (fun found s₁ h₁ moved => ?_) fun found entry => by omega
  have onward : Cursor.index s ≤ Cursor.index s₁ := Nat.le_trans (Nat.le_add_right _ _) moved
  have fewer (entry : Option Source) : drawn entry - taken found ≤ 1 :=
    Nat.le_trans (Nat.sub_le _ _) (drawn_le entry)
  cases found with
  | true => exact listed (tandem_source nested s₁ h₁ (by omega)) fewer
  | false =>
      refine .current h₁ fun k l _ alike => ?_
      rw [← alike.startsJoin]
      split
      next => exact listed (tandem_joinedSource types nested s₁ h₁ (by omega)) fewer
      next => exact .done h₁ none rfl

/-- Entries are read as long as there are any, with two bounds that suffice. -/
theorem tandem_moreSources {n m : Nat} (bounds : w.Bounds start n m True) :
    w.From start none? (List.map (Source.mapNames w.view.see)) (moreSources select n)
      (moreSources select' m) := by
  rw [moreSources_eq_collect, moreSources_eq_collect]
  refine .collect (tandem_furtherSource types nested) (bounds.imp_left fun ⟨same, _⟩ => ⟨same, ?_⟩)
  exact fun s hs _ => .done hs [] rfl

/-- The first entry and those behind it. -/
theorem tandem_sources :
    w.From start one (List.map (Source.mapNames w.view.see)) (sources select)
      (sources select') := by
  intro s hs reached
  refine (tandem_source nested s hs reached).lead fun a b s₁ head h₁ moved => ?_
  refine .tokensLeft h₁ fun n m left right => ?_
  have tail := tandem_moreSources types (nested.mono (by omega : start + 1 ≤ Cursor.index s₁ + 1))
    (Or.inr ⟨left, right⟩) s₁ h₁ (Nat.le_refl _)
  exact tail.map (fun _ _ same => List.cons_eq_cons.2 ⟨head, same⟩) fun _ => Nat.le_refl 0

end Sources

-- ========================================================= ORDER BY

/-- The direction is told by a keyword. -/
theorem tandem_sortKey (types : w.Types) :
    w.From start none? (SortKey.mapNames w.view.see) sortKey sortKey := by
  intro s hs reached
  refine (tandem_expression types 0 s hs reached).andThen fun a b s₁ same h₁ _ => ?_
  have key {s : σ} (hs : w.left.stands s) (direction : Direction) :
      w.At s none? (SortKey.mapNames w.view.see) (pure ⟨a, direction⟩) (pure ⟨b, direction⟩) :=
    .pure hs (by rw [SortKey.mapNames, SortKey.mapNames, same]) rfl
  refine (tandem_consumeKeyword h₁ .DESC).share fun found s₂ h₂ _ => ?_
  cases found with
  | true => exact key h₂ _
  | false => exact (tandem_consumeKeyword h₂ .ASC).share fun _ s₃ h₃ _ => key h₃ _

-- =========================================== LIMIT, OFFSET, FETCH

/-- A negative count is at fault from its sign to its last token, which has
been passed. A fraction is at fault where it stands. -/
theorem tandem_rowCount (hs : w.left.stands s) : w.At s none? id rowCount rowCount := by
  refine .position hs ((tandem_consume hs .minus).share fun negative s₁ h₁ moved => ?_)
  have le : Cursor.index s ≤ Cursor.index s₁ := Nat.le_trans (Nat.le_add_right _ _) moved
  refine .position h₁ (.current h₁ fun k l found alike => ?_)
  cases alike with
  | plain left right => cases left <;> cases right <;> exact .unexpected h₁ _
  | same =>
      split
      next digits =>
        have inner : Cursor.kindAt s₁ 0 ≠ .eof := found ▸ nofun
        generalize (if negative = true then _ else _ : Int64) = value
        show w.At s₁ none? id (advance >>= fun _ => if value < 0 then _ else _)
          (advance >>= fun _ => if value < 0 then _ else _)
        -- the value is the same, and so is whether it is refused
        by_cases below : value < 0
        · rw [if_pos below, if_pos below]
          exact .rejectPassed h₁ inner _ le
        · rw [if_neg below, if_neg below]
          exact .take h₁ inner rfl (Nat.zero_le 1)
      next => exact .reject h₁ _ le (Or.inr (found ▸ nofun))
      next => exact .unexpected h₁ _

/-- Both words are keywords. -/
theorem tandem_rowWord (hs : w.left.stands s) : w.At s none? id rowWord rowWord := by
  refine (tandem_consumeKeyword hs .ROWS).share fun found s₁ h₁ _ => ?_
  cases found with
  | true => exact .done h₁ () rfl
  | false => exact (tandem_consumeKeyword h₁ .ROW).share fun _ s₂ h₂ _ => .done h₂ () rfl

/-- The word `ALL` is a keyword. -/
theorem tandem_limitCount (hs : w.left.stands s) : w.At s none? id limitCount limitCount := by
  refine (tandem_consumeKeyword hs .ALL).share fun found s₁ h₁ _ => ?_
  cases found with
  | true => exact .done h₁ none rfl
  | false => exact (tandem_rowCount h₁).share fun count s₂ h₂ _ => .done h₂ _ rfl

/-- A keyword stands where the count is missing. -/
theorem tandem_rowCountOrOne (hs : w.left.stands s) :
    w.At s none? id rowCountOrOne rowCountOrOne := by
  refine .current hs fun k l _ alike => ?_
  dsimp only
  rw [← alike.keyword?]
  split
  next => exact .done hs 1 rfl
  next => exact tandem_rowCount hs

/-- A count and the words behind it. -/
theorem tandem_fetched (hs : w.left.stands s) : w.At s none? id fetched fetched := by
  refine (tandem_rowCountOrOne hs).share fun count s₁ h₁ _ => ?_
  refine (tandem_rowWord h₁).share fun _ s₂ h₂ _ => ?_
  exact (tandem_consumeKeyword h₂ .ONLY).share fun _ s₃ h₃ _ => .done h₃ count rfl

/-- One of two keywords must be there. -/
theorem tandem_fetchCount (hs : w.left.stands s) : w.At s none? id fetchCount fetchCount := by
  refine (tandem_consumeKeyword hs .FIRST).share fun found s₁ h₁ _ => ?_
  cases found with
  | true => exact tandem_fetched h₁
  | false =>
      refine (tandem_consumeKeyword h₁ .NEXT).share fun found s₂ h₂ _ => ?_
      cases found with
      | true => exact tandem_fetched h₂
      | false => exact .unexpected h₂ _

/-- One of the clauses is behind its keyword. -/
theorem tandem_rowLimit? (hs : w.left.stands s) (limits : RowLimits) :
    w.At s drawn (Option.map id) (rowLimit? limits) (rowLimit? limits) := by
  refine .position hs (.current hs fun k l found alike => ?_)
  rw [← alike.keyword?]
  subst found
  -- what stands twice is at fault, and what stands once is read behind the keyword
  have member {keyword : Keyword} (here : (Cursor.kindAt s 0).keyword? = some keyword)
      (twice : Bool) (rule : Rule) {p : ParserOf σ ε (Option RowLimits)}
      {q : ParserOf τ ε' (Option RowLimits)}
      (once : ∀ s', w.left.stands s' → w.At s' none? (Option.map id) p q) :
      w.At s drawn (Option.map id)
        (if twice then reject rule (w.left.mark (Cursor.index s)) (w.left.mark (Cursor.index s))
          else advance >>= fun _ => p)
        (if twice then reject rule (w.right.mark (Cursor.index s)) (w.right.mark (Cursor.index s))
          else advance >>= fun _ => q) := by
    have inner := ne_eof_of_keyword? here
    cases twice with
    | true => exact .reject hs rule (Nat.le_refl _) (Or.inr inner)
    | false => exact .advance (m := none?) hs inner (fun s' _ hs' _ => once s' hs') drawn_le
  split
  next here =>
    exact member here _ _ fun s₁ h₁ =>
      (tandem_limitCount h₁).share fun _ s₂ h₂ _ => .done h₂ _ rfl
  next here =>
    exact member here _ _ fun s₁ h₁ => (tandem_rowCount h₁).share fun _ s₂ h₂ _ =>
      (tandem_rowWord h₂).share fun _ s₃ h₃ _ => .done h₃ _ rfl
  next here =>
    exact member here _ _ fun s₁ h₁ =>
      (tandem_fetchCount h₁).share fun _ s₂ h₂ _ => .done h₂ _ rfl
  next => exact .done hs none rfl

/-- Limits are read as long as there are any, with two bounds that suffice. -/
theorem tandem_rowLimits {n m : Nat} (bounds : w.Bounds start n m True) (limits : RowLimits) :
    w.From start none? id (rowLimits n limits) (rowLimits m limits) := by
  rw [rowLimits_eq_iterate, rowLimits_eq_iterate]
  refine .iterate (fun c d same s hs _ => ?_) (bounds.imp_left fun ⟨same, _⟩ => ⟨same, ?_⟩) rfl
  · obtain rfl : c = d := same
    exact tandem_rowLimit? hs c
  · exact fun c d same s hs _ => .pure hs same rfl

/-- The bound on the limits is the number of tokens left. -/
theorem tandem_limitClause (hs : w.left.stands s) :
    w.At s none? id limitClause limitClause := by
  refine .tokensLeft hs fun n m left right => ?_
  have limits := tandem_rowLimits (Or.inr ⟨left, right⟩) ⟨none, none⟩ s hs (Nat.le_refl _)
  exact limits.map (fun _ _ same => congrArg RowLimits.clause? same) fun _ => Nat.le_refl 0

end SqlSelect.Grammar
