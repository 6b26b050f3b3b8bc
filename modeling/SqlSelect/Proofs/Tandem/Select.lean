/-
Statements read side by side.

A statement takes its first keyword and then its clauses, of which only the
`FROM` list holds further statements, each behind a token of its own. So the
knot of statements is the loop of `Proofs/Tandem/Basic.lean`, as that of
expressions is.

# The list that is read twice

A `GROUP BY` list in parentheses may be read twice. First it is attempted as a
list in parentheses, and if the clause does not end behind them the cursor goes
back. A tandem that knows the tokens to be alike only up to where the left side
stops cannot follow an attempt that stops further on, so whether `GROUP BY`
clauses are comparable is left to the tandem (`Tandem.Groups`).

Where all tokens are known to be alike, the attempt ends in the same way on
both sides, and both go back or neither does. `Tandem.Rewinds` says what that
takes beyond the laws of a tandem: the cursors are both in an attempt or both
in none, and to go back keeps them abreast.
-/
import SqlSelect.Proofs.Tandem.Clause

namespace SqlSelect.Grammar

variable {σ μ π ε τ μ' π' ε' : Type} [Cursor σ μ π ε] [Cursor τ μ' π' ε'] {w : Tandem σ τ}
  {s : σ} {start : Nat}

-- ========================================================= attempts

/-- A tandem over tokens that are all alike, in which cursors can go back. -/
structure Tandem.Rewinds (w : Tandem σ τ) : Prop where
  near : ∀ i, w.near i
  within : ∀ e, w.within e
  exempt : ∀ e, ¬w.exempt e
  trial : ∀ {s t}, w.abreast s t → Cursor.trial t = Cursor.trial s
  setTrial : ∀ {s t}, w.left.stands s → w.abreast s t → ∀ trial,
    w.abreast (Cursor.setTrial trial s) (Cursor.setTrial trial t)
  back : ∀ {s t u v}, w.left.stands s → w.left.stands u → w.abreast s t → w.abreast u v →
    w.abreast (Cursor.back s u) (Cursor.back t v)
  reparsed : ∀ {s t}, w.left.stands s → w.abreast s t → ∀ i,
    w.abreast (Cursor.report (.reparsed i) s) (Cursor.report (.reparsed i) t)

/-- Runs `body` and goes on with what it yields, or goes back and reads the
same tokens with `again`. -/
def orAgain {α : Type} (body : ParserOf σ ε (Option α)) (again : ParserOf σ ε α) :
    ParserOf σ ε α := do
  let start ← get
  match ← body with
  | some a => return a
  | none =>
    modify (Cursor.report (.reparsed (Cursor.index start)))
    rewind start
    again

/-- The list is attempted behind its parenthesis, and otherwise read plain. -/
theorem groups_eq :
    (groups : ParserOf σ ε (List Expr)) = atSymbol .leftParen >>= fun opened =>
      if opened then orAgain (advance >>= fun _ => wrappedGroups) (expressionList expression)
      else expressionList expression := by
  unfold groups orAgain
  refine bind_congr fun opened => ?_
  cases opened with
  | false => rfl
  | true =>
      show (get >>= fun start => advance >>= fun _ => wrappedGroups >>= _) = _
      simp only [bind_assoc]
      refine bind_congr fun start => bind_congr fun _ => bind_congr fun found => ?_
      cases found <;> rfl

namespace Tandem.Rewinds

variable {α γ : Type} {see : α → γ} (rewinds : w.Rewinds)

include rewinds

/-- An attempt yields on both sides or on neither, and stops at the same
token. -/
theorem attempt {p : ParserOf σ ε α} {q : ParserOf τ ε' α} (hs : w.left.stands s)
    (body : w.At (Cursor.setTrial true s) none? see p q) :
    w.At s none? (Option.map see) (attempt p) (attempt q) := by
  obtain ⟨-, tried⟩ := w.left.setTrial hs true
  have entered {t : τ} (abreast : w.abreast s t) :
      w.abreast (Cursor.setTrial true s) (Cursor.setTrial true t) :=
    rewinds.setTrial hs abreast true
  refine ⟨fun found s' h => ?_, fun e s' h => ?_⟩
  · unfold Grammar.attempt at h
    cases hp : p (Cursor.setTrial true s) with
    | ok a u =>
        rw [hp] at h
        cases h
        obtain ⟨stands, moved, follows⟩ := body.ok hp
        obtain ⟨stands', here⟩ := w.left.setTrial stands (Cursor.trial s)
        refine ⟨stands', by simp only [none?] at moved ⊢; omega, fun _ t abreast => ?_⟩
        obtain ⟨b, v, hq, same, abreast'⟩ := follows (rewinds.near _) _ (entered abreast)
        refine ⟨some b, Cursor.setTrial (Cursor.trial t) v, ?_, congrArg some same, ?_⟩
        · rw [Grammar.attempt, hq]
        · rw [rewinds.trial abreast]
          exact rewinds.setTrial stands abreast' _
    | error e u =>
        rw [hp] at h
        cases h
        obtain ⟨stands, onward, -, follows⟩ := body.error hp
        obtain ⟨stands', here⟩ := w.left.setTrial stands (Cursor.trial s)
        refine ⟨stands', by simp only [none?] at onward ⊢; omega, fun _ t abreast => ?_⟩
        obtain ⟨f, v, hq, -, abreast'⟩ :=
          (follows (rewinds.within e) _ (entered abreast)).resolve_right (rewinds.exempt e)
        refine ⟨none, Cursor.setTrial (Cursor.trial t) v, ?_, rfl, ?_⟩
        · rw [Grammar.attempt, hq]
        · rw [rewinds.trial abreast]
          exact rewinds.setTrial stands abreast' _
  · unfold Grammar.attempt at h
    cases hp : p (Cursor.setTrial true s) <;> rw [hp] at h <;> cases h

/-- Both sides go back or neither does. -/
theorem orAgain {p : ParserOf σ ε (Option α)} {q : ParserOf τ ε' (Option α)} {r : ParserOf σ ε α}
    {r' : ParserOf τ ε' α} (hs : w.left.stands s) (first : w.At s none? (Option.map see) p q)
    (again : ∀ s', w.left.stands s' → Cursor.index s' = Cursor.index s →
      w.At s' none? see r r') :
    w.At s none? see (orAgain p r) (orAgain q r') := by
  -- behind an attempt that yields nothing, the list is read from here again
  have behind {u : σ} (stands : w.left.stands u) :
      w.At (Cursor.back s (Cursor.report (.reparsed (Cursor.index s)) u)) none? see r r'
        ∧ Cursor.index (Cursor.back s (Cursor.report (.reparsed (Cursor.index s)) u))
          = Cursor.index s := by
    obtain ⟨reported, -⟩ := w.left.report stands (.reparsed (Cursor.index s))
    obtain ⟨returned, here⟩ := w.left.back hs reported
    exact ⟨again _ returned here, here⟩
  have level {u : σ} {t v : τ} (stands : w.left.stands u) (abreast : w.abreast s t)
      (abreast' : w.abreast u v) :
      w.abreast (Cursor.back s (Cursor.report (.reparsed (Cursor.index s)) u))
        (Cursor.back t (Cursor.report (.reparsed (Cursor.index t)) v)) := by
    obtain ⟨reported, -⟩ := w.left.report stands (.reparsed (Cursor.index s))
    rw [w.index_eq abreast]
    exact rewinds.back hs reported abreast (rewinds.reparsed stands abreast' _)
  refine ⟨fun a s' h => ?_, fun e s' h => ?_⟩
  · obtain ⟨found, u, hp, hf⟩ := bind_ok.1 (show (p >>= _) s = _ from h)
    obtain ⟨stands, moved, follows⟩ := first.ok hp
    cases found with
    | some a =>
        obtain ⟨rfl, rfl⟩ := pure_ok.1 hf
        refine ⟨stands, moved, fun near t abreast => ?_⟩
        obtain ⟨b, v, hq, same, abreast'⟩ := follows near t abreast
        cases b with
        | none => cases same
        | some b =>
            refine ⟨b, v, ?_, Option.some.inj same, abreast'⟩
            exact (show (q >>= _) t = _ from bind_ok.2 ⟨some b, v, hq, rfl⟩)
    -- the attempt is taken back on the left, and so it is on the right
    | none =>
        obtain ⟨later, here⟩ := behind stands
        obtain ⟨stands', moved', follows'⟩ := later.ok hf
        refine ⟨stands', here ▸ moved', fun near t abreast => ?_⟩
        obtain ⟨b, v, hq, same, abreast'⟩ := follows (rewinds.near _) t abreast
        cases b with
        | some b => cases same
        | none =>
            obtain ⟨c, t', hr, seen, last⟩ := follows' near _ (level stands abreast abreast')
            refine ⟨c, t', ?_, seen, last⟩
            exact (show (q >>= _) t = _ from bind_ok.2 ⟨none, v, hq, hr⟩)
  · rcases bind_error (show (p >>= _) s = _ from h) with hp | ⟨found, u, hp, hf⟩
    · obtain ⟨stands, onward, blames, follows⟩ := first.error hp
      refine ⟨stands, onward, blames, fun within t abreast => ?_⟩
      refine (follows within t abreast).imp_left fun ⟨f, t', hq, same, abreast'⟩ => ?_
      refine ⟨f, t', ?_, same, abreast'⟩
      show (q >>= _) t = _
      rw [bind_apply, hq]
    · obtain ⟨stands, moved, follows⟩ := first.ok hp
      cases found with
      | some a => cases hf
      | none =>
          obtain ⟨later, here⟩ := behind stands
          obtain ⟨stands', onward, blames, follows'⟩ := later.error hf
          refine ⟨stands', here ▸ onward, blames.before (Nat.le_of_eq here.symm),
            fun within t abreast => ?_⟩
          obtain ⟨b, v, hq, same, abreast'⟩ := follows (rewinds.near _) t abreast
          cases b with
          | some b => cases same
          | none =>
              refine (follows' within _ (level stands abreast abreast')).imp_left
                fun ⟨f, t', hr, seen, last⟩ => ⟨f, t', ?_, seen, last⟩
              show (q >>= _) t = _
              rw [bind_apply, hq]
              exact hr

end Tandem.Rewinds

-- ========================================================= GROUP BY

/-- `GROUP BY` clauses are comparable. -/
def Tandem.Groups (w : Tandem σ τ) : Prop :=
  ∀ s, w.left.stands s → w.At s none? (Option.map (List.map (Expr.mapNames w.view.see)))
    (clause .GROUP (afterBy groups)) (clause .GROUP (afterBy groups))

section Groups

variable (rewinds : w.Rewinds) (types : w.Types)

include types

/-- A plain list, with the expressions of the grammar. -/
theorem tandem_expressions :
    w.From start none? (List.map (Expr.mapNames w.view.see)) (expressionList expression)
      (expressionList expression) :=
  tandem_expressionList fun floor => (tandem_expression types floor).eased

include rewinds

/-- Both attempts yield a list that ends the clause, or neither does. -/
theorem tandem_wrappedGroups (hs : w.left.stands s) :
    w.At s none? (Option.map (List.map (Expr.mapNames w.view.see))) wrappedGroups
      wrappedGroups := by
  obtain ⟨tried, -⟩ := w.left.setTrial hs true
  have list := rewinds.attempt hs (tandem_expressions types _ tried (Nat.le_refl _))
  refine list.andThen fun a b s₁ same h₁ _ => ?_
  cases a with
  | none =>
      cases b with
      | none => exact .done h₁ none rfl
      | some b => cases same
  | some a =>
      cases b with
      | none => cases same
      | some b =>
          refine (tandem_consume h₁ .rightParen).share fun closed s₂ h₂ _ => ?_
          cases closed with
          | false => exact .done h₂ none rfl
          | true =>
              refine .current h₂ fun k l _ alike => ?_
              rw [← alike.endsClause]
              split
              next => exact .pure h₂ same rfl
              next => exact .done h₂ none rfl

/-- Where cursors can go back, lists of groups are comparable. -/
theorem tandem_groups :
    w.From start none? (List.map (Expr.mapNames w.view.see)) groups groups := by
  intro s hs reached
  rw [groups_eq, groups_eq]
  refine .atSymbol hs .leftParen fun opened here => ?_
  cases opened with
  | false => exact tandem_expressions types s hs reached
  | true =>
      refine rewinds.orAgain hs ?_ fun s' hs' _ => tandem_expressions types s' hs' (Nat.le_refl _)
      refine .advance (m := none?) hs (ne_eof_of_symbol (here rfl)) (fun s₁ _ h₁ _ => ?_)
        fun _ => Nat.zero_le _
      exact tandem_wrappedGroups rewinds types h₁

/-- And so are their clauses. -/
theorem Tandem.Rewinds.groups : w.Groups :=
  fun _ hs => tandem_clause hs .GROUP fun _ h₁ _ => tandem_afterBy h₁ (tandem_groups rewinds types)

end Groups

-- ======================================================= statements

section Statements

variable (types : w.Types) (grouped : w.Groups) {select : ParserOf σ ε Select}
  {select' : ParserOf τ ε' Select}

include types grouped

/-- The clauses one after the other, each from where the one before it stops.
-/
theorem tandem_selectOf
    (nested : w.From (start + 1) none? (Select.mapNames w.view.see) select select') :
    w.From start one (Select.mapNames w.view.see) (selectOf select) (selectOf select') := by
  intro s hs reached
  have expr {i : Nat} : w.From i none? (Expr.mapNames w.view.see) (expression 0) (expression 0) :=
    (tandem_expression types 0).eased
  have keys {i : Nat} : w.From i none? (List.map (SortKey.mapNames w.view.see))
      (commaSeparated sortKey) (commaSeparated sortKey) :=
    tandem_commaSeparated (tandem_sortKey types)
  refine (tandem_expectKeyword hs .SELECT).lead fun _ _ s₁ _ h₁ m₁ => ?_
  refine (tandem_distinct h₁).share fun distinct s₂ h₂ m₂ => ?_
  refine (tandem_columns types h₂).andThen fun _ _ s₃ columns h₃ m₃ => ?_
  have list : w.From (Cursor.index s₃ + 1) none? (List.map (Source.mapNames w.view.see))
      (sources select) (sources select') := by
    have reached : start + 1 ≤ Cursor.index s₃ + 1 + 1 := by
      simp only [none?] at m₂ m₃
      omega
    exact (tandem_sources types (nested.mono reached)).eased
  refine (tandem_clause h₃ .FROM list).andThen fun _ _ s₄ sources h₄ _ => ?_
  refine (tandem_clause h₄ .WHERE expr).andThen fun _ _ s₅ filter h₅ _ => ?_
  refine (grouped s₅ h₅).andThen fun _ _ s₆ groups h₆ _ => ?_
  refine (tandem_clause h₆ .HAVING expr).andThen fun _ _ s₇ having h₇ _ => ?_
  refine (tandem_clause h₇ .ORDER fun _ h _ => tandem_afterBy h keys).andThen
    fun _ _ s₈ order h₈ _ => ?_
  refine (tandem_limitClause h₈).share fun limit s₉ h₉ _ => .pure h₉ ?_ rfl
  simp only [Select.mapNames, mapSourceListNames_eq, Select.mk.injEq, true_and, and_true]
  exact ⟨columns, sources, filter, groups, having, order⟩

/-- Every nested statement is behind a token of its own. -/
theorem tandem_selectOver {spent : ParserOf σ ε Select} {spent' : ParserOf τ ε' Select} {n m : Nat}
    (bounds : w.Bounds start n m
      (w.From start one (Select.mapNames w.view.see) spent spent')) :
    w.From start one (Select.mapNames w.view.see) (selectOver spent n) (selectOver spent' m) := by
  refine .loop (fun _ : Unit => ()) (p := fun n _ => selectOver spent n)
    (q := fun m _ => selectOver spent' m) (fun answers _ _ _ => answers) ?_ bounds
    (c := ()) (d := ()) rfl
  intro n m later _ _ rest _ _ _
  exact tandem_selectOf types grouped (rest () () rfl).eased

/-- A statement has a round for every token left. -/
theorem tandem_statement : w.From start one (Select.mapNames w.view.see) statement statement := by
  intro s hs _
  refine .tokensLeft hs fun n m left right => ?_
  rw [selectWithin_eq_over, selectWithin_eq_over]
  exact tandem_selectOver types grouped (Or.inr ⟨left, right⟩) s hs (Nat.le_refl _)

omit types grouped in
/-- What is left over is at fault, and no plain name ends an input. -/
theorem tandem_ending (hs : w.left.stands s) {a b : Select}
    (same : a.mapNames w.view.see = b.mapNames w.view.see) :
    w.At s none? (Select.mapNames w.view.see) (ending a) (ending b) := by
  refine (tandem_consume hs .semicolon).share fun _ s₁ h₁ _ => .current h₁ fun k l found alike => ?_
  cases alike with
  | plain left right =>
      have inner : Cursor.kindAt s₁ 0 ≠ .eof := found ▸ left.ne_eof
      cases left <;> cases right <;> exact .trailing h₁ inner
  | same =>
      cases k with
      | eof => exact .pure h₁ same rfl
      | _ => exact .trailing h₁ (found ▸ nofun)

/-- Whole inputs that look the same are statements that do, or are refused for
the same reason at the same tokens. -/
theorem tandem_input (hs : w.left.stands s) :
    w.At s none? (Select.mapNames w.view.see) input input := by
  rw [input_eq, input_eq]
  exact (tandem_statement types grouped s hs (Nat.le_refl _)).andThen fun _ _ _ same hs' _ =>
    tandem_ending hs' same

end Statements

end SqlSelect.Grammar
