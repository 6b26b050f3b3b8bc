/-
What bounds the loops and the nesting of the grammar.

The grammar counts its rounds, and says something for want of a better answer
when none is left. That this never shows has three sides, each of which this
file puts in the form in which the productions are listed later.

# Going forward

Whatever a parser comes to, the cursor has only moved forward (`Onward`). This
holds along a sequence, so that it is read off the courses of the productions;
the few productions without a course are made of others.

# Rounds

A round that has another behind it passes a token (`Gaining`). So if there is
a round for every token left, a loop does not come to its last answer, and two
bounds that suffice make no difference, nor do the two answers
(`collect_gaining`, `iterate_gaining`). The induction is on the one bound, with
the tokens left in the same inequality.

# Nesting

What is nested is behind a token that its production takes first. That one
expression may stand for another there, and one statement for another, is what
the comparison of a cursor with itself says (`solo`): the productions do not
tell two parsers of nested expressions apart that agree behind the current
token. From this an expression unfolds into a round that asks for expressions
behind the current token alone (`expression_unfold`), and so does a statement.
-/
import SqlSelect.Proofs.Course.Select
import SqlSelect.Proofs.Tandem.State

namespace SqlSelect.Grammar

variable {α β : Type} {kinds : List Kind} {s : State}

-- ===================================================== going forward

/-- Whatever it comes to, the parser has only moved the cursor forward. -/
def Onward (p : Parser α) : Prop := ∀ s, ∃ ks, Moves s ks (final (p s))

namespace Onward

variable {p : Parser α}

theorem of_course {speculates : Bool} (course : Course speculates 0 p) : Onward p :=
  fun _ => course.steps.onward (Nat.zero_le _)

theorem of_plain (course : Course false 0 p) : Onward p := of_course course

protected theorem pure (a : α) : Onward (pure a) := fun s => ⟨[], Moves.refl s⟩

protected theorem bind {f : α → Parser β} (first : Onward p) (later : ∀ a, Onward (f a)) :
    Onward (p >>= f) :=
  fun s => onward_bind (first s) fun a t _ _ => later a t

protected theorem clause (keyword : Keyword) (body : Onward p) : Onward (clause keyword p) := by
  refine .bind (of_plain (course_consumeKeyword keyword)) fun found => ?_
  cases found with
  | true => exact .bind body fun _ => .pure _
  | false => exact .pure none

theorem afterComma (body : Onward p) : Onward (afterComma p) := by
  refine .bind (of_plain (course_consume .comma)) fun found => ?_
  cases found with
  | true => exact .bind body fun _ => .pure _
  | false => exact .pure none

protected theorem collect {spent : Parser (List α)} {round : Parser (Option α)}
    (rounds : Onward round) (last : Onward spent) (count : Nat) :
    Onward (collect spent round count) := by
  induction count with
  | zero => exact last
  | succ count ih =>
      refine .bind rounds fun found => ?_
      cases found with
      | some a => exact .bind ih fun _ => .pure _
      | none => exact .pure []

theorem moreItems (body : Onward p) (count : Nat) : Onward (moreItems p count) := by
  rw [moreItems_eq_collect]
  exact .collect body.afterComma (.pure []) count

theorem commaSeparated (body : Onward p) : Onward (commaSeparated p) :=
  .bind body fun _ => .bind (of_plain course_tokensLeft) fun count =>
    .bind (body.moreItems count) fun _ => .pure _

/-- An attempt leaves the cursor where it ends. -/
protected theorem attempt (body : Onward p) : Onward (attempt p) := by
  intro s
  obtain ⟨ks, m⟩ := body { s with trial := true }
  have state : final (Grammar.attempt p s)
      = { final (p { s with trial := true }) with trial := s.trial } := by
    rw [attempt_eq]
    cases p { s with trial := true } <;> rfl
  rw [state]
  exact ⟨ks, m.rest, m.position, m.inner⟩

theorem wrappedGroups : Onward wrappedGroups := by
  have list : Onward (expressionList expression) :=
    of_plain (course_expressionList fun _ => course_expression)
  refine .bind list.attempt fun found => ?_
  cases found with
  | none => exact .pure none
  | some es =>
      refine .bind (of_plain (course_consume .rightParen)) fun closed => ?_
      cases closed with
      | false => exact .pure none
      | true =>
          refine .bind (of_plain course_current) fun kind => ?_
          split
          next => exact .pure _
          next => exact .pure none

theorem ending (statement : Select) : Onward (ending statement) := by
  refine .bind (of_plain (course_consume .semicolon)) fun _ => ?_
  refine .bind (of_plain course_current) fun kind => ?_
  cases kind with
  | eof => exact .pure statement
  | _ => exact fun s => (Steps.trailing 0).onward (Nat.zero_le _)

/-- A cursor that stands among the tokens stays there and does not go back. -/
theorem stays (h : Onward p) (hs : s.StandsIn kinds) :
    (final (p s)).StandsIn kinds ∧ s.position ≤ (final (p s)).position := by
  obtain ⟨ks, m⟩ := h s
  exact ⟨hs.moves m, m.le_position⟩

end Onward

/-- Tokens that are seen, none of them the end of the input, are passed. -/
theorem skip_passes {count : Nat} (inner : ∀ k < count, s.kindAt k ≠ .eof) :
    ∃ ks t, skip count s = .ok () t ∧ Moves s ks t ∧ t.position = s.position + count := by
  induction count generalizing s with
  | zero => exact ⟨[], s, rfl, Moves.refl s, rfl⟩
  | succ count ih =>
      have first := moves_advance rfl (inner 0 (Nat.succ_pos count))
      have next (k : Nat) : s.advance.kindAt k = s.kindAt (k + 1) := by
        rw [State.kindAt, State.kindAt, first.rest]
        rfl
      obtain ⟨ks, t, skipped, later, there⟩ := ih (s := s.advance) fun k hk => by
        rw [next]
        exact inner (k + 1) (Nat.succ_lt_succ hk)
      refine ⟨_, t, skipped, first.trans later, ?_⟩
      rw [there, first.position, List.length_singleton, Nat.add_assoc, Nat.add_comm 1]

-- ============================================================= rounds

/-- A round that has another behind it passes a token. -/
def Gaining (kinds : List Kind) (round : Parser (Option α)) : Prop :=
  ∀ ⦃s a s'⦄, s.StandsIn kinds → round s = .ok (some a) s' →
    s'.StandsIn kinds ∧ s.position < s'.position

theorem gaining_of_tandem {γ : Type} {see : Option α → γ} {round : Parser (Option α)}
    (h : (solo kinds).From 0 drawn see round round) : Gaining kinds round := by
  intro s a s' hs found
  obtain ⟨stands, moved⟩ := (h s hs (Nat.zero_le _)).gains found
  exact ⟨stands, moved⟩

/-- A round that lists an item does so behind a comma. -/
theorem gaining_afterComma {body : Parser α} (onward : Onward body) :
    Gaining kinds (afterComma body) := by
  intro s a s' hs h
  obtain ⟨found, t, hcomma, hitem⟩ := bind_ok.1 h
  obtain ⟨stands, moved⟩ :=
    ((tandem_consume hs .comma : (solo kinds).At s taken id _ _).gains hcomma)
  cases found with
  | false => cases hitem
  | true =>
      obtain ⟨item, u, hbody, hpure⟩ := bind_ok.1 hitem
      obtain ⟨-, rfl⟩ := pure_ok.1 hpure
      have ended := onward.stays stands
      rw [hbody] at ended
      exact ⟨ended.1, Nat.lt_of_lt_of_le moved ended.2⟩

/-- With a round for every token left a loop does not come to the end of its
rounds. -/
theorem collect_gaining {round : Parser (Option α)} (gaining : Gaining kinds round)
    (spent spent' : Parser (List α)) {n m : Nat} (hs : s.StandsIn kinds)
    (left : kinds.length ≤ n + s.position) (right : kinds.length ≤ m + s.position) :
    collect spent round n s = collect spent' round m s := by
  have within := hs.position_lt
  induction n generalizing m s with
  | zero => omega
  | succ n ih =>
      cases m with
      | zero => omega
      | succ m =>
          rw [collect, collect, bind_apply, bind_apply]
          cases h : round s with
          | error fault t => rfl
          | ok found t =>
              cases found with
              | none => rfl
              | some a =>
                  obtain ⟨stands, moved⟩ := gaining hs h
                  have later := ih stands (m := m) (by omega) (by omega) stands.position_lt
                  show (collect spent round n >>= _) t = (collect spent' round m >>= _) t
                  rw [bind_apply, bind_apply, later]

/-- Nor does one that hands a value on. -/
theorem iterate_gaining {round : α → Parser (Option α)} (gaining : ∀ a, Gaining kinds (round a))
    (spent spent' : α → Parser α) {n m : Nat} (hs : s.StandsIn kinds)
    (left : kinds.length ≤ n + s.position) (right : kinds.length ≤ m + s.position) (a : α) :
    iterate spent round n a s = iterate spent' round m a s := by
  have within := hs.position_lt
  induction n generalizing m s a with
  | zero => omega
  | succ n ih =>
      cases m with
      | zero => omega
      | succ m =>
          rw [iterate, iterate, bind_apply, bind_apply]
          cases h : round a s with
          | error fault t => rfl
          | ok found t =>
              cases found with
              | none => rfl
              | some b =>
                  obtain ⟨stands, moved⟩ := gaining a hs h
                  exact ih stands (m := m) (by omega) (by omega) b stands.position_lt

-- ======================================================== expressions

/-- Bounds that suffice for the tokens left do not show. -/
theorem expressionOver_eq {spent spent' : Nat → Parser Expr} {stuck stuck' : Expr → Parser Expr}
    {n m : Nat} (hs : s.StandsIn kinds) (left : kinds.length ≤ n + s.position)
    (right : kinds.length ≤ m + s.position) (floor : Nat) :
    expressionOver spent stuck n floor s = expressionOver spent' stuck' m floor s :=
  (tandem_expressionOver (solo_types kinds) (Or.inr ⟨left, right⟩) floor s hs
    (Nat.le_refl _)).same hs Expr.mapNames_id_injective

/-- An expression has a round for every token left. -/
theorem expression_eq_over (hs : s.StandsIn kinds) {n : Nat}
    (enough : kinds.length ≤ n + s.position) (spent : Nat → Parser Expr)
    (stuck : Expr → Parser Expr) (floor : Nat) :
    expression floor s = expressionOver spent stuck n floor s := by
  have length := hs.length_rest
  show expressionWithin s.rest.length floor s = _
  rw [expressionWithin_eq_over]
  exact expressionOver_eq hs (by omega) enough floor

/-- An expression is read from expressions behind the current token alone, in
rounds of which the tokens left are enough. -/
theorem expression_unfold {expr : Nat → Parser Expr} (hs : s.StandsIn kinds)
    (later : ∀ floor t, t.StandsIn kinds → s.position < t.position →
      expr floor t = expression floor t)
    {count : Nat} (enough : s.rest.length ≤ count + 1) (stuck : Expr → Parser Expr) (floor : Nat) :
    expression floor s = (prefixed expr >>= iterate stuck (extend? expr floor) count) s := by
  have length := hs.length_rest
  have rounds : kinds.length ≤ count + (s.position + 1) := by omega
  -- the left side is an expression with one round more than the right side
  have nested (floor : Nat) : (solo kinds).From (s.position + 1) none? (Expr.mapNames id)
      (expressionOver expression pure count floor) (expr floor) := by
    intro t ht behind
    have inside : (solo kinds).From (s.position + 1) one (Expr.mapNames id)
        (expressionOver expression pure count floor) (expressionOver expression pure count floor) :=
      tandem_expressionOver (solo_types kinds) (Or.inr ⟨rounds, rounds⟩) floor
    refine (inside.eased t ht behind).congr rfl fun abreast => ?_
    obtain ⟨rfl, -⟩ := abreast
    have reached : s.position < t.position := behind
    rw [later floor t ht reached]
    exact expression_eq_over ht (by omega) expression pure floor
  have round : (solo kinds).At s one (Expr.mapNames id)
      (expressionOver expression pure (count + 1) floor)
      (prefixed expr >>= iterate stuck (extend? expr floor) count) := by
    refine (tandem_prefixed nested (solo_types kinds) hs (Nat.le_refl _)).lead
      fun a b t operands ht moved => ?_
    have further (floor : Nat) := (nested floor).mono (Nat.le_succ (s.position + 1))
    exact tandem_iterate_extend? further (solo_types kinds) operands (Or.inr ⟨rounds, rounds⟩)
      floor t ht moved
  rw [expression_eq_over hs (by omega : kinds.length ≤ count + 1 + s.position) expression pure]
  exact round.same hs Expr.mapNames_id_injective

-- ========================================================= statements

/-- A statement has a round for every token left. -/
theorem statement_eq_over (hs : s.StandsIn kinds) {n : Nat}
    (enough : kinds.length ≤ n + s.position) (spent : Parser Select) :
    statement s = selectOver spent n s := by
  have length := hs.length_rest
  show selectWithin s.rest.length s = _
  rw [selectWithin_eq_over]
  have left : kinds.length ≤ s.rest.length + s.position := by omega
  exact (tandem_selectOver (solo_types kinds) (solo_groups kinds) (Or.inr ⟨left, enough⟩) s hs
    (Nat.le_refl _)).same hs Select.mapNames_id_injective

/-- A statement is read from statements behind the current token alone. -/
theorem statement_unfold {select : Parser Select} (hs : s.StandsIn kinds)
    (later : ∀ t, t.StandsIn kinds → s.position < t.position → select t = statement t) :
    statement s = selectOf select s := by
  have rounds : kinds.length ≤ kinds.length + (s.position + 1) := Nat.le_add_right _ _
  have nested : (solo kinds).From (s.position + 1) none? (Select.mapNames id)
      (selectOver statement kinds.length) select := by
    intro t ht behind
    have inside : (solo kinds).From (s.position + 1) one (Select.mapNames id)
        (selectOver statement kinds.length) (selectOver statement kinds.length) :=
      tandem_selectOver (solo_types kinds) (solo_groups kinds) (Or.inr ⟨rounds, rounds⟩)
    refine (inside.eased t ht behind).congr rfl fun abreast => ?_
    obtain ⟨rfl, -⟩ := abreast
    rw [later t ht behind]
    exact statement_eq_over ht (Nat.le_add_right _ _) statement
  rw [statement_eq_over hs (by omega : kinds.length ≤ kinds.length + 1 + s.position) statement]
  exact (tandem_selectOf (solo_types kinds) (solo_groups kinds) nested s hs
    (Nat.le_refl _)).same hs Select.mapNames_id_injective

end SqlSelect.Grammar
