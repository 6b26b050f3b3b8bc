/-
The attempt that a `GROUP BY` list starts with, spelled out.

An opening parenthesis may wrap the whole list or start its first
expression. `groups_apply` says what becomes of it in terms of the plain
list alone: an expression reports nothing while it is only tried, so an
attempt that is taken back leaves no trace but its one report.
-/
import SqlSelect.Grammar.Clause
import SqlSelect.Proofs.Course.Expr

namespace SqlSelect.Grammar

variable {α : Type}

-- ========================================================== attempts

/-- An attempt is its body, except that a failure yields nothing and its
reports are dropped. -/
theorem attempt_apply {body : Parser α} (quiet : Quiet 0 body) (s : State) :
    attempt body s = match body s with
      | .ok a s' => .ok (some a) s'
      | .error _ s' => .ok none { s' with trial := s.trial, events := s.events } := by
  rw [attempt_eq, quiet { s with trial := true } (Nat.zero_le _), quiet s (Nat.zero_le _),
    show ({ s with trial := true } : State).hushed = s.hushed from rfl]
  cases body s.hushed with
  | ok a t => rfl
  | error fault t => simp [State.aloud]

theorem quiet_expressionList : Quiet 0 (expressionList expression) :=
  (course_expressionList fun _ => course_expression).quiet

-- ========================================== the list in parentheses

/-- The token is the first behind `GROUP BY`. -/
def FollowsGroupBy (kinds : List Kind) (i : Nat) : Prop :=
  ∃ j, i = j + 2 ∧ (kinds.getD j .eof).keyword? = some .GROUP
    ∧ (kinds.getD (j + 1) .eof).keyword? = some .BY

/-- Whether a list that is read up to `t` is in parentheses that end the
clause. -/
def closesGroups (t : State) : Bool :=
  t.kindAt 0 == .symbol .rightParen && endsClause afterGroups (t.advance.kindAt 0)

/-- The attempt yields the list if that is in parentheses which end the
clause. Otherwise it only moves the cursor. -/
theorem wrappedGroups_apply (s : State) :
    (∃ es t, expressionList expression s = .ok es t ∧ closesGroups t = true
        ∧ wrappedGroups s = .ok (some es) t.advance)
      ∨ (∃ u, wrappedGroups s = .ok none u ∧ u.trial = s.trial ∧ u.events = s.events)
        ∧ ∀ es t, expressionList expression s = .ok es t → closesGroups t = false := by
  unfold wrappedGroups
  rw [bind_apply, attempt_apply quiet_expressionList]
  cases hlist : expressionList expression s with
  | error fault t => exact Or.inr ⟨⟨_, rfl, rfl, rfl⟩, nofun⟩
  | ok es t =>
      have reports := quiet_expressionList.ok_reports hlist
      show _ ∨ (∃ u, (consume .rightParen >>= _) t = _ ∧ _) ∧ _
      simp only [bind_apply, consume_apply]
      by_cases closed : t.kindAt 0 = .symbol .rightParen
      · rw [if_pos closed]
        by_cases ends : endsClause afterGroups (t.advance.kindAt 0) = true
        · refine Or.inl ⟨es, t, rfl, ?_, ?_⟩
          · simp [closesGroups, closed, ends]
          · show (if endsClause afterGroups (t.advance.kindAt 0) = true
              then (pure (some es) : Parser _) else pure none) t.advance = _
            rw [if_pos ends]
            rfl
        · refine Or.inr ⟨⟨t.advance, ?_, ?_⟩, ?_⟩
          · show (if endsClause afterGroups (t.advance.kindAt 0) = true
              then (pure (some es) : Parser _) else pure none) t.advance = _
            rw [if_neg ends]
            rfl
          · rw [t.advance_reports.1, t.advance_reports.2]
            exact reports
          · rintro es' t' h
            cases h
            simp [closesGroups, ends]
      · rw [if_neg closed]
        refine Or.inr ⟨⟨t, rfl, reports⟩, ?_⟩
        rintro es' t' h
        cases h
        simp [closesGroups, closed]

-- ========================================================= the list

/-- The list is the one in parentheses, or else the plain list, with a
report if parentheses were tried first. -/
theorem groups_cases (s : State) :
    (∃ es t, s.kindAt 0 = .symbol .leftParen ∧ expressionList expression s.advance = .ok es t
        ∧ closesGroups t = true ∧ groups s = .ok es t.advance)
      ∨ (s.kindAt 0 = .symbol .leftParen
        ∧ (∀ es t, expressionList expression s.advance = .ok es t → closesGroups t = false)
        ∧ groups s = expressionList expression (s.report (.reparsed s.position)))
      ∨ s.kindAt 0 ≠ .symbol .leftParen ∧ groups s = expressionList expression s := by
  unfold groups
  rw [atSymbol_bind]
  by_cases opened : s.kindAt 0 = .symbol .leftParen
  · rw [if_pos (beq_iff_eq.2 opened), get_bind]
    have moved (f : Unit → Parser (List Expr)) : (advance >>= f) s = f () s.advance := rfl
    rw [moved, bind_apply]
    rcases wrappedGroups_apply s.advance with
      ⟨es, t, hlist, closes, h⟩ | ⟨⟨u, h, trial, events⟩, unwrapped⟩
    · rw [h]
      exact Or.inl ⟨es, t, opened, hlist, closes, rfl⟩
    · refine Or.inr (Or.inl ⟨opened, unwrapped, ?_⟩)
      rw [h]
      show expressionList expression { u with
        position := s.position
        rest := s.rest
        events := u.events ++ [.reparsed s.position] } = _
      rw [trial, events, s.advance_reports.1, s.advance_reports.2]
      rfl
  · rw [if_neg fun found => opened (eq_of_beq found)]
    exact Or.inr (Or.inr ⟨opened, rfl⟩)

theorem steps_expressionList (mark : Nat) : Steps mark (expressionList expression) := by
  have course : Course false mark (expressionList expression) :=
    course_expressionList fun _ => course_expression
  exact course.steps

/-- Whichever way the list is read, the cursor moves over it. -/
theorem steps_groups (mark : Nat) : Steps mark groups := by
  have list := steps_expressionList mark
  refine ⟨?_, ?_⟩
  · intro s reached
    rcases groups_cases s with ⟨es, t, opened, hlist, closes, hs⟩ | ⟨-, -, hs⟩ | ⟨-, hs⟩
    · rw [hs]
      have m := moves_advance opened nofun
      obtain ⟨ks, n⟩ := list.moves (Nat.le_trans reached m.le_position) hlist
      obtain ⟨ls, o⟩ := t.moves_advance
      exact ⟨_, m.trans (n.trans o)⟩
    · rw [hs]
      obtain ⟨ks, m⟩ := list.onward (s := s.report _) reached
      exact ⟨ks, m.rest, m.position, m.inner⟩
    · rw [hs]
      exact list.onward reached
  · intro s fault s' reached ends h
    rcases groups_cases s with ⟨es, t, -, -, -, hs⟩ | ⟨-, -, hs⟩ | ⟨-, hs⟩
    · rw [hs] at h
      cases h
    · rw [hs] at h
      exact list.inside (s := s.report _) reached ends h
    · rw [hs] at h
      exact list.inside reached ends h

end SqlSelect.Grammar
