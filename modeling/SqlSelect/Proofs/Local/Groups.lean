/-
Statements see two tokens ahead at most, with one exception.

Every production is local as far as it reads straight on, which is what the
shared comparison says of two inputs that start alike. The `GROUP BY` list is
not: whether an opening parenthesis wraps the whole list shows only at the
other end, and until then a comma in it is no fault. Where the list turns out
not to be wrapped, it is read as a plain list, and that stops at the comma.

# The list against the plain list

So the list is compared by way of the plain list, which is local like any list
of expressions. Where the left run reads the plain list, the right run reads
the plain list too, or it has one in parentheses. If the plain list succeeds,
both amount to the same (`groups_abreast`). If it fails although the list in
parentheses succeeds on the right, its fault is that a closing parenthesis is
expected at the first comma (`groups_follow`). `Regrouped` says of a fault that
it is such a comma; of all other faults statements are local.

Where the left run finds a list in parentheses, it has passed the closing one
and seen the token behind it, so that the right run finds it as well
(`local_groups_wrapped`).
-/
import SqlSelect.Proofs.Groups
import SqlSelect.Proofs.Local.Basic

namespace SqlSelect.Grammar

variable {k : Overlap} {s : State}

/-- The token is the first comma in the parentheses around a whole `GROUP BY`
list. -/
def FirstGroupComma (kinds : List Kind) (i : Nat) : Prop :=
  ∃ t es t' e u, t.StandsIn kinds ∧ FollowsGroupBy kinds t.position ∧ Wrapped t es t'
    ∧ expression 0 t.advance = .ok e u ∧ u.kindAt 0 = .symbol .comma ∧ u.position = i

/-- The fault is such a comma of the right input. -/
def Overlap.Regrouped (k : Overlap) (fault : Fault) : Prop :=
  ∃ i, FirstGroupComma k.right i ∧ fault = ⟨.unexpected "`)`" (.symbol .comma), ⟨i, i⟩⟩

-- ===================================================== the plain list

/-- Lists of expressions are local without exception. -/
theorem local_expressions (hs : s.StandsIn k.left) :
    (k.tandem fun _ => False).At s none? (List.map (Expr.mapNames id))
      (expressionList expression) (expressionList expression) :=
  tandem_expressions k.types s hs (Nat.le_refl _)

/-- The tokens ahead give the position away. -/
theorem State.StandsIn.position_eq {s t : State} {kinds : List Kind} (hs : s.StandsIn kinds)
    (ht : t.StandsIn kinds) (same : s.rest = t.rest) : s.position = t.position := by
  have lengths := congrArg List.length same
  rw [hs.length_rest, ht.length_rest] at lengths
  have := hs.position_lt
  have := ht.position_lt
  omega

/-- A plain list that succeeds is the list of groups, and at the same
token. -/
theorem groups_abreast {s' t t' : State} {es : List Expr} (ht : t.StandsIn k.right)
    (hlist : expressionList expression t = .ok es t') (abreast : k.Abreast s' t') :
    ∃ t'', groups t = .ok es t'' ∧ k.Abreast s' t'' := by
  obtain ⟨t'', hgroups, same⟩ := groups_of_expressionList hlist
  obtain ⟨ks, m⟩ := (steps_groups 0).moves (Nat.zero_le _) hgroups
  have stands := ht.moves m
  refine ⟨t'', hgroups, stands, ?_⟩
  rw [stands.position_eq abreast.stands same, abreast.position]

/-- Where the plain list fails, so does the list of groups, unless it is in
parentheses. -/
theorem groups_follow {s' t : State} {fault : Fault} (ht : t.StandsIn k.right)
    (behind : FollowsGroupBy k.right t.position)
    (hlist : ∀ u : State, u.rest = t.rest → u.position = t.position →
      ∃ u', expressionList expression u = .error fault u' ∧ k.Abreast s' u') :
    (∃ t', groups t = .error fault t' ∧ k.Abreast s' t') ∨ k.Regrouped fault := by
  rcases groups_cases t with ⟨es, u, opened, hes, closes, -⟩ | ⟨-, -, hgroups⟩ | ⟨-, hgroups⟩
  · obtain ⟨u', hfault, -⟩ := hlist t rfl rfl
    have wrapped := wrapped_iff.2 ⟨opened, u, hes, closes, rfl⟩
    obtain ⟨listed, -⟩ := expressionList_ok.1 hes
    cases listed with
    | last inner =>
        rw [expressionList_of_single opened inner closes] at hfault
        cases hfault
    | more head comma later =>
        obtain ⟨v, hpair⟩ := expressionList_of_pair opened head comma
        rw [hpair] at hfault
        cases hfault
        exact Or.inr ⟨_, ⟨t, _, _, _, _, ht, behind, wrapped, head, comma, rfl⟩, rfl⟩
  · rw [hgroups]
    exact Or.inl (hlist _ rfl rfl)
  · rw [hgroups]
    exact Or.inl (hlist t rfl rfl)

-- ========================================== the list in parentheses

/-- A list in parentheses is followed to the closing one and the token
behind it. -/
theorem local_groups_wrapped (hs : s.StandsIn k.left) {es : List Expr} {s' : State}
    (h : Wrapped s es s') :
    s'.StandsIn k.left ∧ s.position ≤ s'.position
      ∧ (s'.position + 3 ≤ k.shared → ∀ t, k.Abreast s t →
        ∃ fs t', groups t = .ok fs t' ∧ es.map (Expr.mapNames id) = fs.map (Expr.mapNames id)
          ∧ k.Abreast s' t') := by
  obtain ⟨opened, u, hlist, closes, rfl⟩ := wrapped_iff.1 h
  obtain ⟨closed, ends⟩ := Bool.and_eq_true_iff.1 closes
  have closed : u.kindAt 0 = .symbol .rightParen := eq_of_beq closed
  have inner := ne_eof_of_symbol opened
  have inner' := ne_eof_of_symbol closed
  have first := (moves_advance rfl inner).position
  have last := (moves_advance rfl inner').position
  obtain ⟨stands, moved, follows⟩ := (local_expressions (hs.advance inner)).ok hlist
  have moved : s.advance.position ≤ u.position := moved
  simp only [List.length_singleton] at first last
  refine ⟨stands.advance inner', by omega, fun within t abreast => ?_⟩
  have near : u.position + 3 ≤ k.shared := by omega
  obtain ⟨fs, v, hlist', seen, abreast'⟩ :=
    follows near _ (abreast.advance hs inner (by omega))
  have abreast' : k.Abreast u v := abreast'
  have after := abreast'.advance stands inner' (by omega)
  have closes' : closesGroups v = true := by
    refine Bool.and_eq_true_iff.2 ⟨beq_iff_eq.2 ?_, ?_⟩
    · rw [abreast'.kindAt stands (by omega)]
      exact closed
    · rw [after.kindAt (stands.advance inner') (by omega)]
      exact ends
  have opened' : t.kindAt 0 = .symbol .leftParen := by
    rw [abreast.kindAt hs (by omega)]
    exact opened
  have wrapped := wrapped_iff.2 ⟨opened', v, hlist', closes', rfl⟩
  exact ⟨fs, _, groups_of_wrapped wrapped, seen, after⟩

/-- The list of groups is local, the comma in parentheses apart. -/
theorem local_groups (hs : s.StandsIn k.left) (behind : FollowsGroupBy k.left s.position) :
    (k.tandem k.Regrouped).At s none? (List.map (Expr.mapNames id)) groups groups := by
  have plain {s₀ : State} (hs₀ : s₀.StandsIn k.left) (here : s₀.position = s.position)
      (same : groups s = expressionList expression s₀) :
      (k.tandem k.Regrouped).At s none? (List.map (Expr.mapNames id)) groups groups := by
    have before : s.position ≤ s₀.position := Nat.le_of_eq here.symm
    have level {t u : State} (abreast : k.Abreast s t) (rest : u.rest = t.rest)
        (position : u.position = t.position) : k.Abreast s₀ u := by
      refine ⟨⟨?_, rest ▸ abreast.stands.ends⟩, position.trans (abreast.position.trans here.symm)⟩
      rw [rest, position]
      exact abreast.stands.rest
    refine ⟨fun es s' h => ?_, fun fault s' h => ?_⟩
    · rw [same] at h
      obtain ⟨stands, moved, follows⟩ := (local_expressions hs₀).ok h
      refine ⟨stands, Nat.le_trans before moved, fun near t abreast => ?_⟩
      have abreast : k.Abreast s t := abreast
      obtain ⟨fs, t', hlist, seen, abreast'⟩ := follows near t (level abreast rfl rfl)
      obtain ⟨t'', hgroups, abreast''⟩ := groups_abreast abreast.stands hlist abreast'
      exact ⟨fs, t'', hgroups, seen, abreast''⟩
    · rw [same] at h
      obtain ⟨stands, onward, blames, follows⟩ := (local_expressions hs₀).error h
      refine ⟨stands, Nat.le_trans before onward, blames.before before,
        fun within t abreast => ?_⟩
      have abreast : k.Abreast s t := abreast
      have within : fault.place.last + 3 ≤ k.shared := within
      have reached : s.position ≤ fault.place.last := by
        obtain ⟨reached, -, -⟩ := blames
        exact Nat.le_trans before reached
      obtain ⟨j, hj, group, by'⟩ := behind
      have behind' : FollowsGroupBy k.right t.position := by
        refine ⟨j, abreast.position.trans hj, ?_, ?_⟩
        · rw [← k.same j (by omega)]
          exact group
        · rw [← k.same (j + 1) (by omega)]
          exact by'
      obtain ⟨f, -, -, faults, -⟩ := (follows within t (level abreast rfl rfl)).resolve_right id
      obtain rfl := k.fault_eq within faults
      refine (groups_follow abreast.stands behind' fun u rest position => ?_).imp_left
        fun ⟨t', hgroups, abreast'⟩ => ⟨f, t', hgroups, faults.leaving, abreast'⟩
      obtain ⟨f', u', hlist, faults', abreast'⟩ :=
        (follows within u (level abreast rest position)).resolve_right id
      obtain rfl := k.fault_eq within faults'
      exact ⟨u', hlist, abreast'⟩
  rcases groups_cases s with
    ⟨es, u, opened, hlist, closes, hgroups⟩ | ⟨-, -, hgroups⟩ | ⟨-, hgroups⟩
  · have wrapped := local_groups_wrapped hs (wrapped_iff.2 ⟨opened, u, hlist, closes, rfl⟩)
    refine ⟨fun es' s' h => ?_, fun fault s' h => ?_⟩
    · rw [hgroups] at h
      cases h
      exact wrapped
    · rw [hgroups] at h
      cases h
  · exact @plain (s.report _) ⟨hs.rest, hs.ends⟩ rfl hgroups
  · exact plain hs rfl hgroups

/-- The list behind `BY`, with `GROUP` before it. -/
theorem local_afterBy_groups {j : Nat} (hs : s.StandsIn k.left) (here : s.position = j + 1)
    (group : (k.left.getD j .eof).keyword? = some .GROUP) :
    (k.tandem k.Regrouped).At s none? (List.map (Expr.mapNames id)) (afterBy groups)
      (afterBy groups) := by
  rw [afterBy, expectKeyword_eq, bind_assoc]
  refine .current hs fun kind kind' found alike => ?_
  rw [← alike.keyword?]
  split
  next by' =>
    simp only [bind_assoc, pure_bind]
    subst found
    refine .advance (m := none?) hs (ne_eof_of_keyword? by') (fun s₁ _ h₁ moved => ?_)
      fun _ => Nat.zero_le _
    have moved : s₁.position = s.position + 1 := moved
    refine local_groups h₁ ⟨j, by omega, group, ?_⟩
    rw [← here, ← Nat.add_zero s.position, ← hs.kindAt 0]
    exact by'
  next =>
    rw [unexpected_bind]
    exact .unexpected hs _

theorem local_groupClause : (k.tandem k.Regrouped).Groups := by
  intro s hs
  have hs : s.StandsIn k.left := hs
  rw [clause_eq]
  refine .current hs fun kind kind' found alike => ?_
  rw [← alike.keyword?]
  split
  next group =>
    subst found
    refine .advance (m := none?) hs (ne_eof_of_keyword? group) (fun s₁ _ h₁ moved => ?_)
      fun _ => Nat.zero_le _
    have group : (k.left.getD s.position .eof).keyword? = some .GROUP := by
      rwa [← Nat.add_zero s.position, ← hs.kindAt 0]
    exact (local_afterBy_groups h₁ moved group).map (fun _ _ same => congrArg some same)
      fun _ => Nat.le_refl 0
  next => exact .done hs none rfl

/-- A whole input: what is made of it shows from the tokens up to where it
stops and two more, the comma in parentheses apart. -/
theorem local_input (hs : s.StandsIn k.left) :
    (k.tandem k.Regrouped).At s none? (Select.mapNames id) input input :=
  tandem_input k.types local_groupClause hs

end SqlSelect.Grammar
