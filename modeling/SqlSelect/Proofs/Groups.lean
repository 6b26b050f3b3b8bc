/-
The `GROUP BY` list against the plain list of expressions.

An opening parenthesis in front of a list may wrap the whole of it. The
attempt to read it so changes the outcome in one case only: where the
parentheses hold two expressions or more and end the clause. A single
expression in parentheses is one that the plain list reads as well, and
with anything else the plain list starts over at the same place. That a
list and the same list in parentheses come to the same compares two runs
over the list, one up to the end of the clause and one up to the
parenthesis, which is what `Twin` is for.

# One expression in parentheses

A list of one expression in parentheses is an expression in parentheses, and
the plain list reads it as one (`expressionList_of_single`). The other way
round, what the plain list reads as more than one expression closes the first
one before the parenthesis does (`expressionList_of_pair`).

# Where the two differ

`Wrapped` says that the parentheses hold the whole list. Where they do the
attempt succeeds, and where they do not it is taken back and the plain list
decides (`groups_of_wrapped`, `groups_of_unwrapped`). That an attempt leaves
nothing behind, not even its mark, is read off its course.
-/
import SqlSelect.Proofs.Course.Groups
import SqlSelect.Proofs.Twin.Expr

namespace SqlSelect.Grammar

variable {α : Type}

-- ===================================================== expressions read

/-- From `s` to `t` stand expressions with commas between them. -/
inductive Listed : State → List Expr → State → Prop
  | last {s t : State} {e : Expr} (head : expression 0 s = .ok e t) : Listed s [e] t
  | more {s t u : State} {e : Expr} {es : List Expr} (head : expression 0 s = .ok e t)
    (comma : t.kindAt 0 = .symbol .comma) (later : Listed t.advance es u) : Listed s (e :: es) u

/-- From `s` to `s'` stands a list in parentheses that end the clause. -/
def Wrapped (s : State) (es : List Expr) (s' : State) : Prop :=
  ∃ t, s.kindAt 0 = .symbol .leftParen ∧ Listed s.advance es t
    ∧ t.kindAt 0 = .symbol .rightParen ∧ s' = t.advance
    ∧ endsClause afterGroups (s'.kindAt 0) = true

theorem forward_expression (floor : Nat) : Forward (expression floor) :=
  (course_expression floor : Course false 0 _).forward

/-- An expression behind a comma leaves fewer tokens than the comma had. -/
theorem length_lt_of_comma {s t : State} {e : Expr} (comma : s.kindAt 0 = .symbol .comma)
    (head : expression 0 s.advance = .ok e t) : t.rest.length < s.rest.length := by
  have first := moves_advance comma nofun
  obtain ⟨ks, m⟩ := forward_expression 0 head
  rw [first.rest, m.rest, List.length_append, List.length_append]
  show _ < 1 + _
  omega

/-- With a round for every token, further items are read up to where no
comma stands. -/
theorem moreItems_ok {count : Nat} {s t : State} {es : List Expr}
    (enough : s.rest.length ≤ count) :
    moreItems (expression 0) count s = .ok es t ↔
      (es = [] ∧ t = s ∧ s.kindAt 0 ≠ .symbol .comma)
        ∨ s.kindAt 0 = .symbol .comma ∧ Listed s.advance es t ∧ t.kindAt 0 ≠ .symbol .comma := by
  by_cases comma : s.kindAt 0 = .symbol .comma
  · induction count generalizing s es with
    | zero =>
        obtain ⟨later, hrest⟩ := State.rest_of_kindAt comma nofun
        rw [hrest] at enough
        cases enough
    | succ count ih =>
        -- what the rounds behind the first item come to
        have tail {u : State} {e : Expr} (head : expression 0 s.advance = .ok e u)
            (es : List Expr) : moreItems (expression 0) count u = .ok es t
              ↔ (es = [] ∧ t = u ∧ u.kindAt 0 ≠ .symbol .comma)
                ∨ u.kindAt 0 = .symbol .comma ∧ Listed u.advance es t
                  ∧ t.kindAt 0 ≠ .symbol .comma := by
          have fewer := length_lt_of_comma comma head
          by_cases again : u.kindAt 0 = .symbol .comma
          · exact ih (by omega) again
          · rw [moreItems_stop again]
            simp [again, eq_comm]
        rw [moreItems, consume_bind, if_pos comma]
        constructor
        · intro h
          obtain ⟨e, u, head, h⟩ := bind_ok.1 h
          obtain ⟨es', v, hes, h⟩ := bind_ok.1 h
          obtain ⟨rfl, rfl⟩ := pure_ok.1 h
          rcases (tail head es').1 hes with ⟨rfl, rfl, stop⟩ | ⟨again, later, stop⟩
          · exact Or.inr ⟨comma, .last head, stop⟩
          · exact Or.inr ⟨comma, .more head again later, stop⟩
        · rintro (⟨-, -, other⟩ | ⟨-, listed, stop⟩)
          · exact absurd comma other
          · cases listed with
            | last head =>
                exact bind_ok.2 ⟨_, _, head, bind_ok.2
                  ⟨_, _, (tail head []).2 (Or.inl ⟨rfl, rfl, stop⟩), rfl⟩⟩
            | more head again later =>
                exact bind_ok.2 ⟨_, _, head, bind_ok.2
                  ⟨_, _, (tail head _).2 (Or.inr ⟨again, later, stop⟩), rfl⟩⟩
  · rw [moreItems_stop comma]
    simp [comma, eq_comm]

/-- The plain list is the longest one. -/
theorem expressionList_ok {s t : State} {es : List Expr} :
    expressionList expression s = .ok es t ↔ Listed s es t ∧ t.kindAt 0 ≠ .symbol .comma := by
  unfold expressionList commaSeparated
  constructor
  · intro h
    obtain ⟨e, u, head, h⟩ := bind_ok.1 h
    rw [tokensLeft_bind] at h
    obtain ⟨es', v, hes, h⟩ := bind_ok.1 h
    obtain ⟨rfl, rfl⟩ := pure_ok.1 h
    rcases (moreItems_ok (Nat.le_refl _)).1 hes with ⟨rfl, rfl, stop⟩ | ⟨comma, later, stop⟩
    · exact ⟨.last head, stop⟩
    · exact ⟨.more head comma later, stop⟩
  · rintro ⟨listed, stop⟩
    cases listed with
    | last head =>
        refine bind_ok.2 ⟨_, _, head, ?_⟩
        rw [tokensLeft_bind]
        exact bind_ok.2 ⟨_, _, (moreItems_ok (Nat.le_refl _)).2 (Or.inl ⟨rfl, rfl, stop⟩), rfl⟩
    | more head comma later =>
        refine bind_ok.2 ⟨_, _, head, ?_⟩
        rw [tokensLeft_bind]
        exact bind_ok.2
          ⟨_, _, (moreItems_ok (Nat.le_refl _)).2 (Or.inr ⟨comma, later, stop⟩), rfl⟩

-- ====================================== one expression in parentheses

theorem prefixed_leftParen {expr : Nat → Parser Expr} {s : State}
    (opened : s.kindAt 0 = .symbol .leftParen) : prefixed expr s = parenthesized expr s := by
  rw [prefixed, current_bind, opened]
  show operand expr s = _
  rw [operand, current_bind, opened]

/-- Behind an opening parenthesis, nested expressions have as many rounds as
expressions of their own. -/
theorem expression_leftParen {s : State} (opened : s.kindAt 0 = .symbol .leftParen) :
    ∃ bound, expression 0 s.advance = expressionWithin bound 0 s.advance
      ∧ expression 0 s = (parenthesized (expressionWithin bound) >>=
        extendAll (expressionWithin bound) 0 bound) s := by
  obtain ⟨later, hrest⟩ := State.rest_of_kindAt opened nofun
  have m := moves_advance opened nofun
  have hlater : s.advance.rest = later := (List.cons.inj (hrest.symm.trans m.rest)).2.symm
  refine ⟨later.length, ?_, ?_⟩
  · rw [← hlater]
    rfl
  · rw [expression, tokensLeft_bind, hrest, List.length_cons, expressionWithin, bind_apply,
      bind_apply, prefixed_leftParen opened]

/-- Whether a wildcard stands here, the cursor stays if there is none. -/
theorem wildcard?_apply (s : State) :
    wildcard? s = match wildcardAt? (s.kindAt 0) (s.kindAt 1) (s.kindAt 2) with
      | some (wildcard, width) => (skip width >>= fun _ => pure (some wildcard)) s
      | none => .ok none s := by
  rw [wildcard?, peek_bind, peek_bind, peek_bind]
  cases wildcardAt? (s.kindAt 0) (s.kindAt 1) (s.kindAt 2) <;> rfl

theorem eq_of_no_wildcard {s t : State} (h : wildcard? s = .ok none t) : t = s := by
  rw [wildcard?_apply] at h
  split at h
  next =>
    obtain ⟨u, v, -, h⟩ := bind_ok.1 h
    cases h
  next =>
    cases h
    rfl

theorem parenthesized_ok {expr : Nat → Parser Expr} {s t : State} {e : Expr}
    (opened : s.kindAt 0 = .symbol .leftParen) (h : parenthesized expr s = .ok e t) :
    ∃ u, expr 0 s.advance = .ok e u ∧ u.kindAt 0 = .symbol .rightParen ∧ t = u.advance := by
  rw [parenthesized, expect_bind, if_pos opened, atKeyword_bind] at h
  split at h
  next => exact (reject_ok.1 h).elim
  next =>
    obtain ⟨found, v, hfound, h⟩ := bind_ok.1 h
    cases found with
    | some wildcard =>
        obtain ⟨closed, w, -, h⟩ := bind_ok.1 h
        cases closed with
        | true => exact (reject_ok.1 h).elim
        | false => exact (reject_ok.1 h).elim
    | none =>
        obtain rfl := eq_of_no_wildcard hfound
        obtain ⟨inner, u, hinner, h⟩ := bind_ok.1 h
        rw [expect_bind] at h
        split at h
        next closed =>
          obtain ⟨rfl, rfl⟩ := pure_ok.1 h
          exact ⟨u, hinner, closed, rfl⟩
        next => exact (unexpected_ok.1 h).elim

/-- Behind the expression in them the parentheses have to close. -/
theorem parenthesized_apply {bound : Nat} {s t : State} {e : Expr}
    (opened : s.kindAt 0 = .symbol .leftParen)
    (inner : expressionWithin bound 0 s.advance = .ok e t) :
    parenthesized (expressionWithin bound) s = (expect .rightParen >>= fun _ => pure e) t := by
  have opens := opens_of_expressionWithin inner
  have noSelect : (s.advance.kindAt 0).keyword? ≠ some .SELECT := by
    intro found
    cases opens.keyword .SELECT found
  have noWildcard : wildcard? s.advance = .ok none s.advance := by
    have none : wildcardAt? (s.advance.kindAt 0) (s.advance.kindAt 1) (s.advance.kindAt 2) = none :=
      opens.noWildcard
    rw [wildcard?_apply, none]
  rw [parenthesized, expect_bind, if_pos opened, atKeyword_bind,
    beq_false_of_ne noSelect]
  show (wildcard? >>= _) s.advance = _
  rw [bind_apply, noWildcard]
  show (expressionWithin bound 0 >>= _) s.advance = _
  rw [bind_apply, inner]

theorem parenthesized_of_inner {bound : Nat} {s t : State} {e : Expr}
    (opened : s.kindAt 0 = .symbol .leftParen)
    (inner : expressionWithin bound 0 s.advance = .ok e t)
    (closed : t.kindAt 0 = .symbol .rightParen) :
    parenthesized (expressionWithin bound) s = .ok e t.advance := by
  rw [parenthesized_apply opened inner, expect_bind, if_pos closed]
  rfl

/-- A plain list that starts with a parenthesis starts with one expression
in parentheses. -/
theorem closed_of_expressionList {s t : State} {es : List Expr}
    (opened : s.kindAt 0 = .symbol .leftParen) (h : expressionList expression s = .ok es t) :
    ∃ e u, expression 0 s.advance = .ok e u ∧ u.kindAt 0 = .symbol .rightParen := by
  obtain ⟨e, u, head, -⟩ := bind_ok.1 h
  obtain ⟨bound, nested, whole⟩ := expression_leftParen opened
  rw [whole] at head
  obtain ⟨first, v, hfirst, -⟩ := bind_ok.1 head
  obtain ⟨w, hw, closed, -⟩ := parenthesized_ok opened hfirst
  exact ⟨first, w, nested ▸ hw, closed⟩

/-- A list of one expression in parentheses that end the clause is read the
same without the attempt. -/
theorem expressionList_of_single {s t : State} {e : Expr}
    (opened : s.kindAt 0 = .symbol .leftParen) (inner : expression 0 s.advance = .ok e t)
    (closes : closesGroups t = true) : expressionList expression s = .ok [e] t.advance := by
  obtain ⟨closed, ends⟩ := Bool.and_eq_true_iff.1 closes
  obtain ⟨bound, nested, whole⟩ := expression_leftParen opened
  have stop : Stops (t.advance.kindAt 0) := ends
  have head : expression 0 s = .ok e t.advance := by
    rw [whole]
    refine bind_ok.2 ⟨e, t.advance, ?_, extendAll_stop stop.halts 0 bound e⟩
    exact parenthesized_of_inner opened (nested ▸ inner) (eq_of_beq closed)
  exact expressionList_ok.2 ⟨.last head, stop.ne_comma⟩

/-- Two expressions in parentheses are no plain list: it stops at the first
comma. -/
theorem expressionList_of_pair {s t : State} {e : Expr} (opened : s.kindAt 0 = .symbol .leftParen)
    (inner : expression 0 s.advance = .ok e t) (comma : t.kindAt 0 = .symbol .comma) :
    ∃ t', expressionList expression s
      = .error ⟨.unexpected "`)`" (.symbol .comma), ⟨t.position, t.position⟩⟩ t' := by
  obtain ⟨bound, nested, whole⟩ := expression_leftParen opened
  have open_ : t.kindAt 0 ≠ .symbol .rightParen := by
    rw [comma]
    exact nofun
  have head : expression 0 s
      = .error ⟨.unexpected "`)`" (.symbol .comma), ⟨t.position, t.position⟩⟩ t := by
    rw [whole, bind_apply, parenthesized_apply opened (nested ▸ inner), expect_bind, if_neg open_,
      unexpected_apply, comma]
    rfl
  refine ⟨t, ?_⟩
  rw [expressionList, commaSeparated, bind_apply, head]

-- ================================================ the two lists compared

/-- Both come to the same value or fault at the same place, and both are an
attempt or neither. -/
def SameOutcome : EStateM.Result Fault State α → EStateM.Result Fault State α → Prop
  | .ok a s, .ok b t => a = b ∧ s.position = t.position ∧ s.rest = t.rest ∧ s.trial = t.trial
  | .error e s, .error f t => e = f ∧ s.position = t.position ∧ s.rest = t.rest ∧ s.trial = t.trial
  | _, _ => False

/-- What has been reported before makes no difference. -/
theorem Quiet.sameOutcome {p : Parser α} (quiet : Quiet 0 p) (s : State)
    (events : List (Event Stretch)) : SameOutcome (p { s with events }) (p s) := by
  rw [quiet s (Nat.zero_le _), quiet { s with events } (Nat.zero_le _)]
  rw [show ({ s with events } : State).hushed = s.hushed from rfl]
  cases p s.hushed <;> exact ⟨rfl, rfl, rfl, rfl⟩

theorem Quiet.trial_final {p : Parser α} (quiet : Quiet 0 p) (s : State) :
    (final (p s)).trial = s.trial := by
  rw [quiet s (Nat.zero_le _)]
  cases p s.hushed <;> rfl

theorem Listed.ne_nil {s t : State} {es : List Expr} (h : Listed s es t) : es ≠ [] := by
  cases h <;> exact List.cons_ne_nil _ _

/-- A list in parentheses that end the clause is what the attempt looks
for. -/
theorem wrapped_iff {s s' : State} {es : List Expr} :
    Wrapped s es s' ↔ s.kindAt 0 = .symbol .leftParen ∧ ∃ t,
      expressionList expression s.advance = .ok es t ∧ closesGroups t = true ∧ s' = t.advance := by
  constructor
  · rintro ⟨t, opened, listed, closed, rfl, ends⟩
    have stop : t.kindAt 0 ≠ .symbol .comma := by
      rw [closed]
      exact nofun
    refine ⟨opened, t, expressionList_ok.2 ⟨listed, stop⟩, ?_, rfl⟩
    exact Bool.and_eq_true_iff.2 ⟨beq_iff_eq.2 closed, ends⟩
  · rintro ⟨opened, t, h, closes, rfl⟩
    obtain ⟨closed, ends⟩ := Bool.and_eq_true_iff.1 closes
    exact ⟨t, opened, (expressionList_ok.1 h).1, eq_of_beq closed, rfl, ends⟩

/-- What a list in parentheses comes to. -/
theorem groups_of_wrapped {s s' : State} {es : List Expr} (h : Wrapped s es s') :
    groups s = .ok es s' := by
  obtain ⟨opened, t, hlist, closes, rfl⟩ := wrapped_iff.1 h
  rcases groups_cases s with ⟨es', t', -, hlist', -, hs⟩ | ⟨-, none, -⟩ | ⟨other, -⟩
  · rw [hlist] at hlist'
    cases hlist'
    exact hs
  · rw [none es t hlist] at closes
    cases closes
  · exact absurd opened other

/-- An attempt that is abandoned leaves its one report. -/
theorem groups_of_unwrapped {s : State} (opened : s.kindAt 0 = .symbol .leftParen)
    (h : ∀ es s', ¬Wrapped s es s') :
    groups s = expressionList expression (s.report (.reparsed s.position)) := by
  rcases groups_cases s with ⟨es, t, -, hlist, closes, -⟩ | ⟨-, -, hs⟩ | ⟨other, -⟩
  · exact absurd (wrapped_iff.2 ⟨opened, t, hlist, closes, rfl⟩) (h _ _)
  · exact hs
  · exact absurd opened other

/-- With no two expressions in parentheses the list is the plain list. -/
theorem groups_plain {s : State} (h : ∀ es s', Wrapped s es s' → es.length < 2) :
    ∃ noted, (noted = [] ∨ noted = [.reparsed s.position])
      ∧ groups s = expressionList expression { s with events := s.events ++ noted } := by
  rcases groups_cases s with ⟨es, t, opened, hlist, closes, hs⟩ | ⟨-, -, hs⟩ | ⟨-, hs⟩
  · have short := h es _ (wrapped_iff.2 ⟨opened, t, hlist, closes, rfl⟩)
    refine ⟨[], Or.inl rfl, ?_⟩
    rw [List.append_nil, hs]
    obtain ⟨listed, -⟩ := expressionList_ok.1 hlist
    cases listed with
    | last inner => exact (expressionList_of_single opened inner closes).symm
    | more _ _ later =>
        have := List.length_pos_iff.2 later.ne_nil
        rw [List.length_cons] at short
        omega
  · exact ⟨_, Or.inr rfl, hs⟩
  · exact ⟨[], Or.inl rfl, by rw [List.append_nil]; exact hs⟩

/-- Where the plain list succeeds, so does the list, at the same tokens. -/
theorem groups_of_expressionList {s t : State} {es : List Expr}
    (h : expressionList expression s = .ok es t) :
    ∃ t', groups s = .ok es t' ∧ t'.rest = t.rest := by
  have single : ∀ fs s', Wrapped s fs s' → fs.length < 2 := by
    intro fs s' wrapped
    obtain ⟨u, opened, listed, -, -, -⟩ := wrapped
    obtain ⟨e, v, inner, closed⟩ := closed_of_expressionList opened h
    cases listed with
    | last head => exact Nat.lt_succ_self 1
    | more head comma later =>
        rw [inner] at head
        cases head
        rw [comma] at closed
        cases closed
  obtain ⟨noted, -, hs⟩ := groups_plain single
  have same := quiet_expressionList.sameOutcome s (s.events ++ noted)
  rw [← hs, h] at same
  cases hgroups : groups s with
  | error fault t' =>
      rw [hgroups] at same
      exact same.elim
  | ok es' t' =>
      rw [hgroups] at same
      obtain ⟨rfl, -, rest, -⟩ := same
      exact ⟨t', rfl, rest⟩

theorem twin_expressions {k : Fork} {n : Nat} (closed : k.Closed) :
    Twin k n [] (fun _ => 1) (expressionList expression) (expressionList expression) :=
  twin_expressionList (fun _ => course_expression) (fun _ => twin_expression) closed

/-- Parentheses around a list are passed with it. -/
theorem groups_of_closed {t u : State} {es : List Expr} {inside rest : List Kind}
    (ht : t.rest = .symbol .leftParen :: inside)
    (hlist : expressionList expression t.advance = .ok es u)
    (hu : u.rest = .symbol .rightParen :: rest) (ends : endsClause afterGroups (next rest) = true) :
    ∃ t', groups t = .ok es t' ∧ t'.rest = rest := by
  have after := State.rest_advance hu nofun
  have closes : closesGroups u = true := by
    refine Bool.and_eq_true_iff.2 ⟨beq_iff_eq.2 (State.kindAt_of_rest hu), ?_⟩
    rw [State.kindAt, after]
    exact ends
  have wrapped := wrapped_iff.2 ⟨State.kindAt_of_rest ht, u, hlist, closes, rfl⟩
  exact ⟨_, groups_of_wrapped wrapped, after⟩

/-- A list up to the end of the clause is read the same in parentheses. -/
theorem groups_inParens {s s' t : State} {es : List Expr} {list rest : List Kind}
    (hs : s.rest = list ++ rest)
    (ht : t.rest = .symbol .leftParen :: (list ++ .symbol .rightParen :: rest))
    (ends : endsClause afterGroups (next rest) = true)
    (h : expressionList expression s = .ok es s') (hs' : s'.rest = rest) :
    ∃ t', groups t = .ok es t' ∧ t'.rest = rest := by
  have inside := State.rest_advance ht nofun
  let k : Fork := ⟨rest, .symbol .rightParen :: rest, ends, Or.inr rfl⟩
  have twin : Twin k list.length [] (fun _ => 1) _ _ := twin_expressions rfl
  obtain ⟨-, u, hu, behind⟩ :=
    @twin.follow _ [] _ _ _ _ (Nat.le_refl _) List.nil_prefix hs inside h hs'
  exact groups_of_closed ht hu behind ends

/-- Whichever way the list is read, an attempt around it stays one. -/
theorem trial_groups (s : State) : (final (groups s)).trial = s.trial := by
  rcases groups_cases s with ⟨es, t, -, hlist, -, hs⟩ | ⟨-, -, hs⟩ | ⟨-, hs⟩
  · rw [hs]
    show t.advance.trial = _
    rw [t.advance_reports.1, (quiet_expressionList.ok_reports hlist).1, s.advance_reports.1]
  · rw [hs]
    exact quiet_expressionList.trial_final (s.report _)
  · rw [hs]
    exact quiet_expressionList.trial_final s

/-- The list of groups refines the plain list, in every state. Two or more
expressions in parentheses that end the clause are that list. Otherwise the
outcome is the one of the plain list, up to one report of an attempt that
was taken back. A list up to the end of a clause is therefore the same with
and without parentheses. -/
theorem groups_refine_expressionList (s : State) :
    (∀ es s', Wrapped s es s' → 2 ≤ es.length → groups s = .ok es s')
      ∧ ((∀ es s', Wrapped s es s' → es.length < 2) →
        SameOutcome (groups s) (expressionList expression s)
        ∧ ∃ noted, (noted = [] ∨ noted = [.reparsed s.position])
          ∧ groups s = expressionList expression { s with events := s.events ++ noted })
      ∧ (s.kindAt 0 = .symbol .leftParen → (∀ es s', ¬Wrapped s es s') →
        groups s = expressionList expression (s.report (.reparsed s.position)))
      ∧ (final (groups s)).trial = s.trial
      ∧ ∀ list rest es s', s.rest = list ++ rest → endsClause afterGroups (next rest) = true →
        expressionList expression s = .ok es s' → s'.rest = rest →
        (∃ s'', groups s = .ok es s'' ∧ s''.rest = rest)
        ∧ ∀ t : State, t.rest = .symbol .leftParen :: (list ++ .symbol .rightParen :: rest) →
          ∃ t', groups t = .ok es t' ∧ t'.rest = rest := by
  refine ⟨fun es s' wrapped _ => groups_of_wrapped wrapped, fun single => ?_,
    groups_of_unwrapped, trial_groups s, fun list rest es s' hs ends h hs' => ⟨?_, fun t ht => ?_⟩⟩
  · obtain ⟨noted, given, hgroups⟩ := groups_plain single
    refine ⟨?_, noted, given, hgroups⟩
    rw [hgroups]
    exact quiet_expressionList.sameOutcome s _
  · obtain ⟨s'', hgroups, same⟩ := groups_of_expressionList h
    exact ⟨s'', hgroups, same.trans hs'⟩
  · exact groups_inParens hs ht ends h hs'

/-- Two names in parentheses at the end of the input. -/
theorem groups_refine_pair :
    Wrapped ⟨3, [.symbol .leftParen, .quoted "a", .symbol .comma, .quoted "b", .symbol .rightParen,
        .eof], false, []⟩ [.ref none "a", .ref none "b"] ⟨8, [.eof], false, []⟩
      ∧ groups ⟨3, [.symbol .leftParen, .quoted "a", .symbol .comma, .quoted "b",
        .symbol .rightParen, .eof], false, []⟩
        = .ok [.ref none "a", .ref none "b"] ⟨8, [.eof], false, []⟩ := by
  have wrapped : Wrapped ⟨3, [.symbol .leftParen, .quoted "a", .symbol .comma, .quoted "b",
      .symbol .rightParen, .eof], false, []⟩ [.ref none "a", .ref none "b"]
      ⟨8, [.eof], false, []⟩ :=
    ⟨⟨7, [.symbol .rightParen, .eof], false, []⟩, rfl, .more rfl rfl (.last rfl), rfl, rfl, rfl⟩
  exact ⟨wrapped, (groups_refine_expressionList _).1 _ _ wrapped (by decide)⟩

end SqlSelect.Grammar
