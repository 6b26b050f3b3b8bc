/-
Clauses before two ends.

A fork is bare where no keyword stands at either end, so that nothing there
opens a further clause. Before such ends the parts of a statement other than
its `FROM` list read the same. What reads a list also needs the right end to
be over with lists (`Fork.Closed`).

# Groups

The list of groups enters through what is known of it: in parentheses it is
the list between them, and otherwise the plain list (`groups_cases`), and
either reads the same before both ends. Whether the parenthesis wraps the
whole list is told by the token behind it, which may stand at the boundary.
There it ends a list on both sides.

# Joins

The words before `JOIN` are seen all at once, without a look at each. They are
those of the tokens before the boundary, as no such word ends a list
(`joinWords_append`).
-/
import SqlSelect.Proofs.Course.Select
import SqlSelect.Proofs.Groups

namespace SqlSelect.Grammar

variable {k : Fork} {n : Nat}

/-- No keyword stands at either end. -/
def Fork.Bare (k : Fork) : Prop := ∀ keyword, k.Free keyword

/-- No keyword is read at the left end. -/
theorem Fork.Bare.left {k : Fork} (bare : k.Bare) : (next k.left).keyword? = none :=
  Option.eq_none_iff_forall_ne_some.2 fun keyword => (bare keyword).1

/-- No keyword is read at the right end. -/
theorem Fork.Bare.right {k : Fork} (bare : k.Bare) : (next k.right).keyword? = none :=
  Option.eq_none_iff_forall_ne_some.2 fun keyword => (bare keyword).2

/-- A closing parenthesis is no keyword. -/
theorem Fork.Inside.bare {k : Fork} (h : k.Inside) : k.Bare := by
  intro keyword
  rw [Fork.Free, h.left, h.right]
  exact ⟨nofun, nofun⟩

-- ====================================================== select list

/-- Neither word stands at an end. -/
theorem twin_distinct : Twin k n [] (fun _ => 0) distinct distinct := by
  refine (twin_consumeKeyword .DISTINCT (k.free (by decide))).then fun found => ?_
  cases found with
  | true => exact .done true
  | false => exact (twin_consumeKeyword .ALL (k.free (by decide))).then fun _ => .done false

/-- No name stands at an end, so an alias stands before it. -/
theorem twin_optionalAlias : Twin k n [] (fun _ => 0) optionalAlias optionalAlias := by
  have name {known : List Kind} : Twin k n known (fun _ => 0)
      (identifier >>= fun name => pure (some name)) (identifier >>= fun name => pure (some name)) :=
    (twin_identifier.then fun _ => Twin.done _).seen known
  refine (twin_consumeKeyword .AS (k.free (by decide))).then fun found => ?_
  cases found with
  | true => exact name
  | false =>
      refine Twin.current ?_ fun a => ?_
      · rw [k.left_halts.identifier?, k.right_halts.identifier?]
        exact .done none
      · split
        next => exact name
        next => exact .done none

/-- A column is an item and its alias. -/
theorem twin_column : Twin k n [] (fun _ => 1) column column := by
  refine (twin_item fun _ => twin_expression).lead fun expr => ?_
  split
  next => exact .done _
  next => exact twin_optionalAlias.then fun _ => .done _

/-- What ends a list of expressions ends a select list. -/
theorem Stops.endsColumns {kind : Kind} (h : Stops kind) :
    endsClause afterColumns kind = true :=
  endsClause_mono (by decide) h

/-- A select list that is left out is left out before either end. -/
theorem twin_columns (closed : k.Closed) : Twin k n [] (fun _ => 0) columns columns := by
  refine Twin.current ?_ fun a => ?_
  · rw [if_pos k.left_stops.endsColumns, if_pos (Stops.endsColumns closed)]
    exact .done none
  · have course : ∀ mark, Course false mark column := fun _ => course_column
    split
    next => exact .done none
    next =>
      have list : Twin k n [] (fun _ => 1) (commaSeparated column) (commaSeparated column) :=
        twin_commaSeparated twin_column course closed fun _ => Nat.le_refl 1
      exact (list.then fun _ => Twin.done _).seen [a]

-- ============================================================ joins

/-- No word before `JOIN` ends a list. -/
theorem joinWords_append {rest : List Kind} (stops : Stops (next rest)) (ls : List Kind) :
    joinWords (ls ++ rest) = joinWords ls := by
  induction ls with
  | nil =>
      cases rest with
      | nil => rfl
      | cons kind later =>
          have others : ∀ keyword ∈ afterGroups, isJoinModifier keyword = false := by decide
          rcases cases_of_endsClause stops with
            found | found | found | ⟨name, keyword, found, word, given⟩
          all_goals obtain rfl : kind = _ := found
          · rfl
          · rfl
          · rfl
          · have here : (Kind.word name).keyword? = some keyword := word
            show joinWords (.word name :: later) = []
            rw [joinWords, here]
            simp only [others keyword given, Bool.false_eq_true, if_false]
  | cons kind ls ih =>
      rw [List.cons_append, joinWords, joinWords, ih]

/-- The tokens before the boundary are known as a whole, and with them the
words. -/
theorem twin_joinModifiers (closed : k.Closed) :
    Twin k n [] (fun _ => 0) joinModifiers joinModifiers := by
  have course : Course false 0 joinModifiers := course_joinModifiers
  refine ⟨course.forward, fun ls ls' s t words s' short _ hs ht h hs' => ?_⟩
  obtain ⟨within, inner⟩ := joinWords_inner ls
  have width : (ls.take (joinWords ls).length).length = (joinWords ls).length := by
    rw [List.length_take]
    exact Nat.min_eq_left within
  -- the tokens are known, and with them the words
  have skipped : Twin k n ls (fun _ => 0)
      (skip (joinWords ls).length >>= fun _ => pure (joinWords ls))
      (skip (joinWords ls).length >>= fun _ => pure (joinWords ls)) := by
    have done : Twin k (n - (ls.take (joinWords ls).length).length)
        (ls.drop (joinWords ls).length) (fun _ => 0) (pure (joinWords ls))
        (pure (joinWords ls)) := .done _
    have known := Twin.skip (f := fun _ => pure _) (g := fun _ => pure _) _ inner done
      fun _ => Nat.zero_le _
    rwa [List.take_append_drop, width] at known
  rw [joinModifiers_apply, hs, joinWords_append k.left_stops] at h
  rw [joinModifiers_apply, ht, joinWords_append closed]
  exact skipped.follow short (List.prefix_refl ls) hs ht h hs'

/-- The type of a join takes at least its `JOIN`. -/
theorem twin_joinType (closed : k.Closed) :
    Twin k n [] (fun _ => 1) joinType joinType := by
  rw [joinType_eq]
  refine Twin.position fun _ _ => (twin_joinModifiers closed).then fun words => ?_
  refine Twin.position fun _ _ => ?_
  refine (twin_expectKeyword .JOIN).lead fun _ => ?_
  split
  next => exact .done _
  next => exact Twin.reject _ _ _

/-- No point stands at an end, so a schema has its table before it. -/
theorem twin_tableName : Twin k n [] (fun _ => 1) tableName tableName := by
  refine twin_identifier.lead fun first => ?_
  refine (twin_consume .dot nofun nofun nofun).then fun dotted => ?_
  cases dotted with
  | true => exact twin_identifier.then fun _ => .done _
  | false => exact .done _

-- =================================================== GROUP BY, ORDER BY

/-- The word `BY` must be there, so it stands before the boundary. -/
theorem twin_afterBy {α : Type} {m : α → Nat} {body body' : Parser α}
    (hbody : Twin k n [] m body body') :
    Twin k n [] m (afterBy body) (afterBy body') :=
  (twin_expectKeyword .BY).then fun _ => hbody

/-- What follows the tokens before the boundary ends a list on either side
or on none. -/
theorem Fork.Closed.stops_congr (closed : k.Closed) {ls : List Kind}
    (h : Stops (next (ls ++ k.left))) : Stops (next (ls ++ k.right)) := by
  cases ls with
  | nil => exact closed
  | cons kind later => exact h

/-- Whether an attempt is taken back or not, the list is read alike. -/
theorem twin_groups (closed : k.Closed) : Twin k n [] (fun _ => 1) groups groups := by
  have course : Course true 0 groups := course_groups
  refine ⟨course.forward, fun ls ls' s t es s' short known hs ht h hs' => ?_⟩
  have list (m : Nat) : Twin k m [] (fun _ => 1) (expressionList expression)
      (expressionList expression) := twin_expressions closed
  have plain {s : State} (hs : s.rest = ls ++ k.left)
      (h : expressionList expression s = .ok es s') : ls'.length + 1 ≤ ls.length
        ∧ ∃ t', groups t = .ok es t' ∧ t'.rest = ls' ++ k.right := by
    obtain ⟨taken, t', hlist, ht'⟩ := (list n).follow short known hs ht h hs'
    obtain ⟨t'', hgroups, same⟩ := groups_of_expressionList hlist
    exact ⟨taken, t'', hgroups, same.trans ht'⟩
  rcases groups_cases s with
    ⟨es', u, opened, hlist, closes, hgroups⟩ | ⟨-, -, hgroups⟩ | ⟨-, hgroups⟩
  -- the parenthesis wraps the whole list
  · rw [hgroups] at h
    cases h
    obtain ⟨paren, ends⟩ := Bool.and_eq_true_iff.1 closes
    cases ls with
    | nil =>
        rw [State.kindAt_zero hs] at opened
        exact absurd opened k.left_halts.ne_leftParen
    | cons a more =>
        obtain rfl : a = .symbol .leftParen := (State.kindAt_of_rest hs).symm.trans opened
        have hu : u.rest = .symbol .rightParen :: ls' ++ k.left := by
          have m := moves_advance (eq_of_beq paren) nofun
          rw [m.rest, hs']
          rfl
        have fewer : more.length ≤ n := Nat.le_of_succ_le short
        obtain ⟨taken, v, hlist', hv⟩ := (list n).follow fewer List.nil_prefix
          (State.rest_advance hs nofun) (State.rest_advance ht nofun) hlist hu
        refine ⟨Nat.le_succ_of_le (Nat.le_of_succ_le taken), ?_⟩
        rw [State.kindAt_zero hs'] at ends
        exact groups_of_closed ht hlist' hv (closed.stops_congr ends)
  -- the attempt was taken back, and only its report is left of it
  · rw [hgroups] at h
    exact plain (s := s.report _) hs h
  · rw [hgroups] at h
    exact plain hs h

/-- A direction stands before the boundary with its expression. -/
theorem twin_sortKey : Twin k n [] (fun _ => 1) sortKey sortKey := by
  refine (twin_expression 0).lead fun expr => ?_
  refine (twin_consumeKeyword .DESC (k.free (by decide))).then fun found => ?_
  cases found with
  | true => exact .done _
  | false => exact (twin_consumeKeyword .ASC (k.free (by decide))).then fun _ => .done _

-- =========================================== LIMIT, OFFSET, FETCH

/-- A sign and a number stand before the boundary; any other count fails. -/
theorem twin_rowCount : Twin k n [] (fun _ => 1) rowCount rowCount := by
  refine Twin.position fun _ _ => (twin_consume .minus nofun nofun nofun).then fun negative => ?_
  refine Twin.position fun i j => Twin.current ?_ fun a => ?_
  · split
    next value found => exact absurd found (k.left_halts.ne_integer value)
    next => exact Twin.reject _ _ _
    next => exact Twin.unexpected _
  · cases a with
    | integer digits =>
        refine Twin.advance (l := fun _ => 0) nofun ?_ fun _ => Nat.le_refl 1
        generalize (if negative = true then _ else _ : Int64) = value
        show Twin k (n - 1) [] _ (if value < 0 then _ else _) (if value < 0 then _ else _)
        split
        next => exact Twin.reject _ _ _
        next => exact .done _
    | numeric value => exact Twin.reject _ _ _
    | _ => exact Twin.unexpected _

/-- Neither `ROW` nor `ROWS` stands at an end. -/
theorem twin_rowWord : Twin k n [] (fun _ => 0) rowWord rowWord := by
  refine (twin_consumeKeyword .ROWS (k.free (by decide))).then fun found => ?_
  cases found with
  | true => exact .done ()
  | false => exact (twin_consumeKeyword .ROW (k.free (by decide))).then fun _ => .done ()

/-- The word `ALL` stands at neither end. -/
theorem twin_limitCount : Twin k n [] (fun _ => 0) limitCount limitCount := by
  refine (twin_consumeKeyword .ALL (k.free (by decide))).then fun found => ?_
  cases found with
  | true => exact .done none
  | false => exact twin_rowCount.then fun _ => .done _

/-- Whether a count is missing is told by the word behind it. -/
theorem twin_rowCountOrOne : Twin k n [] (fun _ => 0) rowCountOrOne rowCountOrOne := by
  have count {m : Nat} : Twin k m [] (fun _ => 0) rowCount rowCount :=
    twin_rowCount.ease fun _ => Nat.zero_le 1
  have other {kind : Kind} (h : Halts kind) :
      ¬(kind.keyword? = some .ROW ∨ kind.keyword? = some .ROWS) := by
    rintro (found | found)
    · exact h.ne_keyword (by decide) found
    · exact h.ne_keyword (by decide) found
  refine Twin.current ?_ fun a => ?_
  · show Twin k 0 [] _ (if (next k.left).keyword? = _ ∨ _ then _ else _)
      (if (next k.right).keyword? = _ ∨ _ then _ else _)
    rw [if_neg (other k.left_halts), if_neg (other k.right_halts)]
    exact count
  · show Twin k n [a] _ (if a.keyword? = _ ∨ _ then _ else _) (if a.keyword? = _ ∨ _ then _ else _)
    split
    next => exact .done 1
    next => exact count.seen [a]

/-- A count with the words behind it. -/
theorem twin_fetched : Twin k n [] (fun _ => 0) fetched fetched := by
  refine twin_rowCountOrOne.then fun count => twin_rowWord.then fun _ => ?_
  exact (twin_consumeKeyword .ONLY (k.free (by decide))).then fun _ => .done count

/-- One of two words must be there. -/
theorem twin_fetchCount : Twin k n [] (fun _ => 0) fetchCount fetchCount := by
  refine (twin_consumeKeyword .FIRST (k.free (by decide))).then fun found => ?_
  cases found with
  | true => exact twin_fetched
  | false =>
      refine (twin_consumeKeyword .NEXT (k.free (by decide))).then fun found => ?_
      cases found with
      | true => exact twin_fetched
      | false => exact Twin.unexpected _

/-- Without a keyword there is no further clause. -/
theorem rowLimits_stop {s : State} (stop : (s.kindAt 0).keyword? = none) (count : Nat)
    (limits : RowLimits) : rowLimits count limits s = .ok limits s := by
  cases count with
  | zero => rfl
  | succ count =>
      have none : rowLimit? limits s = .ok none s := by
        rw [rowLimit?, position_bind, current_bind, stop]
        rfl
      rw [rowLimits, bind_apply, none]
      rfl

section Limits

variable (bare : k.Bare)

include bare

/-- No keyword stands at an end, so no further limit starts there. -/
theorem twin_rowLimit? (limits : RowLimits) :
    Twin k n [] drawn (rowLimit? limits) (rowLimit? limits) := by
  refine Twin.position fun _ _ => Twin.current ?_ fun a => ?_
  · rw [bare.left, bare.right]
    exact .pure none rfl
  · cases found : a.keyword? with
    | none => exact .pure none rfl
    | some keyword =>
        have inner := ne_eof_of_keyword? found
        cases keyword with
        | LIMIT =>
            simp only
            split
            next => exact Twin.reject _ _ _
            next => exact Twin.advance inner (twin_limitCount.then fun _ => .done _) drawn_le
        | OFFSET =>
            simp only
            split
            next => exact Twin.reject _ _ _
            next =>
              refine Twin.advance inner ?_ drawn_le
              exact twin_rowCount.then fun _ => twin_rowWord.then fun _ => .done _
        | FETCH =>
            simp only
            split
            next => exact Twin.reject _ _ _
            next => exact Twin.advance inner (twin_fetchCount.then fun _ => .done _) drawn_le
        | _ => exact .pure none rfl

/-- Either run has a round for every token, and every limit takes some. -/
theorem twin_rowLimits {i : Nat} {c d : Nat} (hc : i ≤ c) (hd : i ≤ d)
    (limits : RowLimits) : Twin k i [] (fun _ => 0) (rowLimits c limits) (rowLimits d limits) := by
  induction i generalizing c d limits with
  | zero =>
      have course : Course false 0 (rowLimits c limits) := course_rowLimits c limits
      refine Twin.still (a := limits) course.forward rfl (fun s hs => ?_) fun t ht => ?_
      · exact rowLimits_stop (by rw [State.kindAt_zero hs]; exact bare.left) c limits
      · exact rowLimits_stop (by rw [State.kindAt_zero ht]; exact bare.right) d limits
  | succ i ih =>
      obtain ⟨c, rfl⟩ := Nat.exists_eq_add_of_le' (Nat.le_trans (Nat.succ_pos i) hc)
      obtain ⟨d, rfl⟩ := Nat.exists_eq_add_of_le' (Nat.le_trans (Nat.succ_pos i) hd)
      refine Twin.bind (l := fun _ _ => 0) (twin_rowLimit? bare limits) (fun found => ?_)
        fun _ _ => Nat.zero_le _
      cases found with
      | none => exact .done limits
      | some more => exact ih (Nat.le_of_succ_le_succ hc) (Nat.le_of_succ_le_succ hd) more

/-- The bound on the limits is the number of tokens left. -/
theorem twin_limitClause : Twin k n [] (fun _ => 0) limitClause limitClause :=
  Twin.tokensLeft fun _ _ _ _ hc hd => (twin_rowLimits bare hc hd _).then fun _ => .done _

end Limits

end SqlSelect.Grammar
