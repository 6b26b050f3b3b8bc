/-
Statements before two ends.

One production looks past what it reads: behind the name of a table an empty
pair of parentheses is passed, and the boundary may hold the second of the
pair. So a table that stops before an opening parenthesis at the one end may
go on at the other.

# Runs that stay clear

A `Clear` comparison says nothing of a run that stops before an opening
parenthesis. All that follows a table stays there (`Balks`) or fails, so such
a run never reaches the boundary: it would have to pass the parenthesis first.
`Clear.stay` and `Clear.halt` go on from a clear comparison in these two ways,
and the second makes it a full one again.

# Statements in parentheses

They are compared before their closing parenthesis, where nothing is left
open, so a derived table is read the same before any ends, and a clear
comparison of nested statements suffices for it. The knot is tied by induction
on the number of tokens, as for expressions.
-/
import SqlSelect.Proofs.Complete.Select
import SqlSelect.Proofs.Twin.Clause

namespace SqlSelect.Grammar

variable {α β : Type}

-- ======================================== up to an opening parenthesis

/-- A token before the boundary is not changed by what is behind it. -/
theorem next_append {ls : List Kind} {mark : Symbol} (h : next ls = .symbol mark)
    (rest : List Kind) : next (ls ++ rest) = .symbol mark := by
  cases ls with
  | nil => cases h
  | cons a more => exact h

/-- Before an opening parenthesis the parser stays where it is. -/
def Balks (p : Parser α) : Prop :=
  ∀ rest, next rest = .symbol .leftParen → ∃ a, Reads p [] rest a

namespace Balks

/-- Nothing is read. -/
protected theorem pure (a : α) : Balks (pure a) := fun rest _ => ⟨a, Runs.refl _ rest⟩

/-- Both parts stay where they are. -/
protected theorem bind {p : Parser α} {f : α → Parser β} (first : Balks p)
    (later : ∀ a, Balks (f a)) : Balks (p >>= f) := by
  intro rest opened
  obtain ⟨a, hp⟩ := first rest opened
  obtain ⟨b, hf⟩ := later a rest opened
  exact ⟨b, hp.none hf⟩

/-- To count tokens moves nothing. -/
protected theorem tokensLeft : Balks tokensLeft :=
  fun rest _ => ⟨rest.length, runs_tokensLeft (f := pure) (Runs.refl _ rest)⟩

/-- An opening parenthesis is no keyword. -/
theorem keyword?_ne {rest : List Kind} (opened : next rest = .symbol .leftParen)
    (keyword : Keyword) : (next rest).keyword? ≠ some keyword := by
  rw [opened]
  exact nofun

/-- So no clause starts there. -/
protected theorem clause (keyword : Keyword) (body : Parser α) : Balks (clause keyword body) :=
  fun _ opened => ⟨none, reads_clause_absent (keyword?_ne opened keyword)⟩

/-- No alias starts there. -/
theorem optionalAlias : Balks optionalAlias := by
  intro rest opened
  refine ⟨none, (reads_consumeKeyword_absent (keyword?_ne opened .AS)).none ?_⟩
  refine runs_current (runs_else ?_ (Runs.refl _ rest))
  rw [show next ([] ++ rest) = _ from opened]
  exact nofun

/-- No further entry starts there. -/
theorem moreSources (select : Parser Select) (count : Nat) : Balks (moreSources select count) := by
  intro rest opened
  refine ⟨[], reads_moreSources_stop ?_ ?_ count⟩
  · rw [opened]
    exact nofun
  · rw [opened]
    rfl

/-- No limit starts there. -/
theorem limitClause : Balks limitClause := by
  intro rest opened
  have stop (count : Nat) (limits : RowLimits) : Reads (rowLimits count limits) [] rest limits := by
    intro s hs
    have plain : (s.kindAt 0).keyword? = none := by
      rw [State.kindAt_zero (show s.rest = rest from hs), opened]
      rfl
    exact ⟨s, hs, rfl, rowLimits_stop plain count limits⟩
  exact ⟨_, runs_tokensLeft (stop _ ⟨none, none⟩).map⟩

end Balks

/-- As for a `Twin`, but a run may stop before an opening parenthesis, of
which nothing is said. -/
structure Clear (k : Fork) (n : Nat) (p q : Parser α) : Prop where
  forward : Forward p
  follow : ∀ ⦃ls ls' : List Kind⦄ ⦃s t : State⦄ ⦃a : α⦄ ⦃s' : State⦄, ls.length ≤ n →
    s.rest = ls ++ k.left → t.rest = ls ++ k.right → p s = .ok a s' → s'.rest = ls' ++ k.left →
    next ls' ≠ .symbol .leftParen → ∃ t', q t = .ok a t' ∧ t'.rest = ls' ++ k.right

/-- A full comparison is a clear one. -/
theorem Twin.clear {k : Fork} {n : Nat} {least : α → Nat} {p q : Parser α}
    (h : Twin k n [] least p q) : Clear k n p q :=
  ⟨h.forward, fun _ _ _ _ _ _ short hs ht hp hs' _ =>
    (h.follow short List.nil_prefix hs ht hp hs').2⟩

namespace Clear

variable {k : Fork} {n : Nat} {p q : Parser α} {f g : α → Parser β}

/-- What holds of so many tokens holds of fewer. -/
theorem mono {m : Nat} (h : Clear k n p q) (le : m ≤ n) : Clear k m p q :=
  ⟨h.forward, fun _ _ _ _ _ _ short => h.follow (Nat.le_trans short le)⟩

/-- At the boundary itself nothing is left open. -/
theorem meets (h : Clear k n p q) : k.Meets n p q :=
  fun _ _ _ _ s' short hs ht hp hs' => by
    have stop : s'.rest = [] ++ k.left := hs'
    exact h.follow short hs ht hp stop nofun

/-- What precedes may be a full comparison. -/
theorem after {m : α → Nat} (first : Twin k n [] m p q)
    (later : ∀ a, Clear k (n - m a) (f a) (g a)) : Clear k n (p >>= f) (q >>= g) := by
  refine ⟨first.forward.bind fun a => (later a).forward, ?_⟩
  intro ls ls' s t b s' short hs ht h hs' clear
  obtain ⟨a, u, ks, hp, hf, hu⟩ := Forward.between (fun a => (later a).forward) h hs'
  obtain ⟨taken, v, hq, hv⟩ := first.follow short List.nil_prefix hs ht hp hu
  obtain ⟨t', hg, ht'⟩ := (later a).follow (by omega) hu hv hf hs' clear
  exact ⟨t', bind_ok.2 ⟨a, v, hq, hg⟩, ht'⟩

/-- The tokens before the boundary only become fewer. -/
theorem length_le (forward : Forward p) {ls ls' : List Kind} {s s' : State} {a : α}
    (hs : s.rest = ls ++ k.left) (h : p s = .ok a s') (hs' : s'.rest = ls' ++ k.left) :
    ls'.length ≤ ls.length := by
  obtain ⟨ks, move⟩ := forward h
  have whole := congrArg List.length move.rest
  rw [hs, hs', List.length_append, List.length_append, List.length_append] at whole
  omega

/-- Where a run stops before an opening parenthesis, what follows stays
there, and so the whole does. -/
theorem stay (first : Clear k n p q) (later : ∀ a, Clear k n (f a) (g a))
    (balks : ∀ a, Balks (f a)) : Clear k n (p >>= f) (q >>= g) := by
  refine ⟨first.forward.bind fun a => (later a).forward, ?_⟩
  intro ls ls' s t b s' short hs ht h hs' clear
  obtain ⟨a, u, ks, hp, hf, hu⟩ := Forward.between (fun a => (later a).forward) h hs'
  -- had the first part stopped before a parenthesis, the whole would have
  have clear' : next (ks ++ ls') ≠ .symbol .leftParen := by
    intro opened
    obtain ⟨c, stays⟩ := balks a u.rest (hu ▸ next_append opened k.left)
    obtain ⟨s'', hs'', -, hf'⟩ := stays u rfl
    obtain ⟨-, rfl⟩ := EStateM.Result.ok.inj (hf.symm.trans hf')
    rw [hs', hu] at hs''
    rw [← List.append_cancel_right hs''] at opened
    exact clear opened
  obtain ⟨v, hq, hv⟩ := first.follow short hs ht hp hu clear'
  have short' := Nat.le_trans (length_le first.forward hs hp hu) short
  obtain ⟨t', hg, ht'⟩ := (later a).follow short' hu hv hf hs' clear
  exact ⟨t', bind_ok.2 ⟨a, v, hq, hg⟩, ht'⟩

/-- Where what follows fails before an opening parenthesis, the comparison
is a full one. -/
theorem halt {l : β → Nat} (first : Clear k n p q) (later : ∀ a, Twin k n [] l (f a) (g a))
    (fails : ∀ a s b s', s.kindAt 0 = .symbol .leftParen → f a s ≠ .ok b s') :
    Twin k n [] l (p >>= f) (q >>= g) := by
  refine ⟨first.forward.bind fun a => (later a).forward, ?_⟩
  intro ls ls' s t b s' short _ hs ht h hs'
  obtain ⟨a, u, ks, hp, hf, hu⟩ := Forward.between (fun a => (later a).forward) h hs'
  have clear : next (ks ++ ls') ≠ .symbol .leftParen := by
    intro opened
    refine fails a u b s' ?_ hf
    rw [State.kindAt_zero hu]
    exact next_append opened k.left
  obtain ⟨v, hq, hv⟩ := first.follow short hs ht hp hu clear
  have fewer := length_le first.forward hs hp hu
  obtain ⟨taken, t', hg, ht'⟩ :=
    (later a).follow (Nat.le_trans fewer short) List.nil_prefix hu hv hf hs'
  exact ⟨Nat.le_trans taken fewer, t', bind_ok.2 ⟨a, v, hq, hg⟩, ht'⟩

/-- Neither number of tokens left is less than that before the boundary. -/
protected theorem tokensLeft {f g : Nat → Parser α}
    (later : ∀ i ≤ n, ∀ c d, i ≤ c → i ≤ d → Clear k i (f c) (g d)) :
    Clear k n (tokensLeft >>= f) (tokensLeft >>= g) := by
  refine ⟨fun s _ _ h => (later 0 (Nat.zero_le n) s.rest.length 0 (Nat.zero_le _)
    (Nat.le_refl _)).forward h, fun ls ls' s t a s' short hs ht h hs' => ?_⟩
  have within (s : State) {rest : List Kind} (hs : s.rest = ls ++ rest) :
      ls.length ≤ s.rest.length := by
    rw [hs, List.length_append]
    exact Nat.le_add_right _ _
  exact (later ls.length short _ _ (within s hs) (within t ht)).follow (Nat.le_refl _) hs ht h hs'

end Clear

-- ============================================================ tables

section Tables

variable {k : Fork} {n : Nat}

/-- An empty pair of parentheses stands here. -/
def State.AtPair (s : State) : Prop :=
  s.kindAt 0 = .symbol .leftParen ∧ s.kindAt 1 = .symbol .rightParen

instance (s : State) : Decidable s.AtPair := inferInstanceAs (Decidable (_ ∧ _))

/-- Both parentheses are passed, or none is. -/
theorem emptyParens_apply (s : State) :
    emptyParens s = if s.AtPair then .ok () s.advance.advance else .ok () s := by
  rw [emptyParens, peek_bind, peek_bind]
  split
  next pair => exact (if_pos pair).symm
  next none => exact (if_neg none).symm

/-- A pair that stands here is seen, and what is behind it is left. -/
theorem State.AtPair.of_rest {s : State} {more : List Kind}
    (hs : s.rest = .symbol .leftParen :: .symbol .rightParen :: more) :
    s.AtPair ∧ s.advance.advance.rest = more := by
  refine ⟨⟨State.kindAt_of_rest hs, ?_⟩, State.rest_advance (State.rest_advance hs nofun) nofun⟩
  rw [State.kindAt, hs]
  rfl

/-- A pair that is passed up to the boundary stands before it. -/
theorem State.AtPair.before {ls ls' : List Kind} {s : State} (pair : s.AtPair)
    (hs : s.rest = ls ++ k.left) (hs' : s.advance.advance.rest = ls' ++ k.left) :
    ls = .symbol .leftParen :: .symbol .rightParen :: ls' := by
  have opened := Grammar.moves_advance pair.1 nofun
  have closed : s.advance.kindAt 0 = .symbol .rightParen :=
    (State.kindAt_advance (pair.1 ▸ nofun)).trans pair.2
  have second := Grammar.moves_advance closed nofun
  have passed := (opened.trans second).rest
  rw [hs, hs', ← List.append_assoc] at passed
  exact List.append_cancel_right passed

/-- A pair before the boundary opens before it. -/
theorem State.AtPair.opens {ls : List Kind} {t : State} (pair : t.AtPair)
    (ht : t.rest = ls ++ k.right) : next ls = .symbol .leftParen := by
  have first := pair.1
  rw [State.kindAt_zero ht] at first
  cases ls with
  | nil => exact absurd first k.right_halts.ne_leftParen
  | cons a later => exact first

/-- A pair in one run is a pair in the other, unless it starts at the boundary.
-/
theorem clear_emptyParens : Clear k n emptyParens emptyParens := by
  have course : Course false 0 emptyParens := course_emptyParens
  refine ⟨course.forward, fun ls ls' s t _ s' short hs ht h hs' clear => ?_⟩
  rw [emptyParens_apply] at h ⊢
  by_cases pair : s.AtPair
  · rw [if_pos pair] at h
    cases h
    obtain rfl := pair.before hs hs'
    obtain ⟨same, behind⟩ := State.AtPair.of_rest ht
    rw [if_pos same]
    exact ⟨_, rfl, behind⟩
  · rw [if_neg pair] at h
    cases h
    obtain rfl := List.append_cancel_right (hs.symm.trans hs')
    rw [if_neg fun found => clear (found.opens ht)]
    exact ⟨t, rfl, ht⟩

/-- A table that stops before an opening parenthesis may go on with a pair. -/
theorem clear_table : Clear k n table table := by
  refine Clear.after twin_tableName fun name => ?_
  refine (clear_emptyParens.mono (Nat.sub_le n 1)).stay (fun _ => ?_) fun _ => ?_
  · exact (twin_optionalAlias.then fun _ => Twin.done _).clear
  · exact Balks.optionalAlias.bind fun _ => Balks.pure _

/-- No opening parenthesis stands at an end. -/
theorem twin_atLeftParen :
    Twin k n [] (fun _ => 0) (atSymbol .leftParen) (atSymbol .leftParen) := by
  refine Twin.current ?_ fun a => .done _
  rw [beq_false_of_ne k.left_halts.ne_leftParen, beq_false_of_ne k.right_halts.ne_leftParen]
  exact .done false

/-- No join starts at the boundary. -/
theorem twin_startsJoin (bare : k.Bare) : Twin k n [] (fun _ => 0)
    (current >>= fun kind => pure (startsJoin kind))
    (current >>= fun kind => pure (startsJoin kind)) := by
  refine Twin.current ?_ fun a => .done _
  rw [startsJoin, startsJoin, bare.left, bare.right]
  exact .done false

end Tables

-- ================================================ nested statements

/-- A round looks at the comma and at the join apart. -/
theorem moreSources_succ (select : Parser Select) (count : Nat) :
    moreSources select (count + 1) = consume .comma >>= fun found =>
      if found then source select >>= fun entry =>
        moreSources select count >>= fun later => pure (entry :: later)
      else (current >>= fun kind => pure (startsJoin kind)) >>= fun starts =>
        if starts then joinedSource select >>= fun entry =>
          moreSources select count >>= fun later => pure (entry :: later)
        else pure [] := rfl

/-- Before anything but a comma or a join there is no further entry. -/
theorem moreSources_stop {select : Parser Select} {s : State}
    (comma : s.kindAt 0 ≠ .symbol .comma) (join : startsJoin (s.kindAt 0) = false) (count : Nat) :
    moreSources select count s = .ok [] s := by
  cases count with
  | zero => rfl
  | succ count =>
      rw [moreSources_succ, consume_bind, if_neg comma]
      show (current >>= fun kind => if startsJoin kind = true then _ else _) s = _
      rw [current_bind, join]
      rfl

section Productions

variable {k : Fork} {n : Nat} {select select' : Parser Select}
  (course : ∀ mark, Course true mark select)
  (nested : ∀ k : Fork, k.Bare → k.Closed → Clear k n select select')

include course nested

/-- A statement in parentheses is read up to the closing one. -/
theorem twin_derivedTable :
    Twin k n [] (fun _ => 0) (derivedTable select) (derivedTable select') := by
  refine Twin.expect .leftParen (l := fun _ => 0) (fun _ _ => ?_) fun _ => Nat.zero_le 1
  refine twin_enclosed (course 0).forward (fun k inside => ?_) fun statement _ _ => ?_
  · exact ((nested k inside.bare inside.closed).mono (Nat.sub_le n 1)).meets
  · refine twin_optionalAlias.then fun found => ?_
    cases found with
    | some aliasName => exact .done _
    | none => exact Twin.reject _ _ _

/-- A table is clear of the boundary, and a derived table is read alike. -/
theorem clear_source : Clear k n (source select) (source select') := by
  refine Clear.after twin_atLeftParen fun opened => ?_
  cases opened with
  | true => exact (twin_derivedTable course nested).clear
  | false => exact clear_table

/-- What is joined is followed by `ON`, which is no parenthesis. -/
theorem twin_joinedSource (closed : k.Closed) :
    Twin k n [] (fun _ => 1) (joinedSource select) (joinedSource select') := by
  refine (twin_joinType closed).lead fun type => ?_
  refine ((clear_source course nested).mono (Nat.sub_le n 1)).halt (fun entry => ?_)
    fun entry s b s' opened h => ?_
  · refine (twin_expectKeyword .ON).then fun _ => ?_
    exact (twin_expression 0).then fun on => .done _
  · obtain ⟨_, t, hon, -⟩ := bind_ok.1 h
    rw [expectKeyword_eq, current_bind, if_neg (by rw [opened]; exact nofun)] at hon
    exact unexpected_ok.1 hon

/-- Neither a comma nor a join stands at the boundary. -/
theorem clear_moreSources (bare : k.Bare) (closed : k.Closed) {i : Nat} (le : i ≤ n) {c d : Nat}
    (hc : i ≤ c) (hd : i ≤ d) : Clear k i (moreSources select c) (moreSources select' d) := by
  induction i generalizing c d with
  | zero =>
      have stop {rest : List Kind} (stops : Stops (next rest)) (plain : (next rest).keyword? = none)
          (select : Parser Select) (count : Nat) (s : State) (hs : s.rest = rest) :
          moreSources select count s = .ok [] s := by
        have here : s.kindAt 0 = next rest := State.kindAt_zero hs
        apply moreSources_stop
        · rw [here]
          exact stops.ne_comma
        · rw [here, startsJoin, plain]
          rfl
      have still : Twin k 0 [] (fun _ => 0) (moreSources select c) (moreSources select' d) :=
        Twin.still (course_moreSources course c).forward rfl
          (stop k.left_stops bare.left select c) (stop closed bare.right select' d)
      exact still.clear
  | succ i ih =>
      obtain ⟨c, rfl⟩ := Nat.exists_eq_add_of_le' (Nat.le_trans (Nat.succ_pos i) hc)
      obtain ⟨d, rfl⟩ := Nat.exists_eq_add_of_le' (Nat.le_trans (Nat.succ_pos i) hd)
      have le' : i ≤ n := Nat.le_of_succ_le le
      have tail (entry : Source) : Clear k i
          (moreSources select c >>= fun later => pure (entry :: later))
          (moreSources select' d >>= fun later => pure (entry :: later)) :=
        (ih le' (Nat.le_of_succ_le_succ hc) (Nat.le_of_succ_le_succ hd)).stay
          (fun _ => (Twin.done _).clear) fun _ => Balks.pure _
      rw [moreSources_succ, moreSources_succ]
      refine Clear.after (twin_comma closed) fun found => ?_
      cases found with
      | true =>
          refine ((clear_source course nested).mono le').stay tail fun entry => ?_
          exact (Balks.moreSources _ _).bind fun _ => Balks.pure _
      | false =>
          refine Clear.after (twin_startsJoin bare) fun starts => ?_
          cases starts with
          | true => exact Clear.after ((twin_joinedSource course nested closed).mono le) tail
          | false => exact (Twin.done []).clear

/-- The first entry and those behind it. -/
theorem clear_sources (bare : k.Bare) (closed : k.Closed) :
    Clear k n (sources select) (sources select') := by
  refine (clear_source course nested).stay (fun head => Clear.tokensLeft fun i le c d hc hd => ?_)
    fun head => Balks.tokensLeft.bind fun count => ?_
  · exact (clear_moreSources course nested bare closed le hc hd).stay (fun _ => (Twin.done _).clear)
      fun _ => Balks.pure _
  · exact (Balks.moreSources _ count).bind fun _ => Balks.pure _

/-- Without a `FROM` clause there is nothing to stay clear of. -/
theorem clear_from (bare : k.Bare) (closed : k.Closed) :
    Clear k n (clause .FROM (sources select)) (clause .FROM (sources select')) := by
  refine Clear.after (twin_consumeKeyword .FROM (bare .FROM)) fun found => ?_
  cases found with
  | true =>
      exact ((clear_sources course nested bare closed).mono (Nat.sub_le n 1)).stay
        (fun _ => (Twin.done _).clear) fun _ => Balks.pure _
  | false => exact (Twin.done none).clear

/-- The clauses behind the `FROM` list are full comparisons, and all of them
balk. -/
theorem clear_selectOf (bare : k.Bare) (closed : k.Closed) :
    Clear k (n + 1) (selectOf select) (selectOf select') := by
  have keys : Twin k n [] (fun _ => 1) (commaSeparated sortKey) (commaSeparated sortKey) := by
    have course : ∀ mark, Course false mark sortKey := fun _ => course_sortKey
    exact twin_commaSeparated twin_sortKey course closed fun _ => Nat.le_refl 1
  refine Clear.after (twin_expectKeyword .SELECT) fun _ => ?_
  refine Clear.after twin_distinct fun distinct => ?_
  refine Clear.after (twin_columns closed) fun columns => ?_
  refine (clear_from course nested bare closed).stay
    (fun sources => (?_ : Twin k n [] (fun _ => 0) _ _).clear) fun sources => ?_
  · refine (twin_clause (twin_expression 0) .WHERE (bare .WHERE)).then fun filter => ?_
    refine (twin_clause (twin_afterBy (twin_groups closed)) .GROUP (bare .GROUP)).then
      fun groups => ?_
    refine (twin_clause (twin_expression 0) .HAVING (bare .HAVING)).then fun having => ?_
    refine (twin_clause (twin_afterBy keys) .ORDER (bare .ORDER)).then fun order => ?_
    exact (twin_limitClause bare).then fun limit => .done _
  · refine (Balks.clause .WHERE _).bind fun filter => (Balks.clause .GROUP _).bind fun groups => ?_
    refine (Balks.clause .HAVING _).bind fun having => (Balks.clause .ORDER _).bind fun order => ?_
    exact Balks.limitClause.bind fun limit => Balks.pure _

end Productions

/-- Bounds that suffice for the tokens do not show. -/
theorem clear_selectWithin {k : Fork} (bare : k.Bare) (closed : k.Closed) {n bound bound' : Nat}
    (left : n ≤ bound) (right : n ≤ bound') :
    Clear k n (selectWithin bound) (selectWithin bound') := by
  induction n generalizing k bound bound' with
  | zero =>
      have course : Course true 0 (selectWithin bound) := course_selectWithin bound
      -- no statement starts with what stands at the boundary
      have missing : Twin k 0 [] (fun _ => 0) (selectWithin bound) (selectWithin bound') := by
        refine Twin.away course.forward fun s a s' hs h => ?_
        cases bound with
        | zero => exact (unexpected_ok.1 h).elim
        | succ bound =>
            have other : (s.kindAt 0).keyword? ≠ some .SELECT := by
              rw [State.kindAt_zero hs]
              exact (bare .SELECT).1
            obtain ⟨_, t, hselect, -⟩ := bind_ok.1 h
            rw [expectKeyword_eq, current_bind, if_neg other] at hselect
            exact (unexpected_ok.1 hselect).elim
      exact missing.clear
  | succ n ih =>
      obtain ⟨bound, rfl⟩ := Nat.exists_eq_add_of_le' (Nat.le_trans (Nat.succ_pos n) left)
      obtain ⟨bound', rfl⟩ := Nat.exists_eq_add_of_le' (Nat.le_trans (Nat.succ_pos n) right)
      have nested (k : Fork) (bare : k.Bare) (closed : k.Closed) :
          Clear k n (selectWithin bound) (selectWithin bound') :=
        ih bare closed (Nat.le_of_succ_le_succ left) (Nat.le_of_succ_le_succ right)
      exact clear_selectOf (fun _ => course_selectWithin bound) nested bare closed

end SqlSelect.Grammar
