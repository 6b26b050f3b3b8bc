/-
Expressions before two ends.

Every production of expressions reads the same before either end of a fork.
Each proof goes along the text of its production. At every look ahead there is
one case for the boundary, closed by what is known of the tokens that end an
expression (`Halts`), and one for a token before it.

# Nesting

Nested expressions come in with their own comparison, at a number of tokens
one less than the production that takes a token before them, and the knot is
tied by induction on that number (`twin_expressionWithin`). They come in
before every fork, since a list in parentheses is compared before its
parenthesis and not before the boundary. Two bounds on the depth come in as
well: either run has its own, and both are at least the number of tokens.

# Loops

A loop of the grammar is bounded by the number of tokens left, which differs
between the runs. The loops are compared by induction on the number of tokens
before the boundary. With none left, both stop there (`Twin.still`), and every
round takes one of them.
-/
import SqlSelect.Proofs.Course.Expr
import SqlSelect.Proofs.Twin.Basic

namespace SqlSelect.Grammar

variable {k : Fork} {n : Nat}

-- ============================================================ types

/-- The words inside the names of types end no expression. -/
theorem typeWords_plain : ∀ word ∈ ["precision", "varying", "with", "without", "time", "zone"],
    (Keyword.ofWord? word).any afterEntry.contains = false := by
  decide +kernel

/-- The second word of a type ends no expression. -/
theorem secondWord?_plain {first second : String} (h : secondWord? first = some second) :
    (Keyword.ofWord? second).any afterEntry.contains = false := by
  unfold secondWord? at h
  split at h
  all_goals cases h
  all_goals exact typeWords_plain _ (by simp)

/-- The second word of a type, if it is one, stands before the boundary. -/
theorem twin_typeName (first : String) :
    Twin k n [] (fun _ => 0) (typeName first) (typeName first) := by
  unfold typeName
  cases hsecond : secondWord? first with
  | none => exact .done first
  | some second =>
      have plain := secondWord?_plain hsecond
      refine Twin.current ?_ fun a => ?_
      · rw [if_neg (k.left_halts.ne_word plain), if_neg (k.right_halts.ne_word plain)]
        exact .done first
      · split
        next found =>
          obtain rfl := found
          exact Twin.advance nofun (.done _) fun _ => Nat.zero_le _
        next => exact .done first

/-- A modifier is a number, and no number stands at the boundary. -/
theorem twin_typeModifier : Twin k n [] (fun _ => 1) typeModifier typeModifier := by
  refine Twin.current ?_ fun a => ?_
  · split
    next value found => exact absurd found (k.left_halts.ne_integer value)
    next => exact Twin.unexpected _
  · cases a with
    | integer value => exact Twin.advance nofun (.done value) fun _ => Nat.le_refl _
    | _ => exact Twin.unexpected _

/-- Modifiers are read up to their closing parenthesis. -/
theorem twin_typeConfig : Twin k n [] (fun _ => 0) typeConfig typeConfig := by
  have course : ∀ mark, Course false mark typeModifier := fun _ => course_typeModifier
  refine Twin.then (twin_consume .leftParen nofun nofun nofun) fun found => ?_
  cases found with
  | true =>
      have forward : Forward (commaSeparated typeModifier) :=
        (course_commaSeparated course : Course false 0 _).forward
      refine twin_enclosed forward (fun k inside => ?_) fun _ _ _ => .done _
      have list : Twin k n [] (fun _ => 1) (commaSeparated typeModifier)
          (commaSeparated typeModifier) :=
        twin_commaSeparated twin_typeModifier course inside.closed fun _ => Nat.le_refl _
      exact list.meets
  | false => exact .done none

/-- No word about a time zone ends an expression, so all three stand before
the boundary. -/
theorem zone?_stops {first second third : Kind} (h : Halts first ∨ Halts second ∨ Halts third) :
    zone? first second third = none := by
  have other {kind : Kind} (h : Halts kind) (word : String)
      (given : word ∈ ["precision", "varying", "with", "without", "time", "zone"]) :
      kind ≠ .word word :=
    h.ne_word (typeWords_plain word given)
  unfold zone?
  split
  next =>
    rcases h with h | h | h
    · exact absurd rfl (other h "with" (by simp))
    · exact absurd rfl (other h "time" (by simp))
    · exact absurd rfl (other h "zone" (by simp))
  next =>
    rcases h with h | h | h
    · exact absurd rfl (other h "without" (by simp))
    · exact absurd rfl (other h "time" (by simp))
    · exact absurd rfl (other h "zone" (by simp))
  next => rfl

/-- The words of a time zone are looked at one after the other. -/
theorem twin_zonedName (name : String) :
    Twin k n [] (fun _ => 0) (zonedName name) (zonedName name) := by
  unfold zonedName
  split
  next =>
    refine Twin.current ?_ fun a => Twin.second ?_ fun b => Twin.third ?_ fun c => ?_
    · refine Twin.blind 1 fun _ _ => Twin.blind 2 fun _ _ => ?_
      rw [zone?_stops (.inl k.left_halts), zone?_stops (.inl k.right_halts)]
      exact .done name
    · refine Twin.blind 2 fun _ _ => ?_
      rw [zone?_stops (.inr (.inl k.left_halts)), zone?_stops (.inr (.inl k.right_halts))]
      exact .done name
    · rw [zone?_stops (.inr (.inr k.left_halts)), zone?_stops (.inr (.inr k.right_halts))]
      exact .done name
    · cases hzone : zone? a b c with
      | none => exact .done name
      | some zone =>
          exact Twin.skip [a, b, c] (zone?_inner hzone) (.done _) fun _ => Nat.zero_le _
  next => exact .done name

/-- A type takes at least its first word. -/
theorem twin_dataType : Twin k n [] (fun _ => 1) dataType dataType := by
  refine Twin.current ?_ fun a => ?_
  · rw [k.left_halts.identifier?]
    exact Twin.unexpected _
  · cases named : a.identifier? with
    | none => exact Twin.unexpected _
    | some first =>
        refine Twin.advance (ne_eof_of_identifier? named) ?_ fun _ => Nat.le_refl _
        refine (twin_typeName first).then fun name => twin_typeConfig.then fun config => ?_
        exact (twin_zonedName name).then fun _ => .done _

-- ======================================================== wildcards

/-- A wildcard stands before the boundary as a whole. -/
theorem wildcardAt?_stops {first second third : Kind} (star : first ≠ .symbol .star)
    (h : Halts second ∨ Halts third) : wildcardAt? first second third = none := by
  refine wildcardAt?_none star fun _ => ?_
  rintro ⟨rfl, rfl⟩
  rcases h with h | h
  · exact h.ne_dot rfl
  · exact h.ne_star rfl

/-- A star is a wildcard by itself, a name only with a point and a star behind
it. -/
theorem twin_wildcard? : Twin k n [] drawn wildcard? wildcard? := by
  unfold wildcard?
  refine Twin.current ?_ fun a => ?_
  · refine Twin.blind 1 fun _ _ => Twin.blind 2 fun _ _ => ?_
    rw [k.left_halts.wildcardAt?, k.right_halts.wildcardAt?]
    exact .pure none rfl
  by_cases star : a = .symbol .star
  · obtain rfl := star
    refine Twin.blind 1 fun _ _ => Twin.blind 2 fun _ _ => ?_
    exact Twin.skip [.symbol .star] (by simp) (.done (some _)) drawn_le
  refine Twin.second ?_ fun b => Twin.third ?_ fun c => ?_
  · refine Twin.blind 2 fun _ _ => ?_
    rw [wildcardAt?_stops star (.inl k.left_halts), wildcardAt?_stops star (.inl k.right_halts)]
    exact .pure none rfl
  · rw [wildcardAt?_stops star (.inr k.left_halts), wildcardAt?_stops star (.inr k.right_halts)]
    exact .pure none rfl
  · cases hfound : wildcardAt? a b c with
    | none => exact .pure none rfl
    | some found =>
        obtain ⟨wildcard, width⟩ := found
        obtain ⟨rfl, inner⟩ := wildcardAt?_inner star hfound
        refine Twin.skip [a, b, c] inner (.done (some wildcard)) fun found => ?_
        exact Nat.le_trans (drawn_le found) (Nat.le_add_left 1 2)

/-- No name in quotes stands at the boundary, the star among them. -/
theorem twin_noQuotedStar : Twin k n [] (fun _ => 0) noQuotedStar noQuotedStar := by
  refine Twin.current ?_ fun a => ?_
  · rw [if_neg (k.left_halts.ne_quoted _), if_neg (k.right_halts.ne_quoted _)]
    exact .done ()
  · split
    next => exact Twin.position fun _ _ => Twin.reject _ _ _
    next => exact .done ()

/-- Behind a point a name must follow, and one at the boundary would be taken.
-/
theorem twin_qualified (table : String) :
    Twin k n [] (fun _ => 1) (qualified table) (qualified table) := by
  refine twin_noQuotedStar.then fun _ => Twin.current ?_ fun a => ?_
  · cases named : (next k.left).anyName? with
    | none => exact Twin.unexpected _
    | some column => exact Twin.leave (ne_eof_of_anyName? named) (forward_pure _)
  · cases named : a.anyName? with
    | none => exact Twin.unexpected _
    | some column =>
        exact Twin.advance (ne_eof_of_anyName? named) (.done _) fun _ => Nat.le_refl _

-- =========================================================== nesting

/-- Without a `WHEN` there is no further arm. -/
theorem caseArms_stop {expr : Nat → Parser Expr} {s : State}
    (stop : (s.kindAt 0).keyword? ≠ some .WHEN) (count : Nat) :
    caseArms expr count s = .ok [] s := by
  cases count with
  | zero => rfl
  | succ count =>
      rw [caseArms, bind_apply, consumeKeyword_eq, current_bind, if_neg stop]
      rfl

/-- What ends an expression is no operator. -/
theorem extendAll_stop {expr : Nat → Parser Expr} {s : State} (stop : Halts (s.kindAt 0))
    (floor count : Nat) (left : Expr) :
    extendAll expr floor count left s = .ok left s := by
  cases count with
  | zero => rfl
  | succ count =>
      have none : extend? expr floor left s = .ok none s := by
        rw [extend?, current_bind, stop.postfixTier?]
        show (peek 0 >>= _) s = _
        rw [peek_bind, peek_bind, stop.connective]
        rfl
      rw [extendAll, bind_apply, none]
      rfl

section Productions

variable {expr expr' : Nat → Parser Expr} (course : ∀ mark floor, Course false mark (expr floor))
  (nested : ∀ (k : Fork) floor, Twin k n [] (fun _ => 1) (expr floor) (expr' floor))

include course nested

/-- Where lists are over, a list of expressions is read alike. -/
theorem twin_expressionList (closed : k.Closed) :
    Twin k n [] (fun _ => 1) (expressionList expr) (expressionList expr') :=
  twin_commaSeparated (nested k 0) (fun mark => course mark 0) closed fun _ => Nat.le_refl 1

omit course in
/-- What is seen behind a wildcard may stand at the boundary. It goes on with
no operand there, and behind an operator both ends count the same. -/
theorem twin_item : Twin k n [] (fun _ => 1) (item expr) (item expr') := by
  have misplaced {i j m : Nat} {known : List Kind} {least : Expr → Nat} :
      Twin k m known least
        (Grammar.position >>= fun here => reject .misplacedWildcard i here : Parser Expr)
        (Grammar.position >>= fun here => reject .misplacedWildcard j here) :=
    Twin.position fun _ _ => Twin.reject _ _ _
  refine Twin.position fun _ _ => ?_
  refine Twin.bind (l := fun found _ => 1 - drawn found) twin_wildcard? (fun found => ?_)
    fun found _ => by have := drawn_le found; omega
  cases found with
  | none => exact nested k 0
  | some wildcard =>
      refine Twin.current ?_ fun a => Twin.second ?_ fun b => ?_
      · refine Twin.blind 1 fun _ _ => ?_
        rw [k.left_halts.continuesOperand, k.right_halts.continuesOperand]
        exact .done wildcard
      · have same : continuesOperand a (next k.right) = continuesOperand a (next k.left) := by
          rw [continuesOperand, continuesOperand, k.left_halts.connective_next,
            k.right_halts.connective_next]
        rw [same]
        by_cases continues : continuesOperand a (next k.left) = true
        · rw [if_pos continues, if_pos continues]
          exact misplaced
        · rw [if_neg continues, if_neg continues]
          exact .done wildcard
      · by_cases continues : continuesOperand a b = true
        · rw [if_pos continues, if_pos continues]
          exact misplaced
        · rw [if_neg continues, if_neg continues]
          exact .done wildcard

/-- Before their closing parenthesis arguments are left out or read alike. -/
theorem twin_arguments (inside : k.Inside) :
    Twin k n [] (fun _ => 0) (arguments expr) (arguments expr') := by
  have items : Twin k n [] (fun _ => 1) (commaSeparated (item expr))
      (commaSeparated (item expr')) :=
    twin_commaSeparated (twin_item nested) (fun _ => course_item course) inside.closed
      fun _ => Nat.le_refl 1
  have split (expr : Nat → Parser Expr) : arguments expr = current >>= fun kind =>
      if (kind == .symbol .rightParen) = true then pure [] else commaSeparated (item expr) := rfl
  rw [split, split]
  refine Twin.current ?_ fun a => ?_
  · rw [inside.left, inside.right]
    exact .done []
  · split
    next => exact .done []
    next => exact (items.ease fun _ => Nat.zero_le 1).seen [a]

/-- The arguments are compared before their closing parenthesis. -/
theorem twin_call (function : Callee) :
    Twin k (n + 1) [] (fun _ => 1) (call expr function) (call expr' function) := by
  refine Twin.expect .leftParen (l := fun _ => 0) (fun _ _ => ?_) fun _ => Nat.le_refl 1
  have forward : Forward (arguments expr) := (course_arguments course : Course false 0 _).forward
  exact twin_enclosed forward (fun _ inside => (twin_arguments course nested inside).meets)
    fun _ _ _ => .done _

/-- So is a list, and a subquery is refused in either run. -/
theorem twin_inList : Twin k (n + 1) [] (fun _ => 1) (inList expr) (inList expr') := by
  refine Twin.expect .leftParen (l := fun _ => 0) (fun _ _ => ?_) fun _ => Nat.le_refl 1
  refine Twin.atKeyword .SELECT (k.free (by decide)) fun subquery => ?_
  cases subquery with
  | true => exact Twin.position fun _ _ => Twin.reject _ _ _
  | false =>
      have forward : Forward (expressionList expr) :=
        (course_expressionList course : Course false 0 _).forward
      refine twin_enclosed forward (fun _ inside => ?_) fun _ _ _ => .done _
      exact (twin_expressionList course nested inside.closed).meets

omit course in
/-- An expression in parentheses reaches its own closing parenthesis, and need
not be compared as enclosed. -/
theorem twin_parenthesized :
    Twin k (n + 1) [] (fun _ => 1) (parenthesized expr) (parenthesized expr') := by
  refine Twin.expect .leftParen (l := fun _ => 0) (fun _ _ => ?_) fun _ => Nat.le_refl 1
  refine Twin.atKeyword .SELECT (k.free (by decide)) fun subquery => ?_
  cases subquery with
  | true => exact Twin.position fun _ _ => Twin.reject _ _ _
  | false =>
      refine twin_wildcard?.then fun found => ?_
      cases found with
      | none =>
          refine (nested k 0).then fun inner => ?_
          exact Twin.expect .rightParen (fun _ _ => .done _) fun _ => Nat.zero_le 1
      | some wildcard =>
          -- whichever way it is refused
          refine Twin.never fun s e s' h => ?_
          obtain ⟨closed, t, -, h⟩ := bind_ok.1 h
          cases closed with
          | true => exact reject_ok.1 h
          | false => exact reject_ok.1 h

/-- What a name goes on with is no comma and nothing else that stands at an
end. -/
theorem twin_reference : Twin k (n + 1) [] (fun _ => 1) (reference expr) (reference expr') := by
  refine twin_noQuotedStar.then fun _ => twin_identifier.lead fun name => ?_
  refine Twin.current ?_ fun a => ?_
  · split
    next found => exact absurd found (k.left_halts.ne_symbol nofun nofun nofun)
    next found => exact absurd found (k.left_halts.ne_symbol nofun nofun nofun)
    next =>
      split
      next found => exact absurd found (k.right_halts.ne_symbol nofun nofun nofun)
      next found => exact absurd found (k.right_halts.ne_symbol nofun nofun nofun)
      next => exact .done _
  · have call : Twin k n [] (fun _ => 0) (call expr (.name name)) (call expr' (.name name)) :=
      ((twin_call course nested _).mono (Nat.le_succ n)).ease fun _ => Nat.zero_le 1
    cases a with
    | symbol mark =>
        cases mark with
        | leftParen => exact call.seen _
        | dot =>
            refine Twin.position fun _ _ => Twin.second ?_ fun b => ?_
            · rw [if_neg k.left_halts.ne_star, if_neg k.right_halts.ne_star]
              exact Twin.advance nofun (twin_qualified name) fun _ => Nat.zero_le _
            · split
              next => exact Twin.positionAt 1 fun _ _ => Twin.reject _ _ _
              next =>
                exact Twin.advance nofun ((twin_qualified name).seen [b]) fun _ => Nat.zero_le _
        | _ => exact .done _
    | _ => exact .done _

/-- Either run has a round for every token, and every arm takes some. -/
theorem twin_caseArms {i : Nat} (le : i ≤ n) {c d : Nat} (hc : i ≤ c) (hd : i ≤ d) :
    Twin k i [] (fun _ => 0) (caseArms expr c) (caseArms expr' d) := by
  induction i generalizing c d with
  | zero =>
      have stop {rest : List Kind} (stops : Halts (next rest)) (expr : Nat → Parser Expr)
          (count : Nat) (s : State) (hs : s.rest = rest) : caseArms expr count s = .ok [] s := by
        refine caseArms_stop ?_ count
        rw [State.kindAt_zero hs]
        exact stops.ne_keyword (by decide)
      exact Twin.still (course_caseArms course c).forward rfl (stop k.left_halts expr c)
        (stop k.right_halts expr' d)
  | succ i ih =>
      obtain ⟨c, rfl⟩ := Nat.exists_eq_add_of_le' (Nat.le_trans (Nat.succ_pos i) hc)
      obtain ⟨d, rfl⟩ := Nat.exists_eq_add_of_le' (Nat.le_trans (Nat.succ_pos i) hd)
      have le : i ≤ n := Nat.le_of_succ_le le
      have whenever : Twin k (i + 1) [] taken (consumeKeyword .WHEN) (consumeKeyword .WHEN) :=
        twin_consumeKeyword .WHEN (k.free (by decide))
      refine Twin.bind (l := fun _ _ => 0) whenever (fun found => ?_) fun _ _ => Nat.zero_le _
      cases found with
      | true =>
          have part := (nested k 0).mono le
          refine part.then fun condition => (twin_expectKeyword .THEN).then fun _ => ?_
          have tail := ih le (Nat.le_of_succ_le_succ hc) (Nat.le_of_succ_le_succ hd)
          exact part.then fun value => tail.then fun _ => .done _
      | false => exact .done []

omit course in
/-- The word `WHEN` stands at neither end. -/
theorem twin_caseOperand : Twin k n [] (fun _ => 0) (caseOperand expr) (caseOperand expr') := by
  refine Twin.atKeyword .WHEN (k.free (by decide)) fun found => ?_
  cases found with
  | true => exact .done none
  | false => exact (nested k 0).then fun _ => .done _

/-- A `CASE` is over with its `END`, before the boundary. -/
theorem twin_case : Twin k (n + 1) [] (fun _ => 1) (case expr) (case expr') := by
  refine (twin_expectKeyword .CASE).lead fun _ => ?_
  refine (twin_caseOperand nested).then fun operand => Twin.tokensLeft fun i le c d hc hd => ?_
  refine (twin_caseArms course nested le hc hd).then fun arms => ?_
  split
  next => exact Twin.unexpected _
  next =>
    refine (twin_clause ((nested k 0).mono le) .ELSE (k.free (by decide))).then fun otherwise => ?_
    exact (twin_expectKeyword .END).then fun _ => .done _

omit course in
/-- So is a conversion with its closing parenthesis. -/
theorem twin_cast : Twin k (n + 1) [] (fun _ => 1) (cast expr) (cast expr') := by
  refine (twin_expectKeyword .CAST).lead fun _ => ?_
  refine Twin.expect .leftParen (l := fun _ => 0) (fun _ _ => ?_) fun _ => Nat.zero_le 1
  refine ((nested k 0).mono (Nat.sub_le n 1)).then fun operand => ?_
  refine (twin_expectKeyword .AS).then fun _ => twin_dataType.then fun target => ?_
  exact Twin.expect .rightParen (fun _ _ => .done _) fun _ => Nat.zero_le 1

/-- A keyword is called like a function if a parenthesis is seen behind it, and
none stands at the boundary. -/
theorem twin_keywordOperand (word : String) (keyword : Keyword) :
    Twin k (n + 1) [.word word] (fun _ => 1)
      (peek 1 >>= fun second =>
        if keyword.isFunction = true ∧ second = .symbol .leftParen then
          Grammar.advance >>= fun _ => call expr (.keyword word)
        else if keyword.isReserved = true then unexpected "expression" else reference expr)
      (peek 1 >>= fun second =>
        if keyword.isFunction = true ∧ second = .symbol .leftParen then
          Grammar.advance >>= fun _ => call expr' (.keyword word)
        else if keyword.isReserved = true then unexpected "expression" else reference expr') := by
  have plain {m : Nat} (le : m ≤ n + 1) {known : List Kind} : Twin k m known (fun _ => 1)
      (if keyword.isReserved = true then unexpected "expression" else reference expr)
      (if keyword.isReserved = true then unexpected "expression" else reference expr') := by
    split
    next => exact Twin.unexpected _
    next => exact ((twin_reference course nested).mono le).seen known
  refine Twin.second ?_ fun b => ?_
  · have other {kind : Kind} (h : Halts kind) :
        ¬(keyword.isFunction = true ∧ kind = .symbol .leftParen) := by
      have plain := h.ne_leftParen
      exact fun found => plain found.2
    rw [if_neg (other k.left_halts), if_neg (other k.right_halts)]
    exact plain (Nat.le_add_left 1 n)
  · by_cases called : keyword.isFunction = true ∧ b = .symbol .leftParen
    · rw [if_pos called, if_pos called]
      have args : Twin k n [] (fun _ => 1) (call expr (.keyword word))
          (call expr' (.keyword word)) :=
        (twin_call course nested _).mono (Nat.le_succ n)
      exact Twin.advance nofun (args.seen [b]) fun _ => Nat.le_succ 1
    · rw [if_neg called, if_neg called]
      exact plain (Nat.le_refl _)

/-- A bare word is known, and with it the production that it starts. -/
theorem twin_wordOperand (word : String) :
    Twin k (n + 1) [.word word] (fun _ => 1) (wordOperand expr word) (wordOperand expr' word) := by
  have literal (value : Expr) : Twin k (n + 1) [.word word] (fun _ => 1)
      (literal value) (literal value) :=
    Twin.advance nofun (.done value) fun _ => Nat.le_refl 1
  unfold wordOperand
  cases hword : Keyword.ofWord? word with
  | none => exact (twin_reference course nested).seen _
  | some keyword =>
      cases keyword with
      | TRUE | FALSE | NULL => exact literal _
      | CASE => exact (twin_case course nested).seen _
      | CAST => exact (twin_cast nested).seen _
      | _ => exact twin_keywordOperand course nested word _

/-- The first token of an operand is known. -/
theorem twin_operand (a : Kind) :
    Twin k (n + 1) [a] (fun _ => 1) (operand expr) (operand expr') := by
  have forward : Forward (operand expr) := (course_operand course).forward
  unfold operand at forward ⊢
  refine Twin.here forward ?_
  cases a with
  | integer | numeric | string | parameter =>
      exact Twin.advance nofun (.done _) fun _ => Nat.le_refl 1
  | quoted name => exact (twin_reference course nested).seen _
  | word name => exact twin_wordOperand course nested name
  | eof => exact Twin.unexpected _
  | symbol mark =>
      cases mark with
      | leftParen => exact (twin_parenthesized nested).seen _
      | star => exact Twin.position fun _ _ => Twin.reject _ _ _
      | _ => exact Twin.unexpected _

/-- An expression starts before the boundary, since none starts with what ends
one. -/
theorem twin_prefixed : Twin k (n + 1) [] (fun _ => 1) (prefixed expr) (prefixed expr') := by
  refine Twin.starts (course_prefixed course).forward (fun s e s' hs => ?_) fun a => ?_
  · exact k.left_halts.not_opens (State.kindAt_zero hs)
  · cases hop : prefixOp? a with
    | none => exact twin_operand course nested a
    | some op =>
        have inner : a ≠ .eof := by
          rintro rfl
          cases hop
        refine Twin.advance (l := fun _ => 0) inner ?_ fun _ => Nat.le_refl 1
        exact (nested k op.tier.rank).then fun _ => .done _

omit course nested in
/-- The word behind `IS` stands before the boundary. -/
theorem twin_test (operand : Expr) :
    Twin k n [] (fun _ => 1) (test operand) (test operand) := by
  refine (twin_consumeKeyword .NOT (k.free (by decide))).then fun negated => ?_
  refine Twin.current ?_ fun a => ?_
  · cases hop : testOp? (next k.left).keyword? negated with
    | none => exact Twin.unexpected _
    | some op =>
        have inner : next k.left ≠ .eof := by
          intro eof
          rw [eof] at hop
          cases hop
        exact Twin.leave inner (forward_pure _)
  · cases hop : testOp? a.keyword? negated with
    | none => exact Twin.unexpected _
    | some op =>
        have inner : a ≠ .eof := by
          rintro rfl
          cases hop
        exact Twin.advance inner (.done _) fun _ => Nat.le_refl 1

omit course nested in
/-- A cast or a test takes at least the token that starts it. -/
theorem twin_applyPostfix (operand : Expr) :
    Twin k n [] (fun _ => 1) (applyPostfix operand) (applyPostfix operand) := by
  refine Twin.bind (l := fun found _ => 1 - taken found)
    (twin_consume .doubleColon nofun nofun nofun) (fun found => ?_)
    fun found _ => by have := taken_le found; omega
  cases found with
  | true => exact twin_dataType.then fun _ => .done _
  | false => exact (twin_expectKeyword .IS).then fun _ => twin_test operand

/-- What stands behind an operator is read up to its own end. -/
theorem twin_applyConnective (connective : Connective) (left : Expr) :
    Twin k n [] (fun _ => 0) (applyConnective expr connective left)
      (applyConnective expr' connective left) := by
  cases connective with
  | binary op => exact (nested k _).then fun _ => .done _
  | isIn negated =>
      exact ((twin_inList course nested).mono (Nat.le_succ n)).then fun _ => .done _
  | between negated =>
      refine (nested k _).then fun low => (twin_expectKeyword .AND).then fun _ => ?_
      exact (nested k _).then fun high => .done _

/-- What is read behind an operator, after its own tokens. -/
theorem twin_connective {known : List Kind} {connective : Connective} {left : Expr} (ks : List Kind)
    (width : connective.width = ks.length) (inner : .eof ∉ ks) (filled : ks ≠ []) {m : Nat}
    (le : m ≤ n + 1) :
    Twin k m (ks ++ known) drawn
      (skip connective.width >>= fun _ =>
        applyConnective expr connective left >>= fun longer => pure (some longer))
      (skip connective.width >>= fun _ =>
        applyConnective expr' connective left >>= fun longer => pure (some longer)) := by
  have some_token : 1 ≤ ks.length := List.length_pos_iff.2 filled
  rw [width]
  refine Twin.skip (l := fun _ => 0) ks inner ?_ fun found => ?_
  · have rest := (twin_applyConnective (k := k) course nested connective left).then
      fun longer => .done (some longer)
    exact (rest.mono (by omega)).seen known
  · exact Nat.le_trans (drawn_le found) (Nat.le_trans some_token (Nat.le_add_left _ _))

/-- An operator of two tokens stands before the boundary as a whole, and one of
one token is the same one before either end. -/
theorem twin_extend? (floor : Nat) (left : Expr) :
    Twin k n [] drawn (extend? expr floor left) (extend? expr' floor left) := by
  have nothing {m : Nat} {known : List Kind} :
      Twin k m known drawn (pure none : Parser (Option Expr)) (pure none) :=
    .pure none rfl
  rw [extend?_eq, extend?_eq]
  refine Twin.current ?_ fun a => ?_
  · rw [k.left_halts.postfixTier?, k.right_halts.postfixTier?]
    refine Twin.blind 1 fun _ _ => ?_
    rw [k.left_halts.connective, k.right_halts.connective]
    exact nothing
  cases postfixTier? a with
  | some tier =>
      simp only
      split
      next => exact nothing
      next =>
        have longer := (twin_applyPostfix (k := k) (n := n) left).bind (l := fun _ _ => 0)
          (fun longer => .done (some longer)) fun _ found => drawn_le found
        exact longer.seen [a]
  | none =>
      refine Twin.second ?_ fun b => ?_
      · rw [k.left_halts.connective_next, k.right_halts.connective_next]
        cases hfound : Connective.at? a .eof with
        | none => exact nothing
        | some connective =>
            obtain ⟨inner, width | ⟨-, eof⟩⟩ := Connective.inner_of_at? hfound
            · simp only
              split
              next => exact nothing
              next =>
                exact twin_connective course nested [a] width (by simpa using inner.symm) nofun
                  (Nat.le_add_left 1 n)
            · exact absurd rfl eof
      · cases hfound : Connective.at? a b with
        | none => exact nothing
        | some connective =>
            simp only
            split
            next => exact nothing
            next =>
              obtain ⟨inner, width | ⟨width, inner'⟩⟩ := Connective.inner_of_at? hfound
              · exact twin_connective course nested [a] width (by simpa using inner.symm) nofun
                  (Nat.le_succ n)
              · exact twin_connective course nested [a, b] width
                  (by simpa using ⟨inner.symm, inner'.symm⟩) nofun (Nat.le_succ n)

/-- Either run has a round for every token, and every operator takes some. -/
theorem twin_extendAll (floor : Nat) {i : Nat} (le : i ≤ n) {c d : Nat} (hc : i ≤ c) (hd : i ≤ d)
    (left : Expr) :
    Twin k i [] (fun _ => 0) (extendAll expr floor c left) (extendAll expr' floor d left) := by
  induction i generalizing c d left with
  | zero =>
      have stop {rest : List Kind} (stops : Halts (next rest)) (expr : Nat → Parser Expr)
          (count : Nat) (s : State) (hs : s.rest = rest) :
          extendAll expr floor count left s = .ok left s := by
        refine extendAll_stop ?_ floor count left
        rw [State.kindAt_zero hs]
        exact stops
      exact Twin.still (course_extendAll course floor c left).forward rfl
        (stop k.left_halts expr c) (stop k.right_halts expr' d)
  | succ i ih =>
      obtain ⟨c, rfl⟩ := Nat.exists_eq_add_of_le' (Nat.le_trans (Nat.succ_pos i) hc)
      obtain ⟨d, rfl⟩ := Nat.exists_eq_add_of_le' (Nat.le_trans (Nat.succ_pos i) hd)
      have round := (twin_extend? (k := k) course nested floor left).mono le
      refine Twin.bind (l := fun _ _ => 0) round (fun found => ?_) fun _ _ => Nat.zero_le _
      cases found with
      | none => exact .done left
      | some longer =>
          exact ih (Nat.le_of_succ_le le) (Nat.le_of_succ_le_succ hc)
            (Nat.le_of_succ_le_succ hd) longer

end Productions

-- =========================================================== the knot

/-- Bounds that suffice for the tokens do not show. -/
theorem twin_expressionWithin {bound bound' : Nat} (left : n ≤ bound) (right : n ≤ bound')
    (floor : Nat) :
    Twin k n [] (fun _ => 1) (expressionWithin bound floor) (expressionWithin bound' floor) := by
  induction n generalizing k bound bound' floor with
  | zero =>
      refine Twin.away (course_expressionWithin bound floor : Course false 0 _).forward ?_
      intro s e s' hs h
      cases bound with
      | zero => exact (unexpected_ok.1 h).elim
      | succ bound =>
          obtain ⟨first, t, hfirst, -⟩ := bind_ok.1 h
          exact absurd hfirst (k.left_halts.not_opens (State.kindAt_zero hs))
  | succ n ih =>
      obtain ⟨bound, rfl⟩ := Nat.exists_eq_add_of_le' (Nat.le_trans (Nat.succ_pos n) left)
      obtain ⟨bound', rfl⟩ := Nat.exists_eq_add_of_le' (Nat.le_trans (Nat.succ_pos n) right)
      have left := Nat.le_of_succ_le_succ left
      have right := Nat.le_of_succ_le_succ right
      have course : ∀ mark floor, Course false mark (expressionWithin bound floor) :=
        fun _ floor => course_expressionWithin bound floor
      have nested (k : Fork) (floor : Nat) : Twin k n [] (fun _ => 1)
          (expressionWithin bound floor) (expressionWithin bound' floor) :=
        ih left right floor
      refine (twin_prefixed course nested).lead fun first => ?_
      exact twin_extendAll course nested floor (Nat.le_refl n) left right first

/-- An expression starts with the number of tokens left as its bound. -/
theorem twin_expression (floor : Nat) :
    Twin k n [] (fun _ => 1) (expression floor) (expression floor) :=
  Twin.tokensLeft fun _ _ _ _ left right => twin_expressionWithin left right floor

end SqlSelect.Grammar
