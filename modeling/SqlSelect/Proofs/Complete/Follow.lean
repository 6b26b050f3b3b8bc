/-
What may follow an expression, and what it starts with.

An expression is read up to a token that goes on with it neither as an
operand nor as an operator that binds tightly enough. `Follows floor rest`
says so of the tokens behind it. What an expression starts with matters
where the grammar looks ahead for something else, a wildcard, a statement
or a clause; it is read off from the success of the parser.

# Behind an expression

Two things are asked of the token behind an expression: that no operand goes
on with it (`Kind.separates`), and that no operator of the tier or above starts
there (`nextTier?`). Keywords and marks are gone through once, and what each
clause needs is read off (`Follows.keyword`, `Follows.symbol`).

# Before an expression

What `Opens` says is that nothing starts here that the grammar would try in
place of an expression. That comes for free wherever the parser has read an
expression (`Reads.opens`), so no lemma lists what an expression may start
with.
-/
import SqlSelect.Proofs.Reading
import SqlSelect.Proofs.Sound.Expr

namespace SqlSelect

/-- Whether the token ends an operand. A parenthesis makes a name a call or
a type longer, a dot makes a name a table, and some words go on with the
name of a type. -/
def Kind.separates : Kind → Bool
  | .eof => true
  | .symbol mark => mark != .leftParen && mark != .dot
  | .word name => (Keyword.ofWord? name).any (· != .WITH)
  | _ => false

theorem Keyword.separates_kind {keyword : Keyword} (h : keyword ≠ .WITH) :
    keyword.kind.separates = true := by
  show (Keyword.ofWord? keyword.word).any (· != .WITH) = true
  rw [Keyword.ofWord?_word]
  simpa using h

/-- Whether an expression can start with the keyword. -/
def Keyword.startsExpression (keyword : Keyword) : Bool :=
  !keyword.isReserved || [.NOT, .TRUE, .FALSE, .NULL, .CASE, .CAST].contains keyword

theorem Tier.rank_inj {a b : Tier} (h : a.rank = b.rank) : a = b := by
  cases a <;> cases b <;> first | rfl | cases h

namespace Grammar

/-- The tier of the operator that the tokens start with behind an
operand. -/
def nextTier? (rest : List Kind) : Option Tier :=
  match postfixTier? (next rest) with
  | some tier => some tier
  | none => (Connective.at? (next rest) (rest.getD 1 .eof)).map Connective.tier

/-- The tokens behind an expression end it: no operator of at least the
rank `floor` stands there. -/
structure Follows (floor : Nat) (rest : List Kind) : Prop where
  separates : (next rest).separates = true
  looser : ∀ tier, nextTier? rest = some tier → tier.rank < floor

namespace Follows

variable {floor : Nat} {rest : List Kind}

theorem mono {higher : Nat} (h : Follows floor rest) (le : floor ≤ higher) : Follows higher rest :=
  ⟨h.separates, fun tier htier => Nat.lt_of_lt_of_le (h.looser tier htier) le⟩

theorem of_none (separates : (next rest).separates = true) (h : nextTier? rest = none) :
    Follows floor rest :=
  ⟨separates, by rw [h]; nofun⟩

theorem ne_leftParen (h : Follows floor rest) : next rest ≠ .symbol .leftParen := by
  intro here
  have := h.separates
  rw [here] at this
  cases this

theorem ne_dot (h : Follows floor rest) : next rest ≠ .symbol .dot := by
  intro here
  have := h.separates
  rw [here] at this
  cases this

/-- A word that is no keyword ends nothing, and neither does `WITH`. -/
theorem ne_word (h : Follows floor rest) {name : String}
    (other : (Keyword.ofWord? name).any (· != .WITH) = false) : next rest ≠ .word name := by
  intro here
  have := h.separates
  rw [here] at this
  exact absurd (this.symm.trans other) nofun

/-- A symbol that is no operator ends every expression. -/
theorem symbol {mark : Symbol} (plain : (Kind.symbol mark).separates = true)
    (post : postfixTier? (.symbol mark) = none)
    (between : Connective.ofSymbol? mark = none) :
    Follows floor (.symbol mark :: rest) := by
  refine of_none plain ?_
  have here : next (.symbol mark :: rest) = .symbol mark := rfl
  unfold nextTier?
  rw [here, post, Connective.at?, between]
  rfl

theorem comma : Follows floor (.symbol .comma :: rest) := symbol rfl rfl rfl

theorem rightParen : Follows floor (.symbol .rightParen :: rest) := symbol rfl rfl rfl

theorem semicolon : Follows floor (.symbol .semicolon :: rest) := symbol rfl rfl rfl

theorem eof : Follows floor (.eof :: rest) := of_none rfl rfl

/-- Where the end of a list may stand, so may a comma. -/
theorem inList {later : List Kind} (h : Follows floor rest)
    (hlater : later = rest ∨ next later = .symbol .comma) : Follows floor later :=
  of_end_or_comma h (fun _ => comma) hlater

end Follows

theorem postfixTier?_keyword (keyword : Keyword) :
    postfixTier? keyword.kind = if keyword = .IS then some .test else none := by
  have word : postfixTier? keyword.kind
      = if keyword.kind.keyword? = some .IS then some .test else none := by
    unfold postfixTier?
    split
    next heq => cases heq
    next => rfl
  rw [word, Keyword.keyword?_kind]
  simp only [Option.some.injEq]

theorem Connective.at?_keyword (keyword : Keyword) (behind : Kind) :
    at? keyword.kind behind = ofKeyword? keyword behind.keyword? := by
  have word : at? keyword.kind behind
      = keyword.kind.keyword?.bind (ofKeyword? · behind.keyword?) := by
    unfold at?
    split
    next heq => cases heq
    next => rfl
  rw [word, Keyword.keyword?_kind]
  rfl

theorem prefixOp?_keyword (keyword : Keyword) :
    prefixOp? keyword.kind = if keyword = .NOT then some .not else none := by
  have word : prefixOp? keyword.kind
      = if keyword.kind.keyword? = some .NOT then some .not else none := by
    unfold prefixOp?
    split
    next heq => cases heq
    next heq => cases heq
    next => rfl
  rw [word, Keyword.keyword?_kind]
  simp only [Option.some.injEq]

/-- The operator that a keyword starts behind an operand. -/
theorem nextTier?_keyword (keyword : Keyword) (rest : List Kind) :
    nextTier? (keyword.kind :: rest) = if keyword = .IS then some .test
      else (Connective.ofKeyword? keyword (next rest).keyword?).map Connective.tier := by
  have here : next (keyword.kind :: rest) = keyword.kind := rfl
  unfold nextTier?
  rw [here, postfixTier?_keyword, Connective.at?_keyword]
  by_cases test : keyword = .IS
  · rw [if_pos test, if_pos test]
  · rw [if_neg test, if_neg test]
    rfl

/-- A keyword that is no operator ends every expression. -/
theorem Follows.keyword (keyword : Keyword) {floor : Nat} {rest : List Kind}
    (plain : keyword ≠ .WITH) (test : keyword ≠ .IS)
    (none : ∀ behind, Connective.ofKeyword? keyword behind = none) :
    Follows floor (keyword.kind :: rest) := by
  refine .of_none (Keyword.separates_kind plain) ?_
  rw [nextTier?_keyword, if_neg test, none]
  rfl

/-- `IS` ends what binds no less tightly. -/
theorem Follows.test {rest : List Kind} :
    Follows (Tier.test.rank + 1) (Keyword.IS.kind :: rest) := by
  refine ⟨Keyword.separates_kind nofun, fun tier htier => ?_⟩
  rw [nextTier?_keyword, if_pos rfl] at htier
  cases htier
  exact Nat.lt_succ_self _

/-- So does a cast. -/
theorem Follows.cast {rest : List Kind} :
    Follows (Tier.cast.rank + 1) (.symbol .doubleColon :: rest) := by
  refine ⟨rfl, fun tier htier => ?_⟩
  cases htier
  exact Nat.lt_succ_self _

/-- The `AND` of a range ends its first bound. -/
theorem Follows.and {rest : List Kind} :
    Follows (Tier.pattern.rank + 1) (Keyword.AND.kind :: rest) := by
  refine ⟨Keyword.separates_kind nofun, fun tier htier => ?_⟩
  rw [nextTier?_keyword, if_neg nofun] at htier
  cases htier
  decide

-- ======================================================== operators

namespace Connective

/-- A connective that the grammar reads: a membership test has its own
form. -/
def IsRead (c : Connective) : Prop := c ≠ .binary .isIn ∧ c ≠ .binary .notIn

/-- An operator is spelled by a symbol, by a keyword, or by a keyword
behind `NOT`. -/
theorem marks_cases {c : Connective} (read : c.IsRead) :
    (∃ mark, c.marks = [.symbol mark] ∧ ofSymbol? mark = some c ∧ c.width = 1)
      ∨ (∃ word, c.marks = [.keyword word] ∧ word ≠ .IS ∧ word ≠ .WITH ∧ c.width = 1
        ∧ ∀ behind, ofKeyword? word behind = some c)
      ∨ ∃ word, c.marks = [.keyword .NOT, .keyword word] ∧ c.width = 2
        ∧ ofKeyword? .NOT (some word) = some c := by
  cases c with
  | binary op =>
      cases op
      case isIn => exact absurd rfl read.1
      case notIn => exact absurd rfl read.2
      case and | or | like | ilike =>
        exact Or.inr (Or.inl ⟨_, rfl, nofun, nofun, rfl, fun _ => rfl⟩)
      case notLike | notIlike => exact Or.inr (Or.inr ⟨_, rfl, rfl, rfl⟩)
      all_goals exact Or.inl ⟨_, rfl, rfl, rfl⟩
  | isIn negated =>
      cases negated
      case false => exact Or.inr (Or.inl ⟨_, rfl, nofun, nofun, rfl, fun _ => rfl⟩)
      case true => exact Or.inr (Or.inr ⟨_, rfl, rfl, rfl⟩)
  | between negated =>
      cases negated
      case false => exact Or.inr (Or.inl ⟨_, rfl, nofun, nofun, rfl, fun _ => rfl⟩)
      case true => exact Or.inr (Or.inr ⟨_, rfl, rfl, rfl⟩)

/-- The marks of an operator are read as that operator. -/
theorem at?_marks {c : Connective} (read : c.IsRead) (rest : List Kind) :
    at? (next (Mark.kinds c.marks ++ rest)) ((Mark.kinds c.marks ++ rest).getD 1 .eof)
      = some c := by
  rcases marks_cases read with ⟨mark, marks, spelled, -⟩ | ⟨word, marks, -, -, -, spelled⟩
    | ⟨word, marks, -, spelled⟩
  · rw [marks]
    exact spelled
  · rw [marks]
    exact (at?_keyword word _).trans (spelled _)
  · rw [marks]
    refine (at?_keyword .NOT _).trans ?_
    rw [← spelled, ← word.keyword?_kind]
    rfl

/-- An operator between operands is none behind its operand. -/
theorem postfixTier?_marks {c : Connective} (read : c.IsRead) (rest : List Kind) :
    postfixTier? (next (Mark.kinds c.marks ++ rest)) = none := by
  rcases marks_cases read with ⟨mark, marks, spelled, -⟩ | ⟨word, marks, test, -, -, -⟩
    | ⟨word, marks, -, -⟩
  · rw [marks]
    cases mark
    case doubleColon => cases spelled
    all_goals rfl
  · rw [marks]
    exact (postfixTier?_keyword word).trans (if_neg test)
  · rw [marks]
    exact (postfixTier?_keyword .NOT).trans (if_neg nofun)

theorem length_marks {c : Connective} (read : c.IsRead) :
    (Mark.kinds c.marks).length = c.width := by
  rcases marks_cases read with ⟨mark, marks, -, width⟩ | ⟨word, marks, -, -, width, -⟩
    | ⟨word, marks, width, -⟩
  all_goals
    rw [marks, width]
    rfl

theorem length_marks_pos (c : Connective) : 0 < (Mark.kinds c.marks).length := by
  cases c with
  | binary op => cases op <;> exact Nat.zero_lt_succ _
  | isIn negated => cases negated <;> exact Nat.zero_lt_succ _
  | between negated => cases negated <;> exact Nat.zero_lt_succ _

/-- Behind an operand an operator stands where its tier is looked for. -/
theorem follows_marks {c : Connective} (read : c.IsRead) {floor : Nat} (low : c.tier.rank < floor)
    (rest : List Kind) : Follows floor (Mark.kinds c.marks ++ rest) := by
  refine ⟨?_, ?_⟩
  · rcases marks_cases read with ⟨mark, marks, spelled, -⟩ | ⟨word, marks, -, plain, -⟩
      | ⟨word, marks, -, -⟩
    · rw [marks]
      cases mark
      case leftParen | dot => cases spelled
      all_goals rfl
    · rw [marks]
      exact Keyword.separates_kind plain
    · rw [marks]
      exact Keyword.separates_kind nofun
  · intro tier htier
    unfold nextTier? at htier
    rw [postfixTier?_marks read, at?_marks read] at htier
    cases htier
    exact low

end Connective

/-- An operator between operands is looser than a sign, and no negation. -/
theorem Connective.tier_plain (c : Connective) :
    c.tier.rank < Tier.sign.rank ∧ c.tier ≠ .negation := by
  have pattern : Tier.pattern.rank < Tier.sign.rank := by decide
  cases c with
  | binary op => cases op <;> decide
  | isIn negated => exact ⟨pattern, nofun⟩
  | between negated => exact ⟨pattern, nofun⟩

/-- What goes on with an operand is a cast, a test or an operator between
operands. -/
theorem nextTier?_cases {rest : List Kind} {tier : Tier} (h : nextTier? rest = some tier) :
    (next rest = .symbol .doubleColon ∧ tier = .cast) ∨ tier = .test
      ∨ ∃ c : Connective, tier = c.tier := by
  unfold nextTier? at h
  cases hpost : postfixTier? (next rest) with
  | some found =>
      rw [hpost] at h
      obtain rfl := Option.some.inj h
      unfold postfixTier? at hpost
      split at hpost
      next here => exact Or.inl ⟨here, (Option.some.inj hpost).symm⟩
      next =>
        split at hpost
        next => exact Or.inr (Or.inl (Option.some.inj hpost).symm)
        next => cases hpost
  | none =>
      rw [hpost] at h
      obtain ⟨c, -, tier⟩ := Option.map_eq_some_iff.1 h
      exact Or.inr (Or.inr ⟨c, tier.symm⟩)

/-- No operator behind an operand is of a tier of prefix operators. -/
theorem nextTier?_ne_prefix {rest : List Kind} {tier : Tier} (h : nextTier? rest = some tier) :
    tier ≠ .sign ∧ tier ≠ .negation := by
  rcases nextTier?_cases h with ⟨-, rfl⟩ | rfl | ⟨c, rfl⟩
  · exact ⟨nofun, nofun⟩
  · exact ⟨nofun, nofun⟩
  · obtain ⟨loose, plain⟩ := c.tier_plain
    refine ⟨fun sign => ?_, plain⟩
    rw [sign] at loose
    exact Nat.lt_irrefl _ loose

/-- Behind the operand of a prefix operator an operator of its own tier
would be as good as none, for there is none. -/
theorem Follows.of_prefix {op : UnaryOp} {rest : List Kind} (before : op.isPrefix = true)
    (h : Follows (op.tier.rank + 1) rest) : Follows op.tier.rank rest := by
  refine ⟨h.separates, fun tier htier => ?_⟩
  have le := Nat.le_of_lt_succ (h.looser tier htier)
  refine Nat.lt_of_le_of_ne le fun same => ?_
  obtain rfl := Tier.rank_inj same
  obtain ⟨sign, negation⟩ := nextTier?_ne_prefix htier
  cases op with
  | neg | plus => exact sign rfl
  | not => exact negation rfl
  | _ => cases before

-- ============================================================ starts

/-- What every expression starts with: no wildcard, no closing parenthesis
and none of the keywords of a clause. -/
structure Opens (rest : List Kind) : Prop where
  noWildcard : wildcardAt? (next rest) (rest.getD 1 .eof) (rest.getD 2 .eof) = none
  ne_rightParen : next rest ≠ .symbol .rightParen
  keyword : ∀ word, (next rest).keyword? = some word → word.startsExpression = true

/-- Three tokens without a name before a dotted star start no wildcard. -/
theorem wildcardAt?_none {first second third : Kind} (star : first ≠ .symbol .star)
    (dotted : first.identifier?.isSome → ¬(second = .symbol .dot ∧ third = .symbol .star)) :
    wildcardAt? first second third = none := by
  unfold wildcardAt?
  rw [if_neg star]
  split
  next here =>
    cases hname : first.identifier? with
    | none => rfl
    | some name => exact absurd here (dotted (by rw [hname]; rfl))
  next => rfl

theorem Moves.kindAt {s t : State} {ks : List Kind} (m : Moves s ks t) (i : Nat) :
    s.kindAt (ks.length + i) = t.kindAt i := by
  unfold State.kindAt
  rw [m.rest, List.getD_eq_getElem?_getD, List.getElem?_append_right (Nat.le_add_right _ _),
    Nat.add_sub_cancel_left, List.getD_eq_getElem?_getD]

section Starts

variable {expr : Nat → Parser Expr} {s s' : State} {e : Expr}

/-- A reference is not followed by a dotted star. -/
theorem not_dotted_of_reference (h : reference expr s = .ok e s') :
    ¬(s.kindAt 1 = .symbol .dot ∧ s.kindAt 2 = .symbol .star) := by
  rintro ⟨dot, star⟩
  unfold reference at h
  obtain ⟨_, t, hstar, h₁⟩ := bind_ok.1 h
  obtain ⟨rfl, -⟩ := noQuotedStar_ok hstar
  obtain ⟨name, u, hname, h₂⟩ := bind_ok.1 h₁
  obtain ⟨k, -, -, m⟩ := identifier_ok hname
  have here : u.kindAt 0 = .symbol .dot := (m.kindAt 0).symm.trans dot
  have behind : u.kindAt 1 = .symbol .star := (m.kindAt 1).symm.trans star
  rw [current_bind] at h₂
  simp only [here] at h₂
  rw [position_bind, peek_bind, if_pos behind] at h₂
  exact reject_ok.1 h₂

/-- A word that is read as an operand is a keyword that can start one, or
a name that no dotted star follows. -/
theorem opens_of_word {name : String} (here : s.kindAt 0 = .word name)
    (starts : ∀ word, Keyword.ofWord? name = some word → word.startsExpression = true)
    (dotted : (Keyword.ofWord? name).any Keyword.isReserved = false →
      ¬(s.kindAt 1 = .symbol .dot ∧ s.kindAt 2 = .symbol .star)) : Opens s.rest := by
  change next s.rest = _ at here
  refine ⟨wildcardAt?_none ?_ ?_, ?_, ?_⟩
  · rw [here]
    exact nofun
  · rw [here]
    intro isName
    refine dotted ?_
    cases reserved : (Keyword.ofWord? name).any Keyword.isReserved with
    | false => rfl
    | true =>
        change (if (Keyword.ofWord? name).any Keyword.isReserved then none
          else some name).isSome = true at isName
        rw [reserved] at isName
        cases isName
  · rw [here]
    exact nofun
  · rw [here]
    exact starts

theorem opens_of_wordOperand {name : String} (here : s.kindAt 0 = .word name)
    (h : wordOperand expr name s = .ok e s') : Opens s.rest := by
  unfold wordOperand at h
  cases spelled : Keyword.ofWord? name with
  | none =>
      rw [spelled] at h
      refine opens_of_word here ?_ fun _ => not_dotted_of_reference h
      rw [spelled]
      exact nofun
  | some keyword =>
      have only : ∀ {P : Keyword → Prop}, P keyword →
          ∀ word, Keyword.ofWord? name = some word → P word := by
        intro P hP word hword
        rw [spelled] at hword
        exact Option.some.inj hword ▸ hP
      have fixed : keyword.startsExpression = true → keyword.isReserved = true →
          Opens s.rest := by
        intro starts reserved
        refine opens_of_word here (only starts) fun free => ?_
        rw [spelled] at free
        exact absurd (reserved.symm.trans free) nofun
      have function : (do
          if keyword.isFunction ∧ (← peek 1) = .symbol .leftParen then
            advance
            call expr (.keyword name)
          else if keyword.isReserved then unexpected "expression"
          else reference expr : Parser Expr) s = .ok e s' → Opens s.rest := by
        intro h
        rw [peek_bind] at h
        split at h
        next calls =>
          have starts : keyword.startsExpression = true := by
            have := calls.1
            cases keyword <;> first | rfl | cases this
          refine opens_of_word here (only starts) fun _ dotted => ?_
          exact absurd (calls.2.symm.trans dotted.1) nofun
        next =>
          split at h
          next => exact (unexpected_ok.1 h).elim
          next free =>
            have starts : keyword.startsExpression = true := by
              simp [Keyword.startsExpression, free]
            exact opens_of_word here (only starts) fun _ => not_dotted_of_reference h
      rw [spelled] at h
      cases keyword with
      | TRUE | FALSE | NULL | CASE | CAST => exact fixed rfl rfl
      | _ => exact function h

/-- A token that is no word, no name, no star and no closing parenthesis
starts nothing but an expression. -/
theorem opens_of_plain {k : Kind} (here : s.kindAt 0 = k) (star : k ≠ .symbol .star)
    (close : k ≠ .symbol .rightParen) (name : k.identifier? = none) (word : k.keyword? = none) :
    Opens s.rest := by
  change next s.rest = k at here
  refine ⟨wildcardAt?_none (here ▸ star) ?_, here ▸ close, ?_⟩
  · rw [here, name]
    exact nofun
  · rw [here, word]
    exact nofun

/-- An operand that is read does not start like something else. -/
theorem opens_of_operand (h : operand expr s = .ok e s') : Opens s.rest := by
  unfold operand at h
  rw [current_bind] at h
  cases here : s.kindAt 0 with
  | integer | numeric | string | parameter => exact opens_of_plain here nofun nofun rfl rfl
  | word name =>
      rw [here] at h
      exact opens_of_wordOperand here h
  | quoted name =>
      rw [here] at h
      have dotted := not_dotted_of_reference h
      change next s.rest = _ at here
      refine ⟨wildcardAt?_none (here ▸ nofun) fun _ => dotted, here ▸ nofun, ?_⟩
      rw [here]
      exact nofun
  | symbol mark =>
      rw [here] at h
      cases mark with
      | leftParen => exact opens_of_plain here nofun nofun rfl rfl
      | star => exact (reject_ok.1 h).elim
      | _ => exact (unexpected_ok.1 h).elim
  | eof =>
      rw [here] at h
      exact (unexpected_ok.1 h).elim

theorem opens_of_prefixed (h : prefixed expr s = .ok e s') : Opens s.rest := by
  unfold prefixed at h
  rw [current_bind] at h
  cases hop : prefixOp? (s.kindAt 0) with
  | none =>
      rw [hop] at h
      exact opens_of_operand h
  | some op =>
      unfold prefixOp? at hop
      split at hop
      next here => exact opens_of_plain here nofun nofun rfl rfl
      next here => exact opens_of_plain here nofun nofun rfl rfl
      next =>
        split at hop
        next word =>
          cases here : s.kindAt 0 with
          | word name =>
              rw [here] at word
              change Keyword.ofWord? name = _ at word
              refine opens_of_word here ?_ ?_
              · rintro _ found
                rw [word] at found
                obtain rfl := Option.some.inj found
                rfl
              · rw [word]
                exact nofun
          | _ =>
              rw [here] at word
              cases word
        next => cases hop

end Starts

theorem opens_of_expressionWithin {bound floor : Nat} {s s' : State} {e : Expr}
    (h : expressionWithin bound floor s = .ok e s') : Opens s.rest := by
  cases bound with
  | zero => exact (unexpected_ok.1 h).elim
  | succ bound =>
      rw [expressionWithin] at h
      obtain ⟨left, t, hleft, -⟩ := bind_ok.1 h
      exact opens_of_prefixed hleft

/-- What is read as an expression starts like one. -/
theorem Reads.opens {bound floor : Nat} {ks rest : List Kind} {e : Expr}
    (h : Reads (expressionWithin bound floor) ks rest e) : Opens (ks ++ rest) := by
  obtain ⟨s', -, -, hread⟩ :=
    h { position := 0, rest := ks ++ rest, trial := false, events := [] } rfl
  exact opens_of_expressionWithin hread

end Grammar

end SqlSelect
