/-
Minus signs before whole numbers.

A sign before a number goes into it, and the number that comes out may get
a sign again, through parentheses or without. Of the whole numbers only the
least has no opposite. It is no token of a text, since numbers come without
a sign, and no opposite leads there: so the numbers that expressions of a
text are read as are `Balanced`, no opposite overflows, and the guard of
`applyPrefix` is never needed.

A number is read through all the signs before it up to what binds more
tightly than a sign, which is a cast and nothing else. What follows the
number needs to separate nothing, so this is no case of `Follows`.
-/
import Mathlib.Algebra.Group.Int.Defs
import SqlSelect.Proofs.Complete.Expr
import SqlSelect.Proofs.Parts

namespace SqlSelect

-- ======================================================== the range

/-- A whole number that has an opposite. -/
def Balanced (value : Int64) : Prop :=
  -(2 ^ 63 - 1) ≤ value.toInt ∧ value.toInt ≤ 2 ^ 63 - 1

/-- All but the least have one. -/
theorem balanced_iff {value : Int64} : Balanced value ↔ value ≠ Int64.minValue := by
  have low : -2 ^ 63 ≤ value.toInt := value.le_toInt
  have high : value.toInt < 2 ^ 63 := value.toInt_lt
  have least : value.toInt = -2 ^ 63 ↔ value = Int64.minValue :=
    Int64.toInt_inj (x := value) (y := Int64.minValue)
  rw [Ne, ← least]
  unfold Balanced
  omega

namespace Balanced

variable {value : Int64}

theorem of_nonneg (h : 0 ≤ value) : Balanced value :=
  balanced_iff.2 (Grammar.ne_minValue_of_nonneg h)

/-- The opposite as the machine computes it is the opposite. -/
theorem toInt_neg (h : Balanced value) : (-value).toInt = -value.toInt :=
  Grammar.toInt_neg (balanced_iff.1 h)

theorem neg (h : Balanced value) : Balanced (-value) :=
  balanced_iff.2 (Grammar.neg_ne_minValue (balanced_iff.1 h))

end Balanced

namespace Grammar

section Steps

variable {s s' : State} {bound floor : Nat} {e : Expr}

-- ========================================================= negation

/-- A number that an expression of a text is read as has an opposite. -/
theorem balanced_of_expressionWithin {value : Int64} (hs : s.Lexed)
    (h : expressionWithin bound floor s = .ok (.integer value) s') : Balanced value := by
  obtain ⟨ks, m, yields⟩ := passes_expressionWithin bound floor hs h
  exact balanced_iff.2 (ne_minValue_of_yields yields (m.lexed_kinds hs) rfl)

/-- The guard against the least number lets all others through. -/
theorem applyPrefix_integer {value : Int64} (balanced : Balanced value) :
    applyPrefix .neg (.integer value) = .integer (-value) :=
  if_neg (balanced_iff.1 balanced)

/-- A sign stays before what is no number. -/
theorem applyPrefix_kept (kept : e.isNumber = false) : applyPrefix .neg e = .unary .neg e := by
  cases e with
  | integer | numeric => cases kept
  | _ => rfl

/-- A minus sign is applied to what is read behind it. -/
theorem prefixed_minus {expr : Nat → Parser Expr} (here : s.kindAt 0 = .symbol .minus)
    (h : expr Tier.sign.rank s.advance = .ok e s') :
    prefixed expr s = .ok (applyPrefix .neg e) s' := by
  unfold prefixed
  rw [current_bind, here]
  show (expr Tier.sign.rank >>= fun operand => pure (applyPrefix .neg operand)) s.advance = _
  rw [bind_apply, h]
  rfl

-- ======================================================== row counts

/-- A row count with a sign is zero, or it is refused with its sign. -/
theorem rowCount_minus {n : Int64} (sign : s.kindAt 0 = .symbol .minus)
    (number : s.kindAt 1 = .integer n) (positive : 0 ≤ n) :
    rowCount s = (if n = 0 then pure 0
      else reject (.invalidRowCount (toString (-n.toInt))) s.position (s.position + 1))
        s.advance.advance := by
  have m := moves_advance sign nofun
  have here : s.advance.kindAt 0 = .integer n := (m.kindAt 0).symm.trans number
  have behind : s.advance.position = s.position + 1 := m.position
  unfold rowCount
  rw [position_bind, consume_bind, if_pos sign, position_bind, current_bind, here, behind]
  show (if -n < 0 then reject (.invalidRowCount (toString (-n).toInt)) s.position (s.position + 1)
    else pure (-n).toUInt64) s.advance.advance = _
  by_cases zero : n = 0
  · rw [if_pos zero, zero]
    rfl
  · have opposite := (Balanced.of_nonneg positive).toInt_neg
    have below : -n < 0 :=
      Decidable.of_not_not fun above => zero (eq_zero_of_neg positive above)
    rw [if_neg zero, if_pos below, opposite]

end Steps

-- =================================================== signed numbers

/-- The tokens of the number `n` behind so many minus signs, with
parentheses wherever they can be. -/
inductive SignedNumber (n : Int64) : Nat → List Kind → Prop
  | number : SignedNumber n 0 [.integer n]
  | minus {signs : Nat} {ks : List Kind} (h : SignedNumber n signs ks) :
    SignedNumber n (signs + 1) (.symbol .minus :: ks)
  | inParens {signs : Nat} {ks : List Kind} (h : SignedNumber n signs ks) :
    SignedNumber n signs (inParens ks)

/-- Behind a number with a sign every operator but a cast ends it. -/
theorem looser_of_ne_doubleColon {rest : List Kind} (other : next rest ≠ .symbol .doubleColon)
    (tier : Tier) (h : nextTier? rest = some tier) : tier.rank < Tier.sign.rank := by
  rcases nextTier?_cases h with ⟨cast, -⟩ | rfl | ⟨c, rfl⟩
  · exact absurd cast other
  · decide
  · exact c.tier_plain.1

/-- What is read with the signs before it is read as an expression, where
no operator goes on with it. -/
theorem reads_of_prefixed {bound floor : Nat} {ks rest : List Kind} {e : Expr}
    (looser : ∀ tier, nextTier? rest = some tier → tier.rank < floor)
    (h : Reads (prefixed (expressionWithin bound)) ks rest e) :
    Reads (expressionWithin (bound + 1) floor) ks rest e :=
  h.last (reads_extendAll looser bound e)

/-- The tokens are read as the number with all its signs. -/
theorem SignedNumber.reads {n : Int64} {signs : Nat} {ks : List Kind}
    (h : SignedNumber n signs ks) (positive : 0 ≤ n) :
    ∃ value : Int64, value.toInt = (-1) ^ signs * n.toInt ∧ Balanced value
      ∧ ∀ ⦃bound floor : Nat⦄ ⦃rest : List Kind⦄, ks.length ≤ bound → floor ≤ Tier.sign.rank →
        (∀ tier, nextTier? rest = some tier → tier.rank < floor) →
        Reads (expressionWithin (bound + 1) floor) ks rest (.integer value) := by
  induction h with
  | number =>
      refine ⟨n, ?_, .of_nonneg positive, ?_⟩
      · rw [pow_zero, one_mul]
      · intro bound floor rest enough high looser
        apply reads_of_prefixed looser
        exact runs_prefixed rfl (reads_operand_literal rfl rest)
  | @minus signs ks h ih =>
      obtain ⟨value, same, balanced, reads⟩ := ih
      refine ⟨-value, ?_, balanced.neg, ?_⟩
      · rw [balanced.toInt_neg, same, pow_succ, Int.mul_neg, mul_one, Int.neg_mul]
      · intro bound floor rest enough high looser
        rw [List.length_cons] at enough
        obtain ⟨bound, rfl⟩ := Nat.exists_eq_add_one_of_ne_zero (Nat.ne_zero_of_lt enough)
        -- the number behind the sign ends where the sign does
        have inner : Reads (expressionWithin (bound + 1) Tier.sign.rank) ks rest
            (.integer value) := by
          apply reads (Nat.le_of_succ_le_succ enough) (Nat.le_refl _)
          exact fun tier htier => Nat.lt_of_lt_of_le (looser tier htier) high
        apply reads_of_prefixed looser
        rw [← applyPrefix_integer balanced]
        exact reads_prefixed (k := .symbol .minus) rfl inner
  | @inParens signs ks h ih =>
      obtain ⟨value, same, balanced, reads⟩ := ih
      refine ⟨value, same, balanced, ?_⟩
      intro bound floor rest enough high looser
      have total : (SqlSelect.inParens ks).length = ks.length + 2 := by simp [SqlSelect.inParens]
      rw [total] at enough
      obtain ⟨bound, rfl⟩ : ∃ n, bound = n + 1 := ⟨bound - 1, by omega⟩
      have close : Follows 0 (.symbol .rightParen :: rest) := .rightParen
      have inside : Reads (expressionWithin (bound + 1) 0) ks (.symbol .rightParen :: rest)
          (.integer value) := by
        apply reads _ (Nat.zero_le _) close.looser
        omega
      apply reads_of_prefixed looser
      exact runs_prefixed rfl (runs_current (reads_parenthesized inside inside.opens))

/-- All the tokens that are left are bound enough. -/
theorem SignedNumber.reads_expression {n : Int64} {signs : Nat} {ks : List Kind}
    (h : SignedNumber n signs ks) (positive : 0 ≤ n) {behind : Kind} (rest : List Kind)
    (other : behind ≠ .symbol .doubleColon) :
    ∃ value : Int64, value.toInt = (-1) ^ signs * n.toInt
      ∧ Reads (expression Tier.sign.rank) ks (behind :: rest) (.integer value) := by
  obtain ⟨value, same, -, reads⟩ := h.reads positive
  refine ⟨value, same, runs_tokensLeft ?_⟩
  have enough : (ks ++ behind :: rest).length = (ks.length + rest.length) + 1 := by
    rw [List.length_append, List.length_cons, Nat.add_assoc]
  rw [enough]
  apply reads (Nat.le_add_right _ _) (Nat.le_refl _)
  exact looser_of_ne_doubleColon other

-- ======================================================= every text

/-- No sign overflows. Wherever in the tokens of a text a minus sign stands
before an operand that is read as a whole number, or before the number of a
row count, the opposite is exact, and it is what is read; all whole numbers
of a statement have one. Any number of signs before a number, in
parentheses or without, is read as that number with its sign. Before
anything but a number a sign is kept. -/
theorem signs_exact :
    (∀ {source : String} {tokens : List Token}, tokenize source = .ok tokens →
      ∀ {s : State}, s.rest <:+ tokens.map Token.kind → s.kindAt 0 = .symbol .minus →
        (∀ {bound : Nat} {value : Int64} {s' : State},
          expressionWithin bound Tier.sign.rank s.advance = .ok (.integer value) s' →
          Balanced value ∧ (-value).toInt = -value.toInt
            ∧ prefixed (expressionWithin bound) s = .ok (.integer (-value)) s')
        ∧ ∀ {n : Int64}, s.kindAt 1 = .integer n →
          Balanced n ∧ (-n).toInt = -n.toInt
            ∧ rowCount s = (if n = 0 then pure 0
              else reject (.invalidRowCount (toString (-n.toInt))) s.position (s.position + 1))
                s.advance.advance)
    ∧ (∀ {source : String} {statement : Select}, parse source = .ok statement →
      ∀ {value : Int64}, .integer value ∈ statement.nodes → Balanced value)
    ∧ (∀ {n : Int64} {signs : Nat} {ks : List Kind}, 0 ≤ n → SignedNumber n signs ks →
      ∀ {behind : Kind} (rest : List Kind), behind ≠ .symbol .doubleColon →
        ∃ value : Int64, value.toInt = (-1) ^ signs * n.toInt
          ∧ Reads (expression Tier.sign.rank) ks (behind :: rest) (.integer value))
    ∧ ∀ {bound : Nat} {s s' : State} {e : Expr}, s.kindAt 0 = .symbol .minus →
      expressionWithin bound Tier.sign.rank s.advance = .ok e s' → e.isNumber = false →
      prefixed (expressionWithin bound) s = .ok (.unary .neg e) s' := by
  refine ⟨?_, ?_, ?_, ?_⟩
  · intro source tokens htokens s within sign
    have hs : s.Lexed := fun k hk => lexed_of_tokenize htokens k (within.subset hk)
    have m := moves_advance sign nofun
    have lexed : s.advance.Lexed := m.lexed hs
    constructor
    · intro bound value s' h
      have balanced := balanced_of_expressionWithin lexed h
      refine ⟨balanced, balanced.toInt_neg, ?_⟩
      rw [prefixed_minus sign h, applyPrefix_integer balanced]
    · intro n number
      have here : s.advance.kindAt 0 = .integer n := (m.kindAt 0).symm.trans number
      have positive : 0 ≤ n :=
        (moves_advance here nofun).lexed_kinds lexed _ List.mem_cons_self
      have balanced := Balanced.of_nonneg positive
      exact ⟨balanced, balanced.toInt_neg, rowCount_minus sign number positive⟩
  · intro source statement h value mem
    exact balanced_iff.2 (formed_of_parse h _ mem)
  · intro n signs ks positive h behind rest other
    exact h.reads_expression positive rest other
  · intro bound s s' e sign h kept
    rw [prefixed_minus sign h, applyPrefix_kept kept]

/-- Two signs with a parenthesis between them and a row count with a sign, in
one statement, and a sign before another operator. -/
theorem signs_exact_nested :
    (∃ tokens statement, tokenize "select -(-5) limit -0" = .ok tokens
      ∧ parse "select -(-5) limit -0" = .ok statement
      ∧ (∃ s', prefixed (expressionWithin 9) ⟨1, (tokens.map Token.kind).drop 1, false, []⟩
        = .ok (.integer 5) s')
      ∧ (∃ s', rowCount ⟨7, (tokens.map Token.kind).drop 7, false, []⟩ = .ok 0 s')
      ∧ .integer 5 ∈ statement.nodes ∧ Balanced 5)
    ∧ Reads (expression Tier.sign.rank)
      [.symbol .minus, .symbol .leftParen, .symbol .minus, .integer 5, .symbol .rightParen]
      [.word "from"] (.integer 5)
    ∧ ∃ s', prefixed (expressionWithin 3)
      ⟨0, [.symbol .minus, .symbol .plus, .integer 5, .eof], false, []⟩
        = .ok (.unary .neg (.unary .plus (.integer 5))) s' := by
  obtain ⟨exactly, accepted, read, kept⟩ := signs_exact
  refine ⟨?_, ?_, ?_⟩
  · have lexed : (tokenize "select -(-5) limit -0").toOption.map (List.map Token.kind)
        = some [.word "select", .symbol .minus, .symbol .leftParen, .symbol .minus, .integer 5,
          .symbol .rightParen, .word "limit", .symbol .minus, .integer 0, .eof] := by
      decide +kernel
    have parsed : (parse "select -(-5) limit -0").toOption.any
        (fun statement => statement.nodes.any (Expr.integer 5).same) = true := by
      decide +kernel
    obtain ⟨tokens, htokens, kinds⟩ := exists_of_toOption_map lexed
    obtain ⟨statement, hstatement, given⟩ := exists_of_toOption_any parsed
    have node : Expr.integer 5 ∈ statement.nodes := by
      obtain ⟨e, he, same⟩ := List.any_eq_true.1 given
      cases e with
      | integer value =>
          unfold Expr.same at same
          obtain rfl := eq_of_beq same
          exact he
      | _ =>
          unfold Expr.same at same
          cases same
    obtain ⟨s', operand⟩ : ∃ s', expressionWithin 9 Tier.sign.rank
        (State.advance ⟨1, (tokens.map Token.kind).drop 1, false, []⟩)
          = .ok (.integer (-5)) s' := by
      rw [kinds]
      exact ⟨_, rfl⟩
    have folded := exactly htokens (s := ⟨1, _, false, []⟩) (List.drop_suffix 1 _)
      (by rw [kinds]; rfl)
    have counted := exactly htokens (s := ⟨7, _, false, []⟩) (List.drop_suffix 7 _)
      (by rw [kinds]; rfl)
    refine ⟨tokens, statement, htokens, hstatement, ⟨s', (folded.1 operand).2.2⟩, ?_, node,
      accepted hstatement node⟩
    have zero := (counted.2 (n := 0) (by rw [kinds]; rfl)).2.2
    exact ⟨_, zero⟩
  · have other : Kind.word "from" ≠ .symbol .doubleColon := nofun
    obtain ⟨value, same, reads⟩ :=
      read (n := 5) (by decide) (.minus (.inParens (.minus .number))) [] other
    obtain rfl : value = 5 := Int64.toInt_inj.1 same
    exact reads
  · exact ⟨_, kept rfl rfl rfl⟩

end Grammar

end SqlSelect
