/-
Precedence and associativity.

Written with parentheses only where the table of tiers demands them, every
normal expression is read back. So parentheses can be left out between
operands that bind more tightly than the operators around them: a chain of
such operands is the text of one tree, and `Expr.chain` builds it. Each
operator takes as its left operand as much of what is already there as
binds at least as tightly.

# What a chain is made of

An operand starts it, behind any number of words `NOT`. Each further piece
(`Expr.Link`) is an operator with an operand, a membership test with its list,
a test or a range. Two of these end in no operand. Behind a list or a test
there is nothing left that a tighter operator could take, and what it would
have to take as a whole would need parentheses. `Link.roof` says how tightly
the next operator may bind.

# The right end

Only the right end of the tree changes as the chain is read. `Expr.Open` says
that no parenthesis stands there, which is what a further piece needs in order
to be written behind the others, and `Expr.roof` reads off the tree what
`Link.roof` says of its last piece. Every piece keeps the one and sets the
other.
-/
import Mathlib.Data.List.Chain
import SqlSelect.Proofs.Complete.Expr

namespace SqlSelect

open Grammar (State expression)

-- ============================================================ table

/-- What stands in the table of tiers. -/
inductive Operator where
  | binary (op : BinaryOp)
  | unary (op : UnaryOp)
  | between
  | cast
  deriving DecidableEq

/-- The rank that the grammar gives to an operator. -/
def Operator.rank : Operator → Nat
  | .binary op => op.tier.rank
  | .unary op => op.tier.rank
  | .between => Tier.pattern.rank
  | .cast => Tier.cast.rank

/-- The table of tiers, the loosest first. -/
def operatorTable : List (List Operator) :=
  [[.binary .or],
    [.binary .and],
    [.unary .not],
    [.unary .isNull, .unary .isNotNull, .unary .isTrue, .unary .isNotTrue, .unary .isFalse,
      .unary .isNotFalse],
    [.binary .eq, .binary .notEq, .binary .lt, .binary .ltEq, .binary .gt, .binary .gtEq],
    [.binary .like, .binary .notLike, .binary .ilike, .binary .notIlike, .binary .isIn,
      .binary .notIn, .between],
    [.binary .concat],
    [.binary .add, .binary .sub],
    [.binary .mul, .binary .div, .binary .mod],
    [.binary .pow],
    [.unary .neg, .unary .plus],
    [.cast]]

/-- The grammar ranks the operators as they stand in the table. -/
theorem rank_eq_findIdx (op : Operator) :
    op.rank = operatorTable.findIdx fun tier => tier.contains op := by
  cases op with
  | binary op => cases op <;> decide
  | unary op => cases op <;> decide
  | between => decide
  | cast => decide

-- =========================================================== chains

namespace Expr

/-- An operand of a chain: one that binds more tightly than every operator
between operands. -/
structure Tight (e : Expr) : Prop where
  normal : e.Normal
  rank : Tier.sign.rank ≤ e.rank

instance (e : Expr) : Decidable e.Tight :=
  decidable_of_iff (e.Normal ∧ Tier.sign.rank ≤ e.rank)
    ⟨fun h => ⟨h.1, h.2⟩, fun h => ⟨h.normal, h.rank⟩⟩

/-- The operand behind so many words `NOT`. -/
def behindNots : Nat → Expr → Expr
  | 0, e => e
  | count + 1, e => .unary .not (e.behindNots count)

/-- A further piece of a chain: an operator with its right operand, which
words `NOT` may precede, a membership test with its list, a test, or a
range. -/
inductive Link where
  | binary (op : BinaryOp) (nots : Nat) (operand : Expr)
  | member (op : BinaryOp) (items : List Expr)
  | test (op : UnaryOp)
  | range (negated : Bool) (low high : Expr)

namespace Link

/-- The rank of the operator. -/
def rank : Link → Nat
  | .binary op .. | .member op _ => op.tier.rank
  | .test op => op.tier.rank
  | .range .. => Tier.pattern.rank

/-- The node that the operator makes of its left operand. -/
def node : Link → Expr → Expr
  | .binary op nots operand, left => .binary op left (operand.behindNots nots)
  | .member op items, left => .binary op left (.list items)
  | .test op, left => .unary op left
  | .range negated low high, left => .between negated left low high

/-- The tokens, with no parenthesis around an operand. -/
def kinds : Link → List Kind
  | .binary op nots operand =>
    Mark.kinds op.marks ++ (List.replicate nots Keyword.NOT.kind ++ operand.kinds .needed)
  | .member op items => Mark.kinds op.marks ++ (Expr.list items).kinds .needed
  | .test op => Mark.kinds op.marks
  | .range negated low high =>
    Mark.kinds (betweenMarks negated)
      ++ (low.kinds .needed ++ Keyword.AND.kind :: high.kinds .needed)

/-- How tightly an operator behind the piece may bind. A list and a test have
no operand at their right end that it could take instead. -/
def roof : Link → Nat
  | .binary .. | .range .. => Tier.sign.rank
  | .member op _ => op.tier.rank
  | .test op => op.tier.rank

/-- The operands need no parentheses. `NOT` is looser than most operators and
stands behind looser ones only. -/
def Fits : Link → Prop
  | .binary op nots operand => op.isMembership = false ∧ operand.Tight
      ∧ (nots = 0 ∨ op.tier.rank < Tier.negation.rank)
  | .member op items => op.isMembership = true ∧ items ≠ [] ∧ ∀ item ∈ items, item.Normal
  | .test op => op.isPrefix = false
  | .range _ low high => (low.Normal ∧ Tier.pattern.rank < low.rank) ∧ high.Tight

instance : (link : Link) → Decidable link.Fits
  | .binary op nots operand => inferInstanceAs (Decidable (op.isMembership = false ∧ operand.Tight
      ∧ (nots = 0 ∨ op.tier.rank < Tier.negation.rank)))
  | .member op items => inferInstanceAs (Decidable (op.isMembership = true ∧ items ≠ []
      ∧ ∀ item ∈ items, item.Normal))
  | .test op => inferInstanceAs (Decidable (op.isPrefix = false))
  | .range _ low high => inferInstanceAs (Decidable ((low.Normal ∧ Tier.pattern.rank < low.rank)
      ∧ high.Tight))

end Link

/-- The tree with one more piece at its right end. The operator takes as its
left operand as much of that end as binds at least as tightly. -/
def attach : Expr → Link → Expr
  | .binary op left right, link =>
    if op.isMembership = false ∧ op.tier.rank < link.rank then
      .binary op left (right.attach link)
    else link.node (.binary op left right)
  | .between negated value low high, link =>
    if Tier.pattern.rank < link.rank then .between negated value low (high.attach link)
    else link.node (.between negated value low high)
  | .unary .not operand, link =>
    if Tier.negation.rank < link.rank then .unary .not (operand.attach link)
    else link.node (.unary .not operand)
  | e, link => link.node e

/-- The tree of a chain: an operand and the pieces behind it. -/
def chain (first : Expr) (links : List Link) : Expr := links.foldl attach first

/-- The tokens of a chain, without a parenthesis between its operands. -/
def chainKinds (nots : Nat) (first : Expr) (links : List Link) : List Kind :=
  List.replicate nots Keyword.NOT.kind ++ first.kinds .needed ++ links.flatMap Link.kinds

-- ========================================================= right ends

/-- No parenthesis stands at the right end of the tree: the operands there
bind more tightly than their operators, that of `NOT` at least as tightly. -/
def Open : Expr → Prop
  | .binary op _ right => op.isMembership = true ∨ op.tier.rank < right.rank ∧ right.Open
  | .between _ _ _ high => Tier.pattern.rank < high.rank ∧ high.Open
  | .unary .not operand => Tier.negation.rank ≤ operand.rank ∧ operand.Open
  | _ => True

/-- How tightly an operator behind the tree may bind. -/
def roof : Expr → Nat
  | .binary op _ right => if op.isMembership = true then op.tier.rank else right.roof
  | .between _ _ _ high => high.roof
  | .unary .not operand => operand.roof
  | .unary op _ => op.tier.rank
  | _ => Tier.sign.rank

theorem rank_binary_lt (op : BinaryOp) : op.tier.rank < Tier.sign.rank :=
  (Grammar.Connective.tier_plain (.binary op)).1

theorem rank_test {op : UnaryOp} (behind : op.isPrefix = false) : op.tier = .test := by
  cases op <;> first | rfl | cases behind

/-- A tight operand ends in no operator between operands. -/
theorem Tight.ends {e : Expr} (h : e.Tight) : e.Open ∧ Tier.sign.rank ≤ e.roof := by
  have high := h.rank
  cases e with
  | binary op left right => exact absurd high (Nat.not_le.2 (rank_binary_lt op))
  | between negated value low right =>
      exact absurd high (show ¬Tier.sign.rank ≤ Tier.pattern.rank by decide)
  | unary op operand =>
      cases op with
      | not => exact absurd high (show ¬Tier.sign.rank ≤ Tier.negation.rank by decide)
      | _ => exact ⟨trivial, high⟩
  | _ => exact ⟨trivial, Nat.le_refl _⟩

/-- An operand that binds tightly enough has no parentheses. -/
theorem operandKinds_needed {e : Expr} {floor : Nat} (high : floor ≤ e.rank) :
    e.operandKinds .needed floor = e.kinds .needed := by
  have bare : Parens.needed.around floor e = false := decide_eq_false (Nat.not_lt.2 high)
  rw [operandKinds, wrapIf, bare, if_neg Bool.false_ne_true]

/-- The tokens of an operator whose right operand needs no parentheses. -/
theorem kinds_binary_needed {op : BinaryOp} {left right : Expr}
    (high : op.tier.rank < right.rank) :
    (Expr.binary op left right).kinds .needed = left.operandKinds .needed op.tier.rank
      ++ (Mark.kinds op.marks ++ right.kinds .needed) := by
  rw [kinds_binary, operandKinds_needed high]

/-- The tokens of a range whose upper bound needs none. -/
theorem kinds_between_needed {negated : Bool} {value low high : Expr}
    (tighter : Tier.pattern.rank < high.rank) :
    (Expr.between negated value low high).kinds .needed
      = value.operandKinds .needed Tier.pattern.rank ++ (Mark.kinds (betweenMarks negated)
        ++ (low.operandKinds .needed (Tier.pattern.rank + 1)
          ++ Keyword.AND.kind :: high.kinds .needed)) := by
  rw [kinds_between, operandKinds_needed tighter]

/-- The tokens of `NOT` before an operand that needs none. -/
theorem kinds_not_needed {operand : Expr} (high : Tier.negation.rank ≤ operand.rank) :
    (Expr.unary .not operand).kinds .needed = Keyword.NOT.kind :: operand.kinds .needed := by
  have before : UnaryOp.not.isPrefix = true := rfl
  have high' : UnaryOp.not.tier.rank ≤ operand.rank := high
  rw [ kinds_prefix .needed before, operandKinds_needed high']
  rfl

/-- `NOT` folds into no literal, so it may stand before any operand. -/
theorem normal_not {operand : Expr} (h : operand.Normal) : (Expr.unary .not operand).Normal :=
  normal_single rfl ⟨h.operand, nofun⟩ rfl h

section Nots

variable {e : Expr} (tight : e.Tight) (nots : Nat)

include tight

/-- `NOT` binds at its own rank, and none at all leaves the operand's. -/
theorem rank_behindNots {rank : Nat} (low : rank ≤ Tier.sign.rank)
    (loose : nots = 0 ∨ rank ≤ Tier.negation.rank) : rank ≤ (e.behindNots nots).rank := by
  cases nots with
  | zero => exact Nat.le_trans low tight.rank
  | succ count => exact loose.resolve_left (Nat.succ_ne_zero count)

theorem negation_le_behindNots : Tier.negation.rank ≤ (e.behindNots nots).rank :=
  rank_behindNots tight nots (by decide) (Or.inr (Nat.le_refl _))

theorem kinds_behindNots : (e.behindNots nots).kinds .needed
    = List.replicate nots Keyword.NOT.kind ++ e.kinds .needed := by
  induction nots with
  | zero => rfl
  | succ count ih =>
      rw [behindNots, kinds_not_needed (negation_le_behindNots tight count), ih]
      rfl

theorem normal_behindNots : (e.behindNots nots).Normal := by
  induction nots with
  | zero => exact tight.normal
  | succ count ih => exact normal_not ih

theorem ends_behindNots :
    (e.behindNots nots).Open ∧ Tier.sign.rank ≤ (e.behindNots nots).roof := by
  induction nots with
  | zero => exact tight.ends
  | succ count ih => exact ⟨⟨negation_le_behindNots tight count, ih.1⟩, ih.2⟩

end Nots

-- ============================================================== pieces

namespace Link

variable {link : Link}

@[simp]
theorem rank_node (link : Link) (e : Expr) : (link.node e).rank = link.rank := by
  cases link <;> rfl

theorem Fits.rank_lt (fits : link.Fits) : link.rank < Tier.sign.rank := by
  cases link with
  | binary op | member op => exact rank_binary_lt op
  | test op =>
      rw [rank, rank_test fits]
      decide
  | range => exact (show Tier.pattern.rank < Tier.sign.rank by decide)

/-- The right operand needs no parentheses. -/
theorem Fits.rank_lt_operand {op : BinaryOp} {nots : Nat} {operand : Expr}
    (fits : (Link.binary op nots operand).Fits) :
    op.tier.rank < (operand.behindNots nots).rank :=
  rank_behindNots fits.2.1 nots (rank_binary_lt op) fits.2.2

/-- The piece is written behind its left operand. -/
theorem Fits.kinds_node (fits : link.Fits) {e : Expr} (high : link.rank ≤ e.rank) :
    (link.node e).kinds .needed = e.kinds .needed ++ link.kinds := by
  cases link with
  | binary op nots operand =>
      have high : op.tier.rank ≤ e.rank := high
      rw [node, kinds_binary_needed fits.rank_lt_operand, operandKinds_needed high,
        kinds_behindNots fits.2.1]
      rfl
  | member op items =>
      have high : op.tier.rank ≤ e.rank := high
      have tighter : op.tier.rank < (Expr.list items).rank :=
        Nat.lt_of_lt_of_le (rank_binary_lt op) (show Tier.sign.rank ≤ primaryRank by decide)
      rw [node, kinds_binary_needed tighter, operandKinds_needed high]
      rfl
  | test op =>
      have high : op.tier.rank ≤ e.rank := high
      rw [node, kinds_postfix .needed fits, operandKinds_needed high]
      rfl
  | range negated low upper =>
      obtain ⟨⟨-, tighter⟩, tight⟩ := fits
      have high : Tier.pattern.rank ≤ e.rank := high
      have above : Tier.pattern.rank < upper.rank := Nat.lt_of_lt_of_le (by decide) tight.rank
      rw [node, kinds_between_needed above, operandKinds_needed high, operandKinds_needed tighter]
      rfl

theorem Fits.normal_node (fits : link.Fits) {e : Expr} (h : e.Normal) : (link.node e).Normal := by
  cases link with
  | binary op nots operand => exact normal_binary fits.1 h (normal_behindNots fits.2.1 nots)
  | member op items => exact normal_membership fits.1 h fits.2.1 fits.2.2
  | test op =>
      refine normal_single rfl ⟨h.operand, ?_⟩ rfl h
      rintro rfl
      cases fits
  | range negated low upper => exact normal_between h fits.1.1 fits.2.normal

theorem Fits.ends_node (fits : link.Fits) (e : Expr) :
    (link.node e).Open ∧ link.roof ≤ (link.node e).roof := by
  cases link with
  | binary op nots operand =>
      obtain ⟨opens, high⟩ := ends_behindNots fits.2.1 nots
      refine ⟨Or.inr ⟨fits.rank_lt_operand, opens⟩, ?_⟩
      rw [node, Expr.roof, if_neg (fits.1 ▸ Bool.false_ne_true)]
      exact high
  | member op items =>
      refine ⟨Or.inl fits.1, ?_⟩
      rw [node, Expr.roof, if_pos fits.1]
      exact Nat.le_refl _
  | test op => cases op <;> first | exact ⟨trivial, Nat.le_refl _⟩ | cases fits
  | range negated low upper =>
      obtain ⟨opens, high⟩ := fits.2.ends
      exact ⟨⟨Nat.lt_of_lt_of_le (by decide) fits.2.rank, opens⟩, high⟩

end Link

section Attach

variable {e : Expr} {link : Link}

/-- The rank of the tree is that of the loosest operator at its right
end. -/
theorem le_rank_attach {rank : Nat} (he : rank ≤ e.rank) (hlink : rank ≤ link.rank) :
    rank ≤ (e.attach link).rank := by
  fun_cases attach e link with
  | case1 op left right tighter => exact he
  | case3 negated value low high tighter => exact he
  | case5 operand tighter => exact he
  | case2 | case4 | case6 | case7 => rwa [Link.rank_node]

variable (fits : link.Fits)

include fits

theorem ends_attach (h : e.Open) :
    (e.attach link).Open ∧ link.roof ≤ (e.attach link).roof := by
  fun_induction attach e link with
  | case1 op left right link tighter ih =>
      obtain ⟨looser, opens⟩ := h.resolve_left (tighter.1 ▸ Bool.false_ne_true)
      obtain ⟨opens', high⟩ := ih fits opens
      refine ⟨Or.inr ⟨le_rank_attach looser tighter.2, opens'⟩, ?_⟩
      rwa [roof, if_neg (tighter.1 ▸ Bool.false_ne_true)]
  | case3 negated value low upper link tighter ih =>
      obtain ⟨opens, high⟩ := ih fits h.2
      exact ⟨⟨le_rank_attach h.1 tighter, opens⟩, high⟩
  | case5 operand link tighter ih =>
      obtain ⟨opens, high⟩ := ih fits h.2
      exact ⟨⟨le_rank_attach h.1 (Nat.le_of_lt tighter), opens⟩, high⟩
  | case2 | case4 | case6 | case7 => exact fits.ends_node _

/-- One more piece is written behind the others, if what stands at the right
end lets it. -/
theorem kinds_attach (h : e.Open) (low : link.rank ≤ e.roof) :
    (e.attach link).kinds .needed = e.kinds .needed ++ link.kinds := by
  fun_induction attach e link with
  | case1 op left right link tighter ih =>
      obtain ⟨looser, opens⟩ := h.resolve_left (tighter.1 ▸ Bool.false_ne_true)
      rw [roof, if_neg (tighter.1 ▸ Bool.false_ne_true)] at low
      rw [kinds_binary_needed (le_rank_attach looser tighter.2), kinds_binary_needed looser,
        ih fits opens low]
      simp only [List.append_assoc]
  | case2 op left right link other =>
      refine fits.kinds_node ?_
      by_cases test : op.isMembership = true
      · rwa [roof, if_pos test] at low
      · exact Nat.not_lt.1 fun tighter => other ⟨Bool.eq_false_iff.2 test, tighter⟩
  | case3 negated value bound upper link tighter ih =>
      rw [kinds_between_needed (le_rank_attach h.1 tighter), kinds_between_needed h.1,
        ih fits h.2 low]
      simp only [List.append_assoc, List.cons_append]
  | case4 negated value bound upper link looser => exact fits.kinds_node (Nat.not_lt.1 looser)
  | case5 operand link tighter ih =>
      rw [kinds_not_needed (le_rank_attach h.1 (Nat.le_of_lt tighter)), kinds_not_needed h.1,
        ih fits h.2 low]
      rfl
  | case6 operand link looser => exact fits.kinds_node (Nat.not_lt.1 looser)
  | case7 e link noBinary noRange noNot =>
      -- what is left has no operator at its right end that could take an operand
      refine fits.kinds_node ?_
      have below := Nat.le_of_lt fits.rank_lt
      cases e with
      | binary op left right => exact absurd rfl (noBinary op left right)
      | between negated value bound upper => exact absurd rfl (noRange negated value bound upper)
      | unary op operand =>
          cases op with
          | not => exact absurd rfl (noNot operand)
          | _ => exact low
      | integer value =>
          refine Nat.le_trans below ?_
          simp only [rank]
          split <;> decide
      | numeric value =>
          refine Nat.le_trans below ?_
          simp only [rank]
          split <;> decide
      | cast operand target =>
          exact Nat.le_trans below (show Tier.sign.rank ≤ Tier.cast.rank by decide)
      | _ => exact Nat.le_trans below (show Tier.sign.rank ≤ primaryRank by decide)

theorem normal_attach (hopen : e.Open) (h : e.Normal) : (e.attach link).Normal := by
  fun_induction attach e link with
  | case1 op left right link tighter ih =>
      obtain ⟨-, opens⟩ := hopen.resolve_left (tighter.1 ▸ Bool.false_ne_true)
      obtain ⟨hleft, hright⟩ := h.node
      rw [tighter.1, if_neg Bool.false_ne_true] at hright
      have inLeft := h.child (c := left) (by simp [children]) hleft
      have inRight := h.child (c := right) (by simp [children]) hright
      exact normal_binary tighter.1 inLeft (ih fits opens inRight)
  | case3 negated value low upper link tighter ih =>
      obtain ⟨hvalue, hlow, hupper⟩ := h.node
      have inValue := h.child (c := value) (by simp [children]) hvalue
      have inLow := h.child (c := low) (by simp [children]) hlow
      have inUpper := h.child (c := upper) (by simp [children]) hupper
      exact normal_between inValue inLow (ih fits hopen.2 inUpper)
  | case5 operand link tighter ih =>
      have inOperand := h.child (c := operand) (by simp [children]) h.node.1
      exact normal_not (ih fits hopen.2 inOperand)
  | case2 | case4 | case6 | case7 => exact fits.normal_node h

end Attach

/-- A chain is the text of a normal tree. -/
theorem chain_spec {first : Expr} {links : List Link} (h : first.Normal) (hopen : first.Open)
    (fits : ∀ link ∈ links, link.Fits) (low : ∀ link ∈ links.head?, link.rank ≤ first.roof)
    (ordered : links.IsChain fun link next => next.rank ≤ link.roof) :
    (first.chain links).Normal
      ∧ (first.chain links).kinds .needed = first.kinds .needed ++ links.flatMap Link.kinds := by
  induction links generalizing first with
  | nil => exact ⟨h, (List.append_nil _).symm⟩
  | cons link links ih =>
      have here := fits link List.mem_cons_self
      obtain ⟨next, later⟩ := List.isChain_cons.1 ordered
      obtain ⟨opens, high⟩ := ends_attach here hopen
      obtain ⟨normal, ks⟩ := ih (normal_attach here hopen h) opens
        (fun link hlink => fits link (List.mem_cons_of_mem _ hlink))
        (fun link hlink => Nat.le_trans (next link hlink) high) later
      refine ⟨normal, ks.trans ?_⟩
      rw [kinds_attach here hopen (low link rfl), List.flatMap_cons, List.append_assoc]

end Expr

-- ========================================================== reading

/-- The tokens that end an expression wherever it stands. -/
def closers : List Kind := [.eof, .symbol .comma, .symbol .semicolon, .symbol .rightParen]

namespace Grammar

theorem follows_closer {floor : Nat} {stop : Kind} (h : stop ∈ closers) (rest : List Kind) :
    Follows floor (stop :: rest) := by
  simp only [closers, List.mem_cons, List.not_mem_nil, or_false] at h
  rcases h with rfl | rfl | rfl | rfl
  · exact .eof
  · exact .comma
  · exact .semicolon
  · exact .rightParen

end Grammar

/-- Operators group as the table of tiers says. The grammar ranks them as
they stand in the table. Every normal expression, with parentheses only
where the ranks demand them, is read back up to what ends it. Consequently
a chain of operands, without a parenthesis between them, is the text of
exactly one normal expression, and that is the one read. Such a chain may
have words `NOT` before its operands, membership tests, tests and ranges,
where no operator behind a list or a test binds more tightly than that. -/
theorem expression_groups_by_tier {stop : Kind} (closes : stop ∈ closers) (rest : List Kind) :
    (∀ op : Operator, op.rank = operatorTable.findIdx fun tier => tier.contains op)
    ∧ (∀ (e : Expr) (s : State), e.Normal → s.rest = e.kinds .needed ++ stop :: rest →
      ∃ s', expression 0 s = .ok e s' ∧ s'.rest = stop :: rest
        ∧ s'.position = s.position + (e.kinds .needed).length)
    ∧ ∀ (nots : Nat) (first : Expr) (links : List Expr.Link), first.Tight →
      (∀ link ∈ links, link.Fits) → links.IsChain (fun link next => next.rank ≤ link.roof) →
      (∀ e : Expr, e.Normal ∧ e.kinds .needed = first.chainKinds nots links
        ↔ e = (first.behindNots nots).chain links)
      ∧ ∀ s : State, s.rest = first.chainKinds nots links ++ stop :: rest →
        ∃ s', expression 0 s = .ok ((first.behindNots nots).chain links) s'
          ∧ s'.rest = stop :: rest
          ∧ s'.position = s.position + (first.chainKinds nots links).length := by
  have reads : ∀ (e : Expr) (s : State), e.Normal → s.rest = e.kinds .needed ++ stop :: rest →
      ∃ s', expression 0 s = .ok e s' ∧ s'.rest = stop :: rest
        ∧ s'.position = s.position + (e.kinds .needed).length := by
    intro e s normal hs
    obtain ⟨s', hrest, position, h⟩ := (Grammar.leads .needed normal).reads_expression
      (Grammar.follows_closer closes rest) (List.cons_ne_nil _ _) s hs
    exact ⟨s', h, hrest, position⟩
  refine ⟨rank_eq_findIdx, reads, fun nots first links tight fits ordered => ?_⟩
  obtain ⟨opens, high⟩ := Expr.ends_behindNots tight nots
  obtain ⟨normal, written⟩ := Expr.chain_spec (Expr.normal_behindNots tight nots) opens fits
    (fun link hlink => Nat.le_trans
      (Nat.le_of_lt (fits link (List.mem_of_mem_head? hlink)).rank_lt) high) ordered
  have ks : ((first.behindNots nots).chain links).kinds .needed = first.chainKinds nots links := by
    rw [written, Expr.kinds_behindNots tight]
    rfl
  refine ⟨fun e => ⟨?_, ?_⟩, ?_⟩
  · -- both are read from the same tokens
    rintro ⟨other, same⟩
    let s : State := ⟨0, first.chainKinds nots links ++ stop :: rest, false, []⟩
    obtain ⟨s₁, h₁, -⟩ := reads _ s normal (by rw [ks])
    obtain ⟨s₂, h₂, -⟩ := reads e s other (by rw [same])
    cases h₂.symm.trans h₁
    rfl
  · rintro rfl
    exact ⟨normal, ks⟩
  · intro s hs
    rw [← ks] at hs ⊢
    exact reads _ s normal hs

/-- A range under a sign needs its parentheses, and a chain of all sorts of
pieces none. -/
theorem expression_groups_range :
    (∃ s', expression 0 ⟨0, [.symbol .minus, .symbol .leftParen, .quoted "a",
        Keyword.BETWEEN.kind, .integer 1, Keyword.AND.kind, .integer 2, .symbol .rightParen, .eof],
        false, []⟩
      = .ok (.unary .neg (.between false (.ref none "a") (.integer 1) (.integer 2))) s'
      ∧ s'.rest = [.eof] ∧ s'.position = 8)
    ∧ ∃ s', expression 0 ⟨0, [Keyword.NOT.kind, .quoted "a", Keyword.IN.kind, .symbol .leftParen,
        .integer 1, .symbol .rightParen, Keyword.IS.kind, Keyword.NULL.kind, Keyword.OR.kind,
        .quoted "b", Keyword.BETWEEN.kind, .integer 1, Keyword.AND.kind, .integer 2,
        .symbol .minus, .integer 3, .symbol .minus, .integer 4, .symbol .star, .integer 5, .eof],
        false, []⟩
      = .ok (.binary .or
          (.unary .not (.unary .isNull (.binary .isIn (.ref none "a") (.list [.integer 1]))))
          (.between false (.ref none "b") (.integer 1) (.binary .sub
            (.binary .sub (.integer 2) (.integer 3)) (.binary .mul (.integer 4) (.integer 5))))) s'
      ∧ s'.rest = [.eof] ∧ s'.position = 20 := by
  obtain ⟨-, reads, chains⟩ := @expression_groups_by_tier .eof (by decide) []
  constructor
  · exact reads (.unary .neg (.between false (.ref none "a") (.integer 1) (.integer 2)))
      ⟨0, _, false, []⟩ (by decide) rfl
  · exact (chains 1 (.ref none "a") [.member .isIn [.integer 1], .test .isNull,
      .binary .or 0 (.ref none "b"), .range false (.integer 1) (.integer 2),
      .binary .sub 0 (.integer 3), .binary .sub 0 (.integer 4), .binary .mul 0 (.integer 5)]
      (by decide) (by decide) (by decide)).2 ⟨0, _, false, []⟩ rfl

end SqlSelect
