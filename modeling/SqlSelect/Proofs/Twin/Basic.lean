/-
Two runs over the same tokens with different ends.

A parser that reads tokens up to a boundary, behind which a list is over,
reads the same tokens in the same way before any other boundary of the kind;
one that reads no list of its own does so before a comma or a join as well.
`Twin k n hs least p q` says so of `p` before the one boundary and `q` before
the other: where `p` reads some of at most `n` tokens that start with `hs` and
stops no later than the boundary, it takes at least `least` of them, and `q`
reads the same and yields the same. The two differ only in the bounds of their
loops, for which the number of tokens stands in.

# At the boundary

A token behind the boundary can be looked at, but it cannot be taken: the
cursor would not come back. So a production is compared token by token, and at
the boundary it has to do the same whatever stands there. Each look ahead
splits the comparison in two (`Twin.ahead`): at the end of the known tokens,
where the runs see their own ends, and before it, where both see one more
token. What is in parentheses never reaches the boundary: it is compared
before its closing parenthesis, as a fork of its own (`twin_enclosed`).

# Why this is no tandem

Where two runs are compared that stand at like tokens all along, one lemma for
each production serves every such comparison (`Tandem`). Here the tokens under
a look may be any two that halt an expression, a name on the one side and a
parenthesis on the other among them, and what a production does there is a
fact about its own tests. A look at `IS`, at a star or at an opening
parenthesis fails at both ends for its own reason. So the lemmas of a tandem,
which take the token of the second run from that of the first, do not apply,
and only runs that succeed and come to the boundary are compared at all.
-/
import SqlSelect.Grammar.Clause
import SqlSelect.Proofs.Complete.Follow
import SqlSelect.Proofs.Course.Basic

namespace SqlSelect.Grammar

variable {α β γ : Type}

-- ====================================================== what ends a list

/-- The token ends a list of expressions, wherever one may stand. -/
def Stops (kind : Kind) : Prop := endsClause afterGroups kind = true

/-- The keywords that can stand behind an entry of the `FROM` list, or behind
the condition that joins it. -/
def afterEntry : List Keyword :=
  [.ON, .JOIN, .INNER, .LEFT, .RIGHT, .FULL, .OUTER, .CROSS, .NATURAL, .WHERE, .GROUP]
    ++ afterGroups

/-- The token ends an expression that stands in no list of its own: it is a
comma, or it ends lists, or it can stand behind an entry of the `FROM` list. -/
def Halts (kind : Kind) : Prop := kind = .symbol .comma ∨ endsClause afterEntry kind = true

/-- What ends a clause is a mark or one of the keywords. -/
theorem cases_of_endsClause {keywords : List Keyword} {kind : Kind}
    (h : endsClause keywords kind = true) :
    kind = .eof ∨ kind = .symbol .semicolon ∨ kind = .symbol .rightParen
      ∨ ∃ name keyword, kind = .word name ∧ Keyword.ofWord? name = some keyword
        ∧ keyword ∈ keywords := by
  unfold endsClause at h
  split at h
  next => exact Or.inl rfl
  next => exact Or.inr (Or.inl rfl)
  next => exact Or.inr (Or.inr (Or.inl rfl))
  next =>
    cases hfound : kind.keyword? with
    | none =>
        rw [hfound] at h
        cases h
    | some keyword =>
        rw [hfound] at h
        cases kind with
        | word name =>
            have given : keyword ∈ keywords := List.contains_iff_mem.1 h
            exact Or.inr (Or.inr (Or.inr ⟨name, keyword, rfl, hfound, given⟩))
        | _ => cases hfound

/-- What ends a clause ends one that more keywords end. -/
theorem endsClause_mono {keywords others : List Keyword} (sub : keywords ⊆ others) {kind : Kind}
    (h : endsClause keywords kind = true) : endsClause others kind = true := by
  rcases cases_of_endsClause h with rfl | rfl | rfl | ⟨name, keyword, rfl, word, given⟩
  · rfl
  · rfl
  · rfl
  · show (Keyword.ofWord? name).any others.contains = true
    rw [word]
    exact List.contains_iff_mem.2 (sub given)

namespace Stops

variable {kind : Kind}

/-- What ends lists ends expressions. -/
theorem halts (h : Stops kind) : Halts kind :=
  Or.inr (endsClause_mono (List.subset_append_right _ _) h)

/-- A comma goes on with the list. -/
theorem ne_comma (h : Stops kind) : kind ≠ .symbol .comma := by
  rintro rfl
  cases h

end Stops

namespace Halts

variable {kind : Kind}

/-- A comma, a mark or one of the keywords ends an expression. -/
theorem cases (h : Halts kind) :
    kind = .symbol .comma ∨ kind = .eof ∨ kind = .symbol .semicolon
      ∨ kind = .symbol .rightParen
      ∨ ∃ name keyword, kind = .word name ∧ Keyword.ofWord? name = some keyword
        ∧ keyword ∈ afterEntry :=
  h.imp_right cases_of_endsClause

/-- No other keyword ends an expression. -/
theorem ne_keyword (h : Halts kind) {keyword : Keyword} (other : keyword ∉ afterEntry) :
    kind.keyword? ≠ some keyword := by
  intro found
  rcases h.cases with rfl | rfl | rfl | rfl | ⟨name, ending, rfl, word, given⟩
  · cases found
  · cases found
  · cases found
  · cases found
  · change Keyword.ofWord? name = _ at found
    rw [word] at found
    exact other (Option.some.inj found ▸ given)

/-- A word that spells none of the keywords ends no expression. -/
theorem ne_word (h : Halts kind) {name : String}
    (other : (Keyword.ofWord? name).any afterEntry.contains = false) : kind ≠ .word name := by
  rintro rfl
  rcases h.cases with found | found | found | found | ⟨name', keyword, found, word, given⟩
  · cases found
  · cases found
  · cases found
  · cases found
  · obtain rfl := Kind.word.inj found
    rw [word] at other
    simp [given] at other

/-- Three symbols end expressions. -/
theorem ne_symbol (h : Halts kind) {mark : Symbol} (comma : mark ≠ .comma)
    (semicolon : mark ≠ .semicolon) (rightParen : mark ≠ .rightParen) : kind ≠ .symbol mark := by
  rintro rfl
  rcases h.cases with found | found | found | found | ⟨_, _, found, -⟩
  · exact comma (Kind.symbol.inj found)
  · cases found
  · exact semicolon (Kind.symbol.inj found)
  · exact rightParen (Kind.symbol.inj found)
  · cases found

/-- An opening parenthesis is none of them. -/
theorem ne_leftParen (h : Halts kind) : kind ≠ .symbol .leftParen :=
  h.ne_symbol nofun nofun nofun

/-- Neither is a star. -/
theorem ne_star (h : Halts kind) : kind ≠ .symbol .star := h.ne_symbol nofun nofun nofun

/-- Neither is a point. -/
theorem ne_dot (h : Halts kind) : kind ≠ .symbol .dot := h.ne_symbol nofun nofun nofun

/-- The keywords that end expressions are reserved, so none of them is a name.
-/
theorem identifier? (h : Halts kind) : kind.identifier? = none := by
  rcases h.cases with rfl | rfl | rfl | rfl | ⟨name, keyword, rfl, word, given⟩
  · rfl
  · rfl
  · rfl
  · rfl
  · have reserved : ∀ keyword ∈ afterEntry, keyword.isReserved = true := by decide
    simp [Kind.identifier?, word, reserved keyword given]

/-- A name in quotes goes on, where one may stand. -/
theorem ne_quoted (h : Halts kind) (name : String) : kind ≠ .quoted name := by
  rintro rfl
  rcases h with h | h <;> cases h

/-- So does a number. -/
theorem ne_integer (h : Halts kind) (value : Int64) : kind ≠ .integer value := by
  rintro rfl
  rcases h with h | h <;> cases h

/-- No cast and no test starts with what ends an expression. -/
theorem postfixTier? (h : Halts kind) : postfixTier? kind = none := by
  rcases h.cases with rfl | rfl | rfl | rfl | ⟨name, keyword, rfl, -⟩
  · rfl
  · rfl
  · rfl
  · rfl
  · have other : (Kind.word name).keyword? ≠ some .IS := h.ne_keyword (by decide)
    simp [Grammar.postfixTier?, other]

/-- No operator between operands starts with it. -/
theorem connective (h : Halts kind) (behind : Kind) : Connective.at? kind behind = none := by
  rcases h.cases with rfl | rfl | rfl | rfl | ⟨name, keyword, rfl, word, given⟩
  · rfl
  · rfl
  · rfl
  · rfl
  · have none : ∀ keyword ∈ afterEntry, ∀ next, Connective.ofKeyword? keyword next = none := by
      intro keyword given next
      simp only [afterEntry, afterGroups, List.cons_append, List.nil_append, List.mem_cons,
        List.not_mem_nil, or_false] at given
      rcases given with rfl | rfl | rfl | rfl | rfl | rfl | rfl | rfl | rfl | rfl | rfl | rfl | rfl
        | rfl | rfl | rfl <;> rfl
    show (Keyword.ofWord? name).bind _ = _
    rw [word]
    exact none keyword given _

/-- Behind an operator it makes no difference what ends an expression. -/
theorem connective_next (h : Halts kind) (first : Kind) :
    Connective.at? first kind = Connective.at? first .eof := by
  have plain : ∀ keyword, Connective.ofKeyword? keyword kind.keyword?
      = Connective.ofKeyword? keyword none := by
    intro keyword
    cases keyword with
    | NOT =>
        have like := h.ne_keyword (show .LIKE ∉ afterEntry by decide)
        have ilike := h.ne_keyword (show .ILIKE ∉ afterEntry by decide)
        have inList := h.ne_keyword (show .IN ∉ afterEntry by decide)
        have between := h.ne_keyword (show .BETWEEN ∉ afterEntry by decide)
        simp only [Connective.ofKeyword?]
    | _ => rfl
  unfold Connective.at?
  split
  next => rfl
  next =>
    cases first.keyword? with
    | none => rfl
    | some keyword => exact plain keyword

/-- It goes on with no operand. -/
theorem continuesOperand (h : Halts kind) (behind : Kind) :
    continuesOperand kind behind = false := by
  rw [Grammar.continuesOperand, h.postfixTier?, h.connective]
  rfl

/-- It starts no wildcard, whatever is behind it. -/
theorem wildcardAt? (h : Halts kind) (second third : Kind) :
    wildcardAt? kind second third = none := by
  refine wildcardAt?_none h.ne_star ?_
  rw [h.identifier?]
  exact nofun

/-- No expression starts with what ends one. -/
theorem not_opens (h : Halts kind) {expr : Nat → Parser Expr} {s s' : State} {e : Expr}
    (here : s.kindAt 0 = kind) : prefixed expr s ≠ .ok e s' := by
  intro found
  have opens := opens_of_prefixed found
  have plain (none : Grammar.prefixOp? kind = none) : prefixed expr s = operand expr s := by
    unfold prefixed
    rw [current_bind, here, none]
  rcases h.cases with rfl | rfl | rfl | rfl | ⟨name, keyword, rfl, word, given⟩
  · rw [plain rfl, operand, current_bind, here] at found
    exact unexpected_ok.1 found
  · rw [plain rfl, operand, current_bind, here] at found
    exact unexpected_ok.1 found
  · rw [plain rfl, operand, current_bind, here] at found
    exact unexpected_ok.1 found
  · exact opens.ne_rightParen here
  · have closing : ∀ keyword ∈ afterEntry, keyword.startsExpression = false := by decide
    have opening := opens.keyword keyword (by rw [show next s.rest = _ from here]; exact word)
    rw [closing keyword given] at opening
    cases opening

end Halts

-- ====================================================== moving forward

/-- A success moves the cursor forward. -/
def Forward (p : Parser α) : Prop :=
  ∀ ⦃s : State⦄ ⦃a : α⦄ ⦃s' : State⦄, p s = .ok a s' → ∃ ks, Moves s ks s'

/-- What has a course moves forward. -/
theorem Course.forward {speculates : Bool} {p : Parser α} (h : Course speculates 0 p) :
    Forward p :=
  fun s _ _ hp => h.steps.moves (Nat.zero_le s.position) hp

/-- One behind the other, parsers move forward if both do. -/
theorem Forward.bind {p : Parser α} {f : α → Parser β} (first : Forward p)
    (later : ∀ a, Forward (f a)) : Forward (p >>= f) := by
  intro s b s' h
  obtain ⟨a, t, hp, hf⟩ := bind_ok.1 h
  obtain ⟨ks, m⟩ := first hp
  obtain ⟨ls, n⟩ := later a hf
  exact ⟨_, m.trans n⟩

/-- Between the parts of a sequence that stops before a boundary the cursor
stands before it as well. -/
theorem Forward.between {p : Parser α} {f : α → Parser β} (later : ∀ a, Forward (f a))
    {s s' : State} {b : β} {ls' rest : List Kind} (h : (p >>= f) s = .ok b s')
    (hs' : s'.rest = ls' ++ rest) :
    ∃ a u ks, p s = .ok a u ∧ f a u = .ok b s' ∧ u.rest = (ks ++ ls') ++ rest := by
  obtain ⟨a, u, hp, hf⟩ := bind_ok.1 h
  obtain ⟨ks, move⟩ := later a hf
  exact ⟨a, u, ks, hp, hf, by rw [move.rest, hs', List.append_assoc]⟩

/-- To look moves nothing. -/
theorem Forward.look {f : Kind → Parser α} (ahead : Nat) (later : ∀ kind, Forward (f kind)) :
    Forward (peek ahead >>= f) :=
  fun s _ _ h => later (s.kindAt ahead) h

/-- The current token is the next one of the rest. -/
theorem State.kindAt_zero {s : State} {rest : List Kind} (hs : s.rest = rest) :
    s.kindAt 0 = next rest := by
  rw [kindAt, hs]

/-- It is the first one, if there is one. -/
theorem State.kindAt_of_rest {s : State} {a : Kind} {later : List Kind}
    (hs : s.rest = a :: later) : s.kindAt 0 = a :=
  kindAt_zero hs

/-- A token that is passed is gone. -/
theorem State.rest_advance {s : State} {a : Kind} {later : List Kind} (hs : s.rest = a :: later)
    (inner : a ≠ .eof) : s.advance.rest = later := by
  have m := Grammar.moves_advance (kindAt_of_rest hs) inner
  exact (List.cons.inj (hs.symm.trans m.rest)).2.symm

/-- Past the current token the next one is current. -/
theorem State.kindAt_advance {s : State} (inner : s.kindAt 0 ≠ .eof) :
    s.advance.kindAt 0 = s.kindAt 1 := by
  have m := Grammar.moves_advance rfl inner
  rw [kindAt, kindAt, m.rest]
  rfl

-- =============================================================== forks

/-- Two ends for the same tokens. Behind the left one there is no more of a
list, and behind the right one no more of an expression. -/
structure Fork where
  left : List Kind
  right : List Kind
  left_stops : Stops (next left)
  right_halts : Halts (next right)

namespace Fork

/-- The keyword stands at neither end. -/
def Free (k : Fork) (keyword : Keyword) : Prop :=
  (next k.left).keyword? ≠ some keyword ∧ (next k.right).keyword? ≠ some keyword

/-- What ends lists at the left ends expressions there. -/
theorem left_halts (k : Fork) : Halts (next k.left) := k.left_stops.halts

/-- A keyword that stands behind no entry stands at neither end. -/
theorem free (k : Fork) {keyword : Keyword} (other : keyword ∉ afterEntry) : k.Free keyword :=
  ⟨k.left_halts.ne_keyword other, k.right_halts.ne_keyword other⟩

/-- Lists are over at the right end too. -/
def Closed (k : Fork) : Prop := Stops (next k.right)

end Fork

/-- Before the left end of the fork `p` reads some of at most `n` tokens,
the first of them `known`, as `q` does before the right end. -/
structure Twin (k : Fork) (n : Nat) (known : List Kind) (least : α → Nat) (p q : Parser α) :
    Prop where
  forward : Forward p
  follow : ∀ ⦃ls ls' : List Kind⦄ ⦃s t : State⦄ ⦃a : α⦄ ⦃s' : State⦄, ls.length ≤ n →
    known <+: ls → s.rest = ls ++ k.left → t.rest = ls ++ k.right → p s = .ok a s' →
    s'.rest = ls' ++ k.left →
    ls'.length + least a ≤ ls.length ∧ ∃ t', q t = .ok a t' ∧ t'.rest = ls' ++ k.right

namespace Twin

variable {k : Fork} {n : Nat} {known : List Kind} {least : α → Nat} {p q : Parser α}

/-- What holds of so many tokens holds of fewer. -/
theorem mono {m : Nat} (h : Twin k n known least p q) (le : m ≤ n) :
    Twin k m known least p q :=
  ⟨h.forward, fun _ _ _ _ _ _ short => h.follow (Nat.le_trans short le)⟩

/-- What holds of all tokens holds of those with a known start. -/
theorem seen (h : Twin k n [] least p q) (known : List Kind) : Twin k n known least p q :=
  ⟨h.forward, fun _ _ _ _ _ _ short _ => h.follow short List.nil_prefix⟩

/-- At least so many tokens are at least as many as fewer. -/
theorem ease {fewer : α → Nat} (h : Twin k n known least p q) (le : ∀ a, fewer a ≤ least a) :
    Twin k n known fewer p q := by
  refine ⟨h.forward, fun ls ls' s t a s' short starts hs ht hp hs' => ?_⟩
  obtain ⟨taken, found⟩ := h.follow short starts hs ht hp hs'
  exact ⟨Nat.le_trans (Nat.add_le_add_left (le a) _) taken, found⟩

/-- A parser that takes nothing stays before the boundary. -/
protected theorem pure (a : α) (zero : least a = 0) :
    Twin k n known least (pure a) (pure a) := by
  refine ⟨fun s b s' h => ?_, fun ls ls' s t b s' _ _ hs ht h hs' => ?_⟩
  · obtain ⟨-, rfl⟩ := pure_ok.1 h
    exact ⟨[], Moves.refl _⟩
  · obtain ⟨rfl, rfl⟩ := pure_ok.1 h
    obtain rfl := List.append_cancel_right (hs.symm.trans hs')
    exact ⟨Nat.le_of_eq (congrArg (ls.length + ·) zero), t, rfl, ht⟩

/-- It takes at least none. -/
theorem done (a : α) : Twin k n known (fun _ => 0) (pure a) (pure a) := .pure a rfl

/-- A parser that fails is like any other. -/
theorem never (h : ∀ s a s', p s ≠ .ok a s') : Twin k n known least p q :=
  ⟨fun s a s' hp => absurd hp (h s a s'), fun _ _ s _ a s' _ _ _ _ hp => absurd hp (h s a s')⟩

/-- A token that no rule takes. -/
protected theorem unexpected (expected : String) :
    Twin k n known least (unexpected expected) q :=
  never fun _ _ _ => unexpected_ok.1

/-- A broken rule. -/
protected theorem reject (rule : Rule) (first last : Nat) :
    Twin k n known least (reject rule first last) q :=
  never fun _ _ _ => reject_ok.1

/-- A parser that leaves the boundary behind is like any other there. -/
theorem away (forward : Forward p)
    (leaves : ∀ s a s', s.rest = k.left → p s = .ok a s' → s'.rest.length < k.left.length) :
    Twin k 0 [] least p q := by
  refine ⟨forward, fun ls ls' s t a s' short _ hs _ hp hs' => ?_⟩
  obtain rfl := List.eq_nil_of_length_eq_zero (Nat.le_zero.1 short)
  have shorter := leaves s a s' hs hp
  rw [hs', List.length_append] at shorter
  omega

/-- At the boundary either parser may stay where it is. -/
theorem still {a : α} (forward : Forward p) (zero : least a = 0)
    (left : ∀ s, s.rest = k.left → p s = .ok a s)
    (right : ∀ t, t.rest = k.right → q t = .ok a t) : Twin k 0 [] least p q := by
  refine ⟨forward, fun ls ls' s t b s' short _ hs ht h hs' => ?_⟩
  obtain rfl := List.eq_nil_of_length_eq_zero (Nat.le_zero.1 short)
  rw [left s hs] at h
  cases h
  obtain rfl := List.append_cancel_right (hs.symm.trans hs')
  rw [zero]
  exact ⟨Nat.le_refl 0, t, right t ht, ht⟩

/-- The second parts are compared over the tokens that the first ones leave. -/
theorem bind {m : α → Nat} {l : α → β → Nat} {r : β → Nat} {f g : α → Parser β}
    (first : Twin k n known m p q) (later : ∀ a, Twin k (n - m a) [] (l a) (f a) (g a))
    (enough : ∀ a b, r b ≤ m a + l a b) : Twin k n known r (p >>= f) (q >>= g) := by
  refine ⟨first.forward.bind fun a => (later a).forward, ?_⟩
  intro ls ls' s t b s' short starts hs ht h hs'
  -- where the first part ends, the cursor stands before the boundary as well
  obtain ⟨a, u, ks, hp, hf, hu⟩ := Forward.between (fun a => (later a).forward) h hs'
  obtain ⟨taken, v, hq, hv⟩ := first.follow short starts hs ht hp hu
  obtain ⟨taken', t', hg, ht'⟩ := (later a).follow (by omega) List.nil_prefix hu hv hf hs'
  have := enough a b
  exact ⟨by omega, t', bind_ok.2 ⟨a, v, hq, hg⟩, ht'⟩

/-- A sequence whose first part may take nothing. -/
theorem «then» {m : α → Nat} {l : β → Nat} {f g : α → Parser β} (first : Twin k n known m p q)
    (later : ∀ a, Twin k n [] l (f a) (g a)) : Twin k n known l (p >>= f) (q >>= g) :=
  bind (m := m) (l := fun _ => l) first (fun a => (later a).mono (Nat.sub_le _ _))
    fun _ _ => Nat.le_add_left _ _

/-- A sequence whose first part takes a token. -/
theorem lead {f g : α → Parser β} (first : Twin k n known (fun _ => 1) p q)
    (later : ∀ a, Twin k (n - 1) [] (fun _ => 0) (f a) (g a)) :
    Twin k n known (fun _ => 1) (p >>= f) (q >>= g) :=
  bind (m := fun _ => 1) (l := fun _ _ => 0) first later fun _ _ => Nat.le_refl _

-- ============================================================ looking

section Looking

variable {f g : Kind → Parser α}

/-- The first token that is not known yet is one of the tokens, or what
stands at the boundary. -/
theorem ahead (stop : Twin k known.length known least (f (next k.left)) (g (next k.right)))
    (inner : ∀ a, Twin k n (known ++ [a]) least (f a) (g a)) :
    Twin k n known least (peek known.length >>= f) (peek known.length >>= g) := by
  refine ⟨Forward.look _ fun kind => (inner kind).forward, ?_⟩
  rintro ls ls' s t a s' short ⟨later, rfl⟩ hs ht h hs'
  rw [peek_bind, State.kindAt, hs] at h
  rw [peek_bind, State.kindAt, ht]
  -- behind the known tokens each run sees a token of both, or its own end
  cases later with
  | nil =>
      have exact : (known ++ []).length ≤ known.length :=
        Nat.le_of_eq (by rw [List.append_nil])
      have at_end (rest : List Kind) :
          (known ++ [] ++ rest).getD known.length .eof = next rest := by
        rw [List.append_nil, List.getD_eq_getElem?_getD,
          List.getElem?_append_right (Nat.le_refl _), Nat.sub_self]
        rfl
      rw [at_end] at h ⊢
      exact stop.follow exact ⟨[], rfl⟩ hs ht h hs'
  | cons b later =>
      have inside (rest : List Kind) :
          (known ++ b :: later ++ rest).getD known.length .eof = b := by
        simp [List.getD_eq_getElem?_getD]
      rw [inside] at h ⊢
      exact (inner b).follow short ⟨later, by simp⟩ hs ht h hs'

/-- The current token is the first of the tokens, or what stands at the
boundary. -/
protected theorem current (stop : Twin k 0 [] least (f (next k.left)) (g (next k.right)))
    (inner : ∀ a, Twin k n [a] least (f a) (g a)) :
    Twin k n [] least (current >>= f) (current >>= g) :=
  ahead stop inner

/-- A parser that fails at the boundary starts with one of the tokens. -/
theorem starts (forward : Forward (Grammar.current >>= f))
    (fails : ∀ s a s', s.rest = k.left → (Grammar.current >>= f) s ≠ .ok a s')
    (inner : ∀ a, Twin k n [a] least (f a) (g a)) :
    Twin k n [] least (Grammar.current >>= f) (Grammar.current >>= g) := by
  refine ⟨forward, fun ls ls' s t a s' short _ hs ht h hs' => ?_⟩
  cases ls with
  | nil => exact absurd h (fails s a s' hs)
  | cons b later =>
      rw [current_bind, State.kindAt, hs] at h
      rw [current_bind, State.kindAt, ht]
      exact (inner b).follow short ⟨later, rfl⟩ hs ht h hs'

/-- The token behind a known one. -/
theorem second {a : Kind} (stop : Twin k 1 [a] least (f (next k.left)) (g (next k.right)))
    (inner : ∀ b, Twin k n [a, b] least (f b) (g b)) :
    Twin k n [a] least (peek 1 >>= f) (peek 1 >>= g) :=
  ahead stop inner

/-- The token behind two known ones. -/
theorem third {a b : Kind} (stop : Twin k 2 [a, b] least (f (next k.left)) (g (next k.right)))
    (inner : ∀ c, Twin k n [a, b, c] least (f c) (g c)) :
    Twin k n [a, b] least (peek 2 >>= f) (peek 2 >>= g) :=
  ahead stop inner

/-- A token that is known is seen again. -/
theorem here {a : Kind} (forward : Forward (current >>= f))
    (later : Twin k n (a :: known) least (f a) (g a)) :
    Twin k n (a :: known) least (current >>= f) (current >>= g) := by
  refine ⟨forward, ?_⟩
  rintro ls ls' s t b s' short ⟨more, rfl⟩ hs ht h hs'
  rw [current_bind, State.kindAt, hs] at h
  rw [current_bind, State.kindAt, ht]
  exact later.follow short ⟨more, rfl⟩ hs ht h hs'

/-- What is seen may not matter. -/
theorem blind (ahead : Nat) (later : ∀ a b, Twin k n known least (f a) (g b)) :
    Twin k n known least (peek ahead >>= f) (peek ahead >>= g) :=
  ⟨Forward.look ahead fun kind => (later kind kind).forward,
    fun _ _ _ _ _ _ short starts hs ht h => (later _ _).follow short starts hs ht h⟩

end Looking

/-- The two runs stand at different indices, and nothing may come of them. -/
protected theorem positionAt {f g : Nat → Parser α} (ahead : Nat)
    (later : ∀ i j, Twin k n known least (f i) (g j)) :
    Twin k n known least (positionAt ahead >>= f) (positionAt ahead >>= g) :=
  ⟨fun s _ _ h => (later (s.position + ahead) 0).forward h,
    fun _ _ _ _ _ _ short starts hs ht h => (later _ _).follow short starts hs ht h⟩

/-- The same of the current token. -/
protected theorem position {f g : Nat → Parser α}
    (later : ∀ i j, Twin k n known least (f i) (g j)) :
    Twin k n known least (position >>= f) (position >>= g) := .positionAt 0 later

/-- The numbers of tokens left differ, but neither is less than the number
of tokens before the boundary. -/
protected theorem tokensLeft {f g : Nat → Parser α}
    (later : ∀ i ≤ n, ∀ c d, i ≤ c → i ≤ d → Twin k i [] least (f c) (g d)) :
    Twin k n [] least (tokensLeft >>= f) (tokensLeft >>= g) := by
  refine ⟨fun s _ _ h => (later 0 (Nat.zero_le n) s.rest.length 0 (Nat.zero_le _)
    (Nat.le_refl _)).forward h, fun ls ls' s t a s' short starts hs ht h hs' => ?_⟩
  have within (s : State) {rest : List Kind} (hs : s.rest = ls ++ rest) :
      ls.length ≤ s.rest.length := by
    rw [hs, List.length_append]
    exact Nat.le_add_right _ _
  exact (later ls.length short _ _ (within s hs) (within t ht)).follow (Nat.le_refl _)
    starts hs ht h hs'

-- ============================================================= moving

/-- A token that is known can be taken. -/
protected theorem advance {a : Kind} {l : α → Nat} {f g : Unit → Parser α} (inner : a ≠ .eof)
    (later : Twin k (n - 1) known l (f ()) (g ())) (enough : ∀ b, least b ≤ l b + 1) :
    Twin k n (a :: known) least (advance >>= f) (advance >>= g) := by
  have move : Course false 0 advance := .advance
  refine ⟨move.forward.bind fun _ => later.forward, ?_⟩
  rintro ls ls' s t b s' short ⟨more, rfl⟩ hs ht h hs'
  have short' : (known ++ more).length ≤ n - 1 := by
    have := short
    rw [List.cons_append, List.length_cons] at this
    omega
  obtain ⟨taken, t', hg, ht'⟩ := later.follow short' ⟨more, rfl⟩ (State.rest_advance hs inner)
    (State.rest_advance ht inner) h hs'
  refine ⟨?_, t', hg, ht'⟩
  have := enough b
  rw [List.cons_append, List.length_cons]
  omega

/-- At the boundary a token that is taken leads beyond. -/
theorem leave {f : Unit → Parser α} (inner : next k.left ≠ .eof) (forward : Forward (f ())) :
    Twin k 0 [] least (Grammar.advance >>= f) q := by
  have move : Course false 0 Grammar.advance := .advance
  refine away (move.forward.bind fun _ => forward) fun s a s' hs h => ?_
  obtain ⟨ks, later⟩ : ∃ ks, Moves s.advance ks s' := forward h
  have seen : s.kindAt 0 = next k.left := State.kindAt_zero hs
  have passed := congrArg List.length ((moves_advance seen inner).rest)
  rw [hs, later.rest, List.length_append, List.length_append] at passed
  rw [passed]
  show _ < 1 + _
  omega

/-- Tokens that are known can be skipped. -/
protected theorem skip (ks : List Kind) {l : α → Nat} {f g : Unit → Parser α} (inner : .eof ∉ ks)
    (later : Twin k (n - ks.length) known l (f ()) (g ()))
    (enough : ∀ b, least b ≤ l b + ks.length) :
    Twin k n (ks ++ known) least (skip ks.length >>= f) (skip ks.length >>= g) := by
  induction ks generalizing n least with
  | nil => exact later.ease enough
  | cons a ks ih =>
      have first : a ≠ .eof := fun eof => inner (eof ▸ List.mem_cons_self)
      have rest : .eof ∉ ks := fun eof => inner (List.mem_cons_of_mem _ eof)
      have tail : Twin k (n - 1) (ks ++ known) (fun b => l b + ks.length)
          (skip ks.length >>= f) (skip ks.length >>= g) := by
        refine ih rest (later.mono ?_) fun _ => Nat.le_refl _
        rw [List.length_cons]
        omega
      have split (f : Unit → Parser α) : (skip (a :: ks).length >>= f)
          = Grammar.advance >>= fun _ => skip ks.length >>= f := by
        rw [← bind_assoc]
        rfl
      rw [split, split]
      exact Twin.advance first tail enough

end Twin

-- ======================================================= primitives

/-- To take nothing is to move forward. -/
theorem forward_pure (a : α) : Forward (pure a) :=
  (Course.pure a : Course false 0 (pure a)).forward

section Primitives

variable {k : Fork} {n : Nat}

/-- A symbol that must be there is one of the tokens. -/
theorem Twin.expect {l : α → Nat} {least : α → Nat} {f g : Nat → Parser α} (symbol : Symbol)
    (later : ∀ i j, Twin k (n - 1) [] l (f i) (g j)) (enough : ∀ b, least b ≤ l b + 1) :
    Twin k n [] least (expect symbol >>= f) (expect symbol >>= g) := by
  rw [expect_bind_eq, expect_bind_eq]
  refine Twin.position fun i j => Twin.current ?_ fun a => ?_
  · split
    next found =>
      refine Twin.leave ?_ (later i j).forward
      rw [found]
      exact nofun
    next => exact Twin.unexpected _
  · split
    next found =>
      obtain rfl := found
      exact Twin.advance nofun (later i j) enough
    next => exact Twin.unexpected _

/-- Up to the left end of the fork `p` reads as many tokens as `q` does up to
the right end. -/
def Fork.Meets (k : Fork) (n : Nat) (p q : Parser α) : Prop :=
  ∀ ⦃ls : List Kind⦄ ⦃s t : State⦄ ⦃a : α⦄ ⦃s' : State⦄, ls.length ≤ n → s.rest = ls ++ k.left →
    t.rest = ls ++ k.right → p s = .ok a s' → s'.rest = k.left →
    ∃ t', q t = .ok a t' ∧ t'.rest = k.right

/-- A comparison that goes up to the boundary is one that meets there. -/
theorem Twin.meets {least : α → Nat} {p q : Parser α} (h : Twin k n [] least p q) :
    k.Meets n p q :=
  fun _ _ _ _ s' short hs ht hp hs' => by
    have stop : s'.rest = [] ++ k.left := hs'
    exact (h.follow short List.nil_prefix hs ht hp stop).2

/-- What one run reads up to the left end, the other reads before the right
end. -/
theorem Fork.Meets.reads {p q : Parser α} (meets : k.Meets n p q) (forward : Forward q)
    {ls : List Kind} (short : ls.length ≤ n) {s s' : State} {a : α} (hs : s.rest = ls ++ k.left)
    (h : p s = .ok a s') (hs' : s'.rest = k.left) : Reads q ls k.right a := by
  intro t ht
  obtain ⟨t', ht', stop⟩ := meets short hs ht h hs'
  obtain ⟨ks, m⟩ := forward ht'
  have moved : ks = ls := by
    have whole := m.rest
    rw [ht, stop] at whole
    exact (List.append_cancel_right whole).symm
  exact ⟨t', stop, moved ▸ m.position, ht'⟩

/-- A closing parenthesis stands at either end. -/
structure Fork.Inside (k : Fork) : Prop where
  left : next k.left = .symbol .rightParen
  right : next k.right = .symbol .rightParen

/-- A closing parenthesis ends lists. -/
theorem Fork.Inside.closed {k : Fork} (h : k.Inside) : k.Closed := by
  unfold Fork.Closed
  rw [h.right]
  rfl

/-- What has to close with a parenthesis is read up to that parenthesis, so
it makes no difference what stands behind it. -/
theorem twin_enclosed {p q : Parser α} {f g : α → Nat → Parser β} {l : β → Nat}
    (forward : Forward p) (inside : ∀ k : Fork, k.Inside → k.Meets n p q)
    (later : ∀ a i j, Twin k n [] l (f a i) (g a j)) :
    Twin k n [] l (p >>= fun a => expect .rightParen >>= f a)
      (q >>= fun a => expect .rightParen >>= g a) := by
  have closes (a : α) : Forward (expect .rightParen >>= f a) :=
    Forward.bind (fun _ _ _ h => ⟨_, expect_ok h⟩) fun i => (later a i i).forward
  refine ⟨forward.bind closes, fun ls ls' s t b s' short _ hs ht h hs' => ?_⟩
  obtain ⟨a, u, hp, h⟩ := bind_ok.1 h
  obtain ⟨i, v, hclose, hf⟩ := bind_ok.1 h
  obtain ⟨ks, passed⟩ := forward hp
  obtain ⟨js, behind⟩ := (later a i i).forward hf
  -- the parenthesis stands before the boundary, and with it what follows
  have hv : v.rest = (js ++ ls') ++ k.left := by rw [behind.rest, hs', List.append_assoc]
  have hu : u.rest = .symbol .rightParen :: ((js ++ ls') ++ k.left) := by
    rw [(expect_ok hclose).rest, hv]
    rfl
  have split : ls = ks ++ .symbol .rightParen :: (js ++ ls') := by
    have whole := passed.rest
    rw [hs, hu, ← List.cons_append, ← List.append_assoc] at whole
    exact List.append_cancel_right whole
  subst split
  rw [List.length_append, List.length_cons] at short ⊢
  -- what is inside is compared before that parenthesis, with all behind it as
  -- the ends
  let k' : Fork := ⟨.symbol .rightParen :: ((js ++ ls') ++ k.left),
    .symbol .rightParen :: ((js ++ ls') ++ k.right), rfl, Or.inr rfl⟩
  have around (rest : List Kind) : (ks ++ .symbol .rightParen :: (js ++ ls')) ++ rest
      = ks ++ .symbol .rightParen :: ((js ++ ls') ++ rest) := by
    rw [List.append_assoc, List.cons_append]
  obtain ⟨v', hq, hv'⟩ := inside k' ⟨rfl, rfl⟩ (Nat.le_trans (Nat.le_add_right _ _) short)
    (hs.trans (around _)) (ht.trans (around _)) hp hu
  obtain ⟨taken, t', hg, ht'⟩ := (later a i v'.position).follow (by omega) List.nil_prefix hv
    (State.rest_advance hv' nofun) hf hs'
  refine ⟨by omega, t', bind_ok.2 ⟨a, v', hq, ?_⟩, ht'⟩
  rw [expect_bind, if_pos (State.kindAt_of_rest hv'), hg]

/-- A keyword that must be there is one of the tokens. -/
theorem twin_expectKeyword (keyword : Keyword) :
    Twin k n [] (fun _ => 1) (expectKeyword keyword) (expectKeyword keyword) := by
  rw [expectKeyword_eq]
  refine Twin.current ?_ fun a => ?_
  · split
    next found => exact Twin.leave (ne_eof_of_keyword? found) (forward_pure ())
    next => exact Twin.unexpected _
  · split
    next found =>
      exact Twin.advance (ne_eof_of_keyword? found) (.done ()) fun _ => Nat.le_refl _
    next => exact Twin.unexpected _

/-- A symbol that stands at neither end may be there. -/
theorem twin_consume_apart (symbol : Symbol) (left : next k.left ≠ .symbol symbol)
    (right : next k.right ≠ .symbol symbol) :
    Twin k n [] taken (consume symbol) (consume symbol) := by
  rw [consume_eq]
  refine Twin.current ?_ fun a => ?_
  · rw [if_neg left, if_neg right]
    exact .pure false rfl
  · split
    next found =>
      obtain rfl := found
      exact Twin.advance nofun (.done true) taken_le
    next => exact .pure false rfl

/-- A symbol that ends no expression may be there. -/
theorem twin_consume (symbol : Symbol) (comma : symbol ≠ .comma) (semicolon : symbol ≠ .semicolon)
    (rightParen : symbol ≠ .rightParen) :
    Twin k n [] taken (consume symbol) (consume symbol) :=
  twin_consume_apart symbol (k.left_halts.ne_symbol comma semicolon rightParen)
    (k.right_halts.ne_symbol comma semicolon rightParen)

/-- A keyword that stands at neither end may be there. -/
theorem twin_consumeKeyword (keyword : Keyword) (free : k.Free keyword) :
    Twin k n [] taken (consumeKeyword keyword) (consumeKeyword keyword) := by
  rw [consumeKeyword_eq]
  refine Twin.current ?_ fun a => ?_
  · rw [if_neg free.1, if_neg free.2]
    exact .pure false rfl
  · split
    next found =>
      exact Twin.advance (ne_eof_of_keyword? found) (.done true) taken_le
    next => exact .pure false rfl

/-- A name that must be there is one of the tokens. -/
theorem twin_identifier : Twin k n [] (fun _ => 1) identifier identifier := by
  refine Twin.current ?_ fun a => ?_
  · rw [k.left_halts.identifier?]
    exact Twin.unexpected _
  · cases named : a.identifier? with
    | none => exact Twin.unexpected _
    | some name =>
        exact Twin.advance (ne_eof_of_identifier? named) (.done name) fun _ => Nat.le_refl _

/-- Whether a keyword stands here that stands at neither end. -/
theorem Twin.atKeyword {least : α → Nat} {f g : Bool → Parser α} (keyword : Keyword)
    (free : k.Free keyword) (later : ∀ b, Twin k n [] least (f b) (g b)) :
    Twin k n [] least (atKeyword keyword >>= f) (atKeyword keyword >>= g) := by
  have seen (f : Bool → Parser α) : Grammar.atKeyword keyword >>= f
      = Grammar.current >>= fun kind => f (kind.keyword? == some keyword) := rfl
  rw [seen, seen]
  refine Twin.current ?_ fun a => (later _).seen [a]
  rw [beq_false_of_ne free.1, beq_false_of_ne free.2]
  exact (later false).mono (Nat.zero_le n)

/-- Where lists are over there is no comma. -/
theorem twin_comma (closed : k.Closed) : Twin k n [] taken (consume .comma) (consume .comma) :=
  twin_consume_apart .comma k.left_stops.ne_comma closed.ne_comma

-- ======================================================== combining

variable {body body' : Parser α} {m : α → Nat} (hbody : Twin k n [] m body body')

include hbody in
/-- A clause whose keyword stands at neither end is left out or read alike. -/
theorem twin_clause (keyword : Keyword) (free : k.Free keyword) :
    Twin k n [] (fun _ => 0) (clause keyword body) (clause keyword body') := by
  refine Twin.then (twin_consumeKeyword keyword free) fun found => ?_
  cases found with
  | true => exact hbody.then fun a => .done (some a)
  | false => exact .done none

/-- Without a comma there is no further item. -/
theorem moreItems_stop {s : State} (stop : s.kindAt 0 ≠ .symbol .comma) (count : Nat) :
    moreItems body count s = .ok [] s := by
  cases count with
  | zero => rfl
  | succ count =>
      rw [moreItems, bind_apply, consume_eq, current_bind, if_neg stop]
      rfl

variable {speculates : Bool} (course : ∀ mark, Course speculates mark body) (closed : k.Closed)

include hbody course closed

/-- Either run has a round for every token, so that neither stops early. -/
theorem twin_moreItems {i : Nat} (le : i ≤ n) {c d : Nat} (hc : i ≤ c) (hd : i ≤ d) :
    Twin k i [] (fun _ => 0) (moreItems body c) (moreItems body' d) := by
  induction i generalizing c d with
  | zero =>
      have stop {rest : List Kind} (stops : Stops (next rest)) (body : Parser α) (count : Nat)
          (s : State) (hs : s.rest = rest) : moreItems body count s = .ok [] s := by
        refine moreItems_stop ?_ count
        rw [State.kindAt_zero hs]
        exact stops.ne_comma
      exact Twin.still (course_moreItems course c).forward rfl (stop k.left_stops body c)
        (stop closed body' d)
  | succ i ih =>
      obtain ⟨c, rfl⟩ := Nat.exists_eq_add_of_le' (Nat.le_trans (Nat.succ_pos i) hc)
      obtain ⟨d, rfl⟩ := Nat.exists_eq_add_of_le' (Nat.le_trans (Nat.succ_pos i) hd)
      have le : i ≤ n := Nat.le_of_succ_le le
      refine Twin.bind (l := fun _ _ => 0) (twin_comma closed) (fun found => ?_)
        fun _ _ => Nat.zero_le _
      cases found with
      | true =>
          refine Twin.then (hbody.mono le) fun head => ?_
          have tail := ih le (Nat.le_of_succ_le_succ hc) (Nat.le_of_succ_le_succ hd)
          exact tail.then fun _ => .done _
      | false => exact .done []

/-- A list in which every item takes a token has no more items than tokens. -/
theorem twin_commaSeparated (one : ∀ a, 1 ≤ m a) :
    Twin k n [] (fun _ => 1) (commaSeparated body) (commaSeparated body') := by
  refine Twin.lead (hbody.ease one) fun head => Twin.tokensLeft fun i le c d hc hd => ?_
  have items := twin_moreItems hbody course closed (Nat.le_trans le (Nat.sub_le n 1)) hc hd
  exact items.then fun _ => .done _

end Primitives

end SqlSelect.Grammar
