/-
How a successful parser moves over the tokens.

`Moves s ks s'` says that from `s` to `s'` the cursor passes exactly the
tokens `ks`, none of them the end of the input. A parser that succeeds is
described by the tokens it passes: `Passes p R` says that they are related
by `R` to what it yields.

# The primitive parsers

Each of them has one lemma, named `_ok`, that says in which ways it can
succeed and over which tokens it moves then. Whoever takes a production apart
step by step reads these lemmas off its calls and never opens a primitive. A
parser that only looks has an equation instead, named `_bind`, which says what
it hands on.

# Tokens that a text can have

A keyword that is seen is the token of that keyword only where the tokens were
cut from a text, since words there are folded (`State.Lexed`). Moving on
keeps this (`Moves.lexed`), so it is a condition on where a run starts.

# Combinators

`clause`, `moreItems` and `commaSeparated` carry `Passes` from their parts to
the whole, once for all the productions that are made with them.
-/
import SqlSelect.Proofs.Ahead
import SqlSelect.Proofs.Yield

namespace SqlSelect.Grammar

variable {α β : Type}

-- ========================================================== success

/-- A failure at the current token names it and stays. -/
theorem failHere_apply (cause : Kind → Cause) (s : State) :
    (failHere cause : Parser α) s
      = .error ⟨cause (s.kindAt 0), ⟨s.position, s.position⟩⟩ s := rfl

/-- So does the one that says what was expected. -/
theorem unexpected_apply (expected : String) (s : State) :
    (unexpected expected : Parser α) s
      = .error ⟨Cause.ofFound expected (s.kindAt 0), ⟨s.position, s.position⟩⟩ s := rfl

/-- A rule that is broken is reported, unless the run is an attempt. -/
theorem reject_apply (rule : Rule) (first last : Nat) (s : State) :
    (reject rule first last : Parser α) s = .error ⟨.invalid rule, ⟨first, last⟩⟩
      (if s.trial then s else s.report (.rejected rule ⟨first, last⟩)) := rfl

/-- No success comes from a failure. -/
@[simp]
theorem unexpected_ok {expected : String} {a : α} {s s' : State} :
    (unexpected expected : Parser α) s = .ok a s' ↔ False :=
  ⟨nofun, False.elim⟩

@[simp]
theorem reject_ok {rule : Rule} {first last : Nat} {a : α} {s s' : State} :
    (reject rule first last : Parser α) s = .ok a s' ↔ False :=
  ⟨nofun, False.elim⟩

/-- Looking ahead changes nothing. -/
theorem peek_bind (ahead : Nat) (f : Kind → Parser α) (s : State) :
    (peek ahead >>= f) s = f (s.kindAt ahead) s := rfl

/-- The same for the token at hand. -/
theorem current_bind (f : Kind → Parser α) (s : State) :
    (current >>= f) s = f (s.kindAt 0) s := rfl

/-- The position is that of the state. -/
theorem position_bind (f : Nat → Parser α) (s : State) :
    (position >>= f) s = f s.position s := rfl

/-- What is left is counted, not passed. -/
theorem tokensLeft_bind (f : Nat → Parser α) (s : State) :
    (tokensLeft >>= f) s = f s.rest.length s := rfl

/-- To ask for a symbol is to compare the token at hand. -/
theorem atSymbol_bind (symbol : Symbol) (f : Bool → Parser α) (s : State) :
    (atSymbol symbol >>= f) s = f (s.kindAt 0 == .symbol symbol) s := rfl

/-- To ask for a keyword is to fold it and compare. -/
theorem atKeyword_bind (keyword : Keyword) (f : Bool → Parser α) (s : State) :
    (atKeyword keyword >>= f) s = f ((s.kindAt 0).keyword? == some keyword) s := rfl

theorem get_bind (f : State → Parser α) (s : State) : (get >>= f) s = f s s := rfl

/-- An attempt is a run with the mark of a trial, whose failure is no failure.
-/
theorem attempt_eq (body : Parser α) (s : State) :
    attempt body s = match body { s with trial := true } with
      | .ok a s' => .ok (some a) { s' with trial := s.trial }
      | .error _ s' => .ok none { s' with trial := s.trial } := by
  unfold attempt
  rw [show Cursor.setTrial true s = { s with trial := true } from rfl]
  cases body { s with trial := true } <;> rfl

-- =========================================================== moving

/-- The tokens ahead are ones that a text can have. -/
def State.Lexed (s : State) : Prop := ∀ k ∈ s.rest, k.Lexed

/-- From `s` to `s'` the cursor passes exactly the given tokens, none of
which is the end of the input. -/
structure Moves (s : State) (kinds : List Kind) (s' : State) : Prop where
  rest : s.rest = kinds ++ s'.rest
  position : s'.position = s.position + kinds.length
  inner : .eof ∉ kinds

namespace Moves

variable {s t u : State} {ks ls : List Kind}

/-- To stay where one is is to move over nothing. -/
theorem stay (hrest : t.rest = s.rest) (hposition : t.position = s.position) : Moves s [] t :=
  ⟨hrest.symm, hposition, List.not_mem_nil⟩

/-- Nothing is passed where nothing moves. -/
theorem refl (s : State) : Moves s [] s := stay rfl rfl

/-- Moves behind each other are one. -/
theorem trans (first : Moves s ks t) (second : Moves t ls u) : Moves s (ks ++ ls) u := by
  refine ⟨?_, ?_, ?_⟩
  · rw [first.rest, second.rest, List.append_assoc]
  · rw [second.position, first.position, List.length_append, Nat.add_assoc]
  · intro eof
    rcases List.mem_append.1 eof with eof | eof
    · exact first.inner eof
    · exact second.inner eof

/-- What is ahead after a move was ahead before it. -/
theorem lexed (m : Moves s ks t) (hs : s.Lexed) : t.Lexed := by
  intro k hk
  exact hs k (m.rest ▸ List.mem_append_right _ hk)

/-- What is passed was ahead. -/
theorem lexed_kinds (m : Moves s ks t) (hs : s.Lexed) : ∀ k ∈ ks, k.Lexed := by
  intro k hk
  exact hs k (m.rest ▸ List.mem_append_left _ hk)

end Moves

/-- A token that is not the end of the input is the first one left. -/
theorem State.rest_of_kindAt {s : State} {k : Kind} (h : s.kindAt 0 = k) (inner : k ≠ .eof) :
    ∃ later, s.rest = k :: later := by
  unfold kindAt at h
  cases hrest : s.rest with
  | nil =>
      rw [hrest] at h
      exact absurd h.symm inner
  | cons first later =>
      rw [hrest] at h
      exact ⟨later, by rw [← h]; rfl⟩

/-- Tokens that are seen one by one, none of them the end of the input, are
the first ones left. -/
theorem State.rest_of_kindsAt (s : State) (ks : List Kind)
    (seen : (List.range ks.length).map s.kindAt = ks) (inner : .eof ∉ ks) :
    ∃ later, s.rest = ks ++ later := by
  -- token by token, so that the induction can shift the index
  have h : ∀ i, i < ks.length → s.kindAt i = ks.getD i .eof := by
    intro i hi
    have here := congrArg (fun list => list.getD i .eof) seen
    simpa [hi] using here
  unfold kindAt at h
  generalize s.rest = rest at h
  clear seen
  induction ks generalizing rest with
  | nil => exact ⟨rest, rfl⟩
  | cons k ks ih =>
      cases rest with
      | nil =>
          have first : Kind.eof = k := h 0 (Nat.zero_lt_succ _)
          exact absurd (first ▸ List.mem_cons_self) inner
      | cons first rest =>
          have same : first = k := h 0 (Nat.zero_lt_succ _)
          obtain ⟨later, rfl⟩ := ih (fun eof => inner (List.mem_cons_of_mem _ eof)) rest
            fun i hi => h (i + 1) (Nat.succ_lt_succ hi)
          exact ⟨later, by rw [same]; rfl⟩

/-- A keyword that is ahead is the token of that keyword. -/
theorem State.kindAt_of_keyword? {s : State} {keyword : Keyword} {ahead : Nat} (hs : s.Lexed)
    (h : (s.kindAt ahead).keyword? = some keyword) : s.kindAt ahead = keyword.kind := by
  refine Kind.eq_kind_of_keyword? ?_ h
  unfold kindAt
  rw [List.getD_eq_getElem?_getD]
  cases hk : s.rest[ahead]? with
  | none => trivial
  | some k => exact hs k (List.mem_of_getElem? hk)

/-- To advance is to pass the current token. -/
theorem moves_advance {s : State} {k : Kind} (h : s.kindAt 0 = k) (inner : k ≠ .eof) :
    Moves s [k] s.advance := by
  obtain ⟨later, hrest⟩ := State.rest_of_kindAt h inner
  have next : s.advance = { s with position := s.position + 1, rest := later } := by
    unfold State.advance
    rw [hrest]
    split
    next => contradiction
    next heq =>
      cases heq
      exact absurd rfl inner
    next heq =>
      cases heq
      rfl
  rw [next]
  exact ⟨hrest, rfl, fun eof => inner (List.mem_singleton.1 eof).symm⟩

/-- So is one step of the parser. -/
theorem advance_ok {s s' : State} {u : Unit} {k : Kind} (h : advance s = .ok u s')
    (hk : s.kindAt 0 = k) (inner : k ≠ .eof) : Moves s [k] s' := by
  have : s' = s.advance := by cases h; rfl
  rw [this]
  exact moves_advance hk inner

/-- To skip tokens is to pass them. -/
theorem skip_ok {ks later : List Kind} {s s' : State} {u : Unit} (h : skip ks.length s = .ok u s')
    (hrest : s.rest = ks ++ later) (inner : .eof ∉ ks) : Moves s ks s' := by
  induction ks generalizing s with
  | nil =>
      obtain ⟨-, rfl⟩ := pure_ok.1 h
      exact Moves.refl _
  | cons k ks ih =>
      obtain ⟨_, t, hfirst, h₁⟩ := bind_ok.1 h
      have head : s.kindAt 0 = k := by
        unfold State.kindAt
        rw [hrest]
        rfl
      have first := advance_ok hfirst head fun eof => inner (eof ▸ List.mem_cons_self)
      have tail : t.rest = ks ++ later := by
        have := first.rest
        rw [hrest] at this
        exact (List.cons.inj this).2.symm
      exact first.trans (ih h₁ tail fun eof => inner (List.mem_cons_of_mem _ eof))

-- ======================================================= primitives

/-- A symbol that may be there is passed if it is. -/
theorem consume_apply (symbol : Symbol) (s : State) :
    consume symbol s = if s.kindAt 0 = .symbol symbol then .ok true s.advance
      else .ok false s := by
  unfold consume
  rw [atSymbol_bind]
  by_cases here : s.kindAt 0 = .symbol symbol
  · rw [if_pos (beq_iff_eq.2 here), if_pos here]
    rfl
  · rw [if_neg fun found => here (eq_of_beq found), if_neg here]
    rfl

/-- What follows learns whether it was. -/
theorem consume_bind (symbol : Symbol) (f : Bool → Parser α) (s : State) :
    (consume symbol >>= f) s = if s.kindAt 0 = .symbol symbol then f true s.advance
      else f false s := by
  rw [bind_apply, consume_apply]
  by_cases here : s.kindAt 0 = .symbol symbol
  · rw [if_pos here, if_pos here]
  · rw [if_neg here, if_neg here]

/-- Either it is passed, or nothing moves and something else is there. -/
theorem consume_ok {symbol : Symbol} {b : Bool} {s s' : State}
    (h : consume symbol s = .ok b s') :
    (b = true ∧ Moves s [.symbol symbol] s')
      ∨ (b = false ∧ s' = s ∧ s.kindAt 0 ≠ .symbol symbol) := by
  rw [consume_apply] at h
  split at h
  next here =>
    obtain ⟨rfl, rfl⟩ := EStateM.Result.ok.inj h
    exact Or.inl ⟨rfl, moves_advance here nofun⟩
  next elsewhere =>
    obtain ⟨rfl, rfl⟩ := EStateM.Result.ok.inj h
    exact Or.inr ⟨rfl, rfl, elsewhere⟩

/-- The same for a keyword. -/
theorem consumeKeyword_ok {keyword : Keyword} {b : Bool} {s s' : State} (hs : s.Lexed)
    (h : consumeKeyword keyword s = .ok b s') :
    (b = true ∧ Moves s [keyword.kind] s')
      ∨ (b = false ∧ s' = s ∧ (s.kindAt 0).keyword? ≠ some keyword) := by
  unfold consumeKeyword at h
  rw [atKeyword_bind] at h
  split at h
  next here =>
    obtain ⟨_, t, hmove, h₁⟩ := bind_ok.1 h
    obtain ⟨rfl, rfl⟩ := pure_ok.1 h₁
    exact Or.inl ⟨rfl, advance_ok hmove (s.kindAt_of_keyword? hs (eq_of_beq here)) nofun⟩
  next elsewhere =>
    obtain ⟨rfl, rfl⟩ := pure_ok.1 h
    exact Or.inr ⟨rfl, rfl, fun here => elsewhere (beq_iff_eq.2 here)⟩

/-- A symbol that must be there is passed. -/
theorem expect_ok {symbol : Symbol} {i : Nat} {s s' : State} (h : expect symbol s = .ok i s') :
    Moves s [.symbol symbol] s' := by
  unfold expect at h
  rw [position_bind] at h
  obtain ⟨b, t, hconsume, h₁⟩ := bind_ok.1 h
  rcases consume_ok hconsume with ⟨rfl, m⟩ | ⟨rfl, -, -⟩
  · obtain ⟨-, rfl⟩ := pure_ok.1 h₁
    exact m
  · exact (unexpected_ok.1 h₁).elim

/-- So is a keyword. -/
theorem expectKeyword_ok {keyword : Keyword} {u : Unit} {s s' : State} (hs : s.Lexed)
    (h : expectKeyword keyword s = .ok u s') : Moves s [keyword.kind] s' := by
  unfold expectKeyword at h
  obtain ⟨b, t, hconsume, h₁⟩ := bind_ok.1 h
  rcases consumeKeyword_ok hs hconsume with ⟨rfl, m⟩ | ⟨rfl, -, -⟩
  · obtain ⟨-, rfl⟩ := pure_ok.1 h₁
    exact m
  · exact (unexpected_ok.1 h₁).elim

/-- Behind a keyword that must be there, the token before the cursor is the
one at which it stood. -/
theorem expectKeyword_previous (keyword : Keyword) (f : Nat → Parser α) :
    (expectKeyword keyword >>= fun _ => previous >>= f)
      = position >>= fun here => expectKeyword keyword >>= fun _ => f here := by
  funext s
  rw [position_bind, expectKeyword, consumeKeyword, bind_assoc, bind_assoc, bind_assoc,
    bind_assoc, atKeyword_bind, atKeyword_bind]
  by_cases here : (s.kindAt 0).keyword? = some keyword
  · have inner : s.kindAt 0 ≠ .eof := by
      intro eof
      rw [eof] at here
      cases here
    have behind : s.advance.position - 1 = s.position := by
      rw [(moves_advance rfl inner).position]
      rfl
    rw [if_pos (beq_iff_eq.2 here)]
    show f (s.advance.position - 1) s.advance = f s.position s.advance
    rw [behind]
  · rw [if_neg fun found => here (eq_of_beq found)]
    rfl

/-- The words before a `JOIN` are the run of them that stands there. -/
theorem joinModifiers_apply (s : State) :
    joinModifiers s = (skip (joinWords s.rest).length >>= fun _ => pure (joinWords s.rest)) s :=
  rfl

/-- What is at fault in a join is known before its `JOIN` is passed. -/
theorem joinType_eq : joinType = position >>= fun start => joinModifiers >>= fun words =>
    position >>= fun stop => expectKeyword .JOIN >>= fun _ => match joinType? words with
      | some type => pure type
      | none => reject (.illegalJoinType (String.intercalate " "
          ((words ++ [Keyword.JOIN]).map Keyword.spelling))) start stop := by
  unfold joinType
  refine congrArg (position >>= ·) (funext fun start => ?_)
  refine congrArg (joinModifiers >>= ·) (funext fun words => ?_)
  exact expectKeyword_previous .JOIN _

/-- A name is passed, whichever way it is written. -/
theorem identifier_ok {name : String} {s s' : State} (h : identifier s = .ok name s') :
    ∃ k, s.kindAt 0 = k ∧ k.identifier? = some name ∧ Moves s [k] s' := by
  unfold identifier at h
  rw [current_bind] at h
  cases hfound : (s.kindAt 0).identifier? with
  | some found =>
      rw [hfound] at h
      obtain ⟨_, t, hmove, h₁⟩ := bind_ok.1 h
      obtain ⟨rfl, rfl⟩ := pure_ok.1 h₁
      exact ⟨_, rfl, hfound, advance_ok hmove rfl (ne_eof_of_identifier? hfound)⟩
  | none =>
      rw [hfound] at h
      exact (unexpected_ok.1 h).elim

-- ====================================================== combinators

/-- What the parser yields is related by `R` to the tokens that it
passes. -/
def Passes (p : Parser α) (R : α → List Kind → Prop) : Prop :=
  ∀ ⦃s : State⦄ ⦃a : α⦄ ⦃s' : State⦄, s.Lexed → p s = .ok a s' → ∃ ks, Moves s ks s' ∧ R a ks

/-- A clause is absent, or its keyword and its body are passed. -/
theorem passes_clause {keyword : Keyword} {body : Parser α} {R : α → List Kind → Prop}
    (hbody : Passes body R) : Passes (clause keyword body) (YieldsClause [keyword] R) := by
  intro s a s' hs h
  unfold clause at h
  obtain ⟨b, t, hkeyword, h₁⟩ := bind_ok.1 h
  rcases consumeKeyword_ok hs hkeyword with ⟨rfl, m⟩ | ⟨rfl, rfl, -⟩
  · obtain ⟨a, u, ha, h₂⟩ := bind_ok.1 h₁
    obtain ⟨rfl, rfl⟩ := pure_ok.1 h₂
    obtain ⟨ks, n, hks⟩ := hbody (m.lexed hs) ha
    exact ⟨_, m.trans n, .present hks⟩
  · obtain ⟨rfl, rfl⟩ := pure_ok.1 h₁
    exact ⟨[], Moves.refl _, .absent⟩

/-- Each further item comes with its comma. -/
theorem passes_moreItems {item : Parser α} {R : α → List Kind → Prop} (hitem : Passes item R)
    (count : Nat) : Passes (moreItems item count) fun as ks =>
      ∃ parts : List (α × List Kind), as = parts.map Prod.fst
        ∧ ks = parts.flatMap (fun p => .symbol .comma :: p.2) ∧ ∀ p ∈ parts, R p.1 p.2 := by
  induction count with
  | zero =>
      intro s as s' _ h
      obtain ⟨rfl, rfl⟩ := pure_ok.1 h
      exact ⟨[], Moves.refl _, [], rfl, rfl, nofun⟩
  | succ count ih =>
      intro s as s' hs h
      rw [moreItems] at h
      obtain ⟨b, t, hcomma, h₁⟩ := bind_ok.1 h
      rcases consume_ok hcomma with ⟨rfl, m⟩ | ⟨rfl, rfl, -⟩
      · obtain ⟨head, u, hhead, h₂⟩ := bind_ok.1 h₁
        obtain ⟨tail, v, htail, h₃⟩ := bind_ok.1 h₂
        obtain ⟨rfl, rfl⟩ := pure_ok.1 h₃
        obtain ⟨hs₁, m₁, r₁⟩ := hitem (m.lexed hs) hhead
        obtain ⟨hs₂, m₂, parts, rfl, rfl, r₂⟩ := ih (m₁.lexed (m.lexed hs)) htail
        refine ⟨_, m.trans (m₁.trans m₂), (head, hs₁) :: parts, rfl, by simp, ?_⟩
        intro p hp
        rcases List.mem_cons.1 hp with rfl | hp
        · exact r₁
        · exact r₂ p hp
      · obtain ⟨rfl, rfl⟩ := pure_ok.1 h₁
        exact ⟨[], Moves.refl _, [], rfl, rfl, nofun⟩

/-- A comma before each further item is a comma between neighbours. -/
theorem commas_cons_eq (f : α → List Kind) (first : List Kind) (items : List α) :
    commas (first :: items.map f) = first ++ items.flatMap fun a => .symbol .comma :: f a := by
  induction items generalizing first with
  | nil => simp
  | cons a items ih => rw [List.map_cons, commas_cons_cons, ih, List.flatMap_cons]; rfl

/-- A list has one item, and a comma before each further one. -/
theorem passes_commaSeparated {item : Parser α} {R : α → List Kind → Prop}
    (hitem : Passes item R) : Passes (commaSeparated item) (Separated R) := by
  intro s as s' hs h
  unfold commaSeparated at h
  obtain ⟨head, t, hhead, h₁⟩ := bind_ok.1 h
  rw [tokensLeft_bind] at h₁
  obtain ⟨tail, u, htail, h₂⟩ := bind_ok.1 h₁
  obtain ⟨rfl, rfl⟩ := pure_ok.1 h₂
  obtain ⟨ks, m, r⟩ := hitem hs hhead
  obtain ⟨ls, n, parts, rfl, rfl, rs⟩ := passes_moreItems hitem _ (m.lexed hs) htail
  refine ⟨_, m.trans n, (head, ks) :: parts, List.cons_ne_nil _ _, rfl, ?_, ?_⟩
  · rw [List.map_cons, commas_cons_eq]
  · intro p hp
    rcases List.mem_cons.1 hp with rfl | hp
    · exact r
    · exact rs p hp

end SqlSelect.Grammar
