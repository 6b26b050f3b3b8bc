/-
Parsers run forward over known tokens.

`Runs p ks rest q` says that before the tokens `ks` and `rest` the parser
`p` does what `q` does behind `ks`; what it has reported by then is left
open. `Reads p ks rest a` is the case where `p` is done behind `ks` and
yields `a`. Both are put together in sequence, so a production is run
token by token.

# What follows

A parser may look beyond what it passes, so `rest` is part of the statement.
Where a production must not find a word there, the lemma about it says so, as
`reads_consumeKeyword_absent` does; `of_end_or_comma` carries such conditions
from the end of a list to each of its items.

# Sequence

`Reads.then` is the rule for `>>=`. Its variants `Reads.cons`, `Reads.none`
and `Reads.last` are for parts that read one token or none and for the last
part, so that no production has to rearrange its list of tokens.
-/
import SqlSelect.Proofs.Cursor

namespace SqlSelect.Grammar

variable {α β : Type}

/-- The first of the tokens, or the end of the input. -/
abbrev next (rest : List Kind) : Kind := rest.getD 0 .eof

/-- Before `ks` and `rest` the parser `p` does what `q` does behind `ks`. -/
def Runs (p : Parser α) (ks rest : List Kind) (q : Parser α) : Prop :=
  ∀ s : State, s.rest = ks ++ rest → ∃ s' : State, s'.rest = rest
    ∧ s'.position = s.position + ks.length ∧ p s = q s'

/-- Before `ks` and `rest` the parser passes `ks` and yields `a`. -/
abbrev Reads (p : Parser α) (ks rest : List Kind) (a : α) : Prop := Runs p ks rest (pure a)

/-- Where one keyword follows, no other one does. -/
theorem next_ne_keyword {keyword other : Keyword} {rest : List Kind} (h : keyword ≠ other) :
    (next (keyword.kind :: rest)).keyword? ≠ some other := by
  have here : (next (keyword.kind :: rest)).keyword? = some keyword := keyword.keyword?_kind
  rw [here]
  exact fun same => h (Option.some.inj same)

-- ========================================================= sequence

/-- A parser does what it does. -/
theorem Runs.refl (p : Parser α) (rest : List Kind) : Runs p [] rest p :=
  fun s hs => ⟨s, hs, rfl, rfl⟩

/-- Runs behind each other are one run. -/
theorem Runs.trans {p q r : Parser α} {ks ls rest : List Kind} (first : Runs p ks (ls ++ rest) q)
    (second : Runs q ls rest r) : Runs p (ks ++ ls) rest r := by
  intro s hs
  rw [List.append_assoc] at hs
  obtain ⟨t, ht, tposition, hp⟩ := first s hs
  obtain ⟨u, hu, uposition, hq⟩ := second t ht
  refine ⟨u, hu, ?_, hp.trans hq⟩
  rw [uposition, tposition, List.length_append, Nat.add_assoc]

/-- What is done with the result is done behind the run. -/
theorem Runs.bind {p q : Parser α} {ks rest : List Kind} (h : Runs p ks rest q)
    (f : α → Parser β) : Runs (p >>= f) ks rest (q >>= f) := by
  intro s hs
  obtain ⟨t, ht, position, hp⟩ := h s hs
  refine ⟨t, ht, position, ?_⟩
  rw [bind_apply, bind_apply, hp]

/-- A part that reads its tokens hands over what it yields. -/
theorem Reads.then {p : Parser α} {f : α → Parser β} {a : α} {ks ls rest : List Kind}
    {q : Parser β} (first : Reads p ks (ls ++ rest) a) (second : Runs (f a) ls rest q) :
    Runs (p >>= f) (ks ++ ls) rest q :=
  (first.bind f).trans second

/-- The same for a part that reads one token. -/
theorem Reads.cons {p : Parser α} {f : α → Parser β} {a : α} {k : Kind} {ls rest : List Kind}
    {q : Parser β} (first : Reads p [k] (ls ++ rest) a) (second : Runs (f a) ls rest q) :
    Runs (p >>= f) (k :: ls) rest q :=
  first.then second

/-- The same for a part that reads nothing. -/
theorem Reads.none {p : Parser α} {f : α → Parser β} {a : α} {ls rest : List Kind}
    {q : Parser β} (first : Reads p [] (ls ++ rest) a) (second : Runs (f a) ls rest q) :
    Runs (p >>= f) ls rest q :=
  first.then second

/-- The same for a part behind which nothing is read. -/
theorem Reads.last {p : Parser α} {f : α → Parser β} {a : α} {ks rest : List Kind} {q : Parser β}
    (first : Reads p ks rest a) (second : Runs (f a) [] rest q) : Runs (p >>= f) ks rest q := by
  rw [← List.append_nil ks]
  exact first.then second

/-- What is made of a part is made of what it yields. -/
theorem Reads.map {p : Parser α} {f : α → β} {a : α} {ks rest : List Kind}
    (h : Reads p ks rest a) : Reads (p >>= fun a => pure (f a)) ks rest (f a) :=
  h.last (Runs.refl _ rest)

/-- A condition that holds is decided. -/
theorem runs_if {c : Prop} [Decidable c] {p p' q : Parser α} {ks rest : List Kind} (hc : c)
    (h : Runs p ks rest q) : Runs (if c then p else p') ks rest q := by
  rwa [if_pos hc]

/-- So is one that does not. -/
theorem runs_else {c : Prop} [Decidable c] {p p' q : Parser α} {ks rest : List Kind} (hc : ¬c)
    (h : Runs p' ks rest q) : Runs (if c then p else p') ks rest q := by
  rwa [if_neg hc]

-- ========================================================== looking

/-- A look ahead sees the known tokens, and then those that follow. -/
theorem runs_peek {ahead : Nat} {f : Kind → Parser α} {ks rest : List Kind} {q : Parser α}
    (h : Runs (f ((ks ++ rest).getD ahead .eof)) ks rest q) :
    Runs (peek ahead >>= f) ks rest q := by
  intro s hs
  rw [peek_bind, State.kindAt, hs]
  exact h s hs

/-- The token at hand is the first of them. -/
theorem runs_current {f : Kind → Parser α} {ks rest : List Kind} {q : Parser α}
    (h : Runs (f (next (ks ++ rest))) ks rest q) : Runs (current >>= f) ks rest q :=
  runs_peek h

/-- So many are left as are known. -/
theorem runs_tokensLeft {f : Nat → Parser α} {ks rest : List Kind} {q : Parser α}
    (h : Runs (f (ks ++ rest).length) ks rest q) : Runs (tokensLeft >>= f) ks rest q := by
  intro s hs
  rw [tokensLeft_bind, hs]
  exact h s hs

/-- The position is not known, and does not matter. -/
theorem runs_position {f : Nat → Parser α} {ks rest : List Kind} {q : Parser α}
    (h : ∀ i, Runs (f i) ks rest q) : Runs (position >>= f) ks rest q :=
  fun s hs => h s.position s hs

/-- Whether a symbol is there can be read off. -/
theorem runs_atSymbol {symbol : Symbol} {f : Bool → Parser α} {ks rest : List Kind}
    {q : Parser α} (h : Runs (f (next (ks ++ rest) == .symbol symbol)) ks rest q) :
    Runs (atSymbol symbol >>= f) ks rest q := by
  intro s hs
  rw [atSymbol_bind, State.kindAt, hs]
  exact h s hs

/-- And so can whether a keyword is. -/
theorem runs_atKeyword {keyword : Keyword} {f : Bool → Parser α} {ks rest : List Kind}
    {q : Parser α} (h : Runs (f ((next (ks ++ rest)).keyword? == some keyword)) ks rest q) :
    Runs (atKeyword keyword >>= f) ks rest q := by
  intro s hs
  rw [atKeyword_bind, State.kindAt, hs]
  exact h s hs

-- =========================================================== moving

/-- One step reads the token at hand. -/
theorem reads_advance {k : Kind} {rest : List Kind} (inner : k ≠ .eof) :
    Reads advance [k] rest () := by
  intro s hs
  have here : s.kindAt 0 = k := by
    rw [State.kindAt, hs]
    rfl
  have m := moves_advance here inner
  refine ⟨s.advance, ?_, m.position, rfl⟩
  have whole := m.rest
  rw [hs] at whole
  exact (List.append_cancel_left whole).symm

/-- Several steps read as many tokens. -/
theorem reads_skip (ks : List Kind) {rest : List Kind} (inner : .eof ∉ ks) :
    Reads (skip ks.length) ks rest () := by
  induction ks with
  | nil => exact Runs.refl _ rest
  | cons k ks ih =>
      have first : k ≠ .eof := fun eof => inner (eof ▸ List.mem_cons_self)
      exact (reads_advance first).cons (ih fun eof => inner (List.mem_cons_of_mem _ eof))

/-- A symbol that is there is read. -/
theorem reads_consume (symbol : Symbol) (rest : List Kind) :
    Reads (consume symbol) [.symbol symbol] rest true := by
  refine runs_atSymbol (runs_if (beq_self_eq_true _) ?_)
  exact (reads_advance (k := .symbol symbol) nofun).cons (Runs.refl _ rest)

/-- One that is not is left out. -/
theorem reads_consume_absent {symbol : Symbol} {rest : List Kind}
    (h : next rest ≠ .symbol symbol) : Reads (consume symbol) [] rest false :=
  runs_atSymbol (runs_else (fun here => h (eq_of_beq here)) (Runs.refl _ rest))

/-- A keyword that is there is read. -/
theorem reads_consumeKeyword (keyword : Keyword) (rest : List Kind) :
    Reads (consumeKeyword keyword) [keyword.kind] rest true := by
  refine runs_atKeyword (runs_if (beq_iff_eq.2 keyword.keyword?_kind) ?_)
  exact (reads_advance (k := keyword.kind) nofun).cons (Runs.refl _ rest)

/-- One that is not is left out. -/
theorem reads_consumeKeyword_absent {keyword : Keyword} {rest : List Kind}
    (h : (next rest).keyword? ≠ some keyword) : Reads (consumeKeyword keyword) [] rest false :=
  runs_atKeyword (runs_else (fun here => h (eq_of_beq here)) (Runs.refl _ rest))

/-- A keyword that may be there, where what follows is another. -/
theorem reads_consumeKeyword_if {keyword : Keyword} {rest : List Kind} (given : Bool)
    (h : (next rest).keyword? ≠ some keyword) :
    Reads (consumeKeyword keyword) (if given then [keyword.kind] else []) rest given := by
  cases given with
  | true => exact reads_consumeKeyword keyword rest
  | false => exact reads_consumeKeyword_absent h

/-- A symbol that must be there yields its index, which nothing that is
read depends on. -/
theorem runs_expect {symbol : Symbol} {f : Nat → Parser α} {ls rest : List Kind} {q : Parser α}
    (h : ∀ i, Runs (f i) ls rest q) : Runs (expect symbol >>= f) (.symbol symbol :: ls) rest q := by
  show Runs ((position >>= fun here => consume symbol >>= fun found =>
    if found = true then pure here else _) >>= f) _ rest q
  intro s hs
  -- the position is fixed first; it is the one of the state that is given
  have here : Reads (consume symbol >>= fun found => if found = true then pure s.position
      else unexpected ("`" ++ symbol.text ++ "`")) [.symbol symbol] (ls ++ rest) s.position :=
    (reads_consume symbol _).cons (Runs.refl _ _)
  exact here.cons (h s.position) s hs

/-- A keyword that must be there is read. -/
theorem reads_expectKeyword (keyword : Keyword) (rest : List Kind) :
    Reads (expectKeyword keyword) [keyword.kind] rest () :=
  (reads_consumeKeyword keyword rest).cons (Runs.refl _ rest)

/-- A token that is a name is read as that name. -/
theorem reads_identifier {k : Kind} {name : String} (rest : List Kind)
    (named : k.identifier? = some name) : Reads identifier [k] rest name := by
  have here : (next ([k] ++ rest)).identifier? = some name := named
  refine runs_current ?_
  rw [here]
  exact (reads_advance (ne_eof_of_identifier? named)).cons (Runs.refl _ rest)

-- ======================================================== combining

/-- A clause is read behind its keyword. -/
theorem reads_clause {keyword : Keyword} {body : Parser α} {a : α} {ks rest : List Kind}
    (h : Reads body ks rest a) :
    Reads (clause keyword body) (keyword.kind :: ks) rest (some a) :=
  (reads_consumeKeyword keyword _).cons (h.map (f := some))

/-- Without its keyword there is no clause. -/
theorem reads_clause_absent {keyword : Keyword} {body : Parser α} {rest : List Kind}
    (h : (next rest).keyword? ≠ some keyword) : Reads (clause keyword body) [] rest none :=
  (reads_consumeKeyword_absent h).none (Runs.refl _ rest)

/-- What follows an item of a list is what follows the list, or a comma. -/
theorem before_moreItems (f : α → List Kind) (items : List α) (rest : List Kind) :
    (items.flatMap fun a => .symbol .comma :: f a) ++ rest = rest
      ∨ next ((items.flatMap fun a => .symbol .comma :: f a) ++ rest) = .symbol .comma := by
  cases items with
  | nil => exact Or.inl rfl
  | cons a items => exact Or.inr rfl

/-- What holds of the end of a list and before a comma holds behind each of
its items. -/
theorem of_end_or_comma {P : List Kind → Prop} {rest later : List Kind} (stop : P rest)
    (comma : ∀ more, P (.symbol .comma :: more))
    (hlater : later = rest ∨ next later = .symbol .comma) : P later := by
  rcases hlater with rfl | here
  · exact stop
  · cases later with
    | nil => cases here
    | cons k more =>
        obtain rfl : k = .symbol .comma := here
        exact comma more

/-- A list starts with its first item, before a comma or what follows the
list. -/
theorem commas_append (f : α → List Kind) (a : α) (items : List α) (rest : List Kind) :
    ∃ later, (later = rest ∨ next later = .symbol .comma)
      ∧ commas ((a :: items).map f) ++ rest = f a ++ later := by
  refine ⟨_, before_moreItems f items rest, ?_⟩
  rw [List.map_cons, commas_cons_eq, List.append_assoc]

/-- Every further item has a token, its comma. -/
theorem length_le_moreItems (f : α → List Kind) (items : List α) :
    items.length ≤ (items.flatMap fun a => Kind.symbol .comma :: f a).length := by
  induction items with
  | nil => exact Nat.le_refl 0
  | cons a items ih =>
      rw [List.flatMap_cons, List.length_append, List.length_cons, List.length_cons]
      omega

/-- The tokens of an item are no more than those of the list. -/
theorem length_le_commas {item : List Kind} {items : List (List Kind)} (h : item ∈ items) :
    item.length ≤ (commas items).length := by
  induction items with
  | nil => cases h
  | cons first later ih =>
      cases later with
      | nil =>
          obtain rfl := List.mem_singleton.1 h
          exact Nat.le_of_eq (congrArg List.length (commas_singleton item).symm)
      | cons second later =>
          rw [commas_cons_cons, List.length_append, List.length_cons]
          rcases List.mem_cons.1 h with rfl | h
          · omega
          · have := ih h
            omega

section Lists

variable {item : Parser α} {f : α → List Kind} {rest : List Kind}

/-- Each further item is read before the comma of the next or before what
follows the list. -/
theorem reads_moreItems {items : List α} {count : Nat} (enough : items.length ≤ count)
    (stop : next rest ≠ .symbol .comma)
    (each : ∀ a ∈ items, ∀ later, later = rest ∨ next later = .symbol .comma →
      Reads item (f a) later a) :
    Reads (moreItems item count) (items.flatMap fun a => .symbol .comma :: f a) rest items := by
  induction items generalizing count with
  | nil =>
      cases count with
      | zero => exact Runs.refl _ rest
      | succ count => exact (reads_consume_absent stop).none (Runs.refl _ rest)
  | cons a items ih =>
      cases count with
      | zero => cases enough
      | succ count =>
          -- the bound falls with the items, so it never stops the list
          have tail := ih (Nat.le_of_succ_le_succ enough)
            fun a ha => each a (List.mem_cons_of_mem _ ha)
          rw [List.flatMap_cons]
          refine (reads_consume .comma _).cons ?_
          refine Reads.then (each a List.mem_cons_self _ (before_moreItems f items rest)) ?_
          exact tail.map (f := (a :: ·))

/-- A list with commas is read if each item is, before a comma and before
what follows the list. -/
theorem reads_commaSeparated {items : List α} (filled : items ≠ [])
    (stop : next rest ≠ .symbol .comma)
    (each : ∀ a ∈ items, ∀ later, later = rest ∨ next later = .symbol .comma →
      Reads item (f a) later a) :
    Reads (commaSeparated item) (commas (items.map f)) rest items := by
  cases items with
  | nil => exact absurd rfl filled
  | cons a items =>
      rw [List.map_cons, commas_cons_eq]
      refine Reads.then (each a List.mem_cons_self _ (before_moreItems f items rest)) ?_
      refine runs_tokensLeft ?_
      refine Reads.map (f := (a :: ·)) (reads_moreItems ?_ stop ?_)
      · rw [List.length_append]
        exact Nat.le_trans (length_le_moreItems f items) (Nat.le_add_right _ _)
      · exact fun b hb => each b (List.mem_cons_of_mem _ hb)

end Lists

end SqlSelect.Grammar
