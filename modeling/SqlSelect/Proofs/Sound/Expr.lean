/-
The grammar of expressions passes what it yields.

One lemma a production: if it succeeds, the tokens that it passes are
tokens of the expression that it yields. The productions take the parser
of nested expressions as an argument, and so do the lemmas; the knot is
tied by induction on the bound.

# How a production is taken apart

A run that succeeds is split at each `>>=` by `bind_ok`, which leaves one run
for each step with the states between them. The lemma about a step turns its
run into a move over known tokens, the moves are joined by `Moves.trans`, and
a constructor of `Yields` closes the production. A branch that ends in a
failure has no success (`unexpected_ok`, `reject_ok`).

# What is passed behind an operand

An operator behind an operand adds tokens to those of the operand, which were
passed before. So `passes_applyPostfix`, `passes_applyConnective` and
`passes_extendAll` say of the tokens that they pass: whatever tokens the
operand has, these behind them are tokens of what is yielded.
-/
import SqlSelect.Proofs.Cursor

namespace SqlSelect.Grammar

-- ============================================================ types

/-- The second word of a type is passed where it belongs to the first. -/
theorem passes_typeName (first : String) :
    Passes (typeName first) (YieldsSecondWord first) := by
  intro s name s' _ h
  unfold typeName at h
  cases hsecond : secondWord? first with
  | none =>
      rw [hsecond] at h
      obtain ⟨rfl, rfl⟩ := pure_ok.1 h
      exact ⟨[], Moves.refl _, .absent⟩
  | some second =>
      simp only [hsecond] at h
      rw [current_bind] at h
      split at h
      next here =>
        obtain ⟨_, t, hmove, h₁⟩ := bind_ok.1 h
        obtain ⟨rfl, rfl⟩ := pure_ok.1 h₁
        exact ⟨_, advance_ok hmove here nofun, .present hsecond⟩
      next =>
        obtain ⟨rfl, rfl⟩ := pure_ok.1 h
        exact ⟨[], Moves.refl _, .absent⟩

/-- A modifier is a whole number. -/
theorem passes_typeModifier : Passes typeModifier fun value ks => ks = [.integer value] := by
  intro s value s' _ h
  unfold typeModifier at h
  rw [current_bind] at h
  cases here : s.kindAt 0 with
  | integer found =>
      rw [here] at h
      obtain ⟨_, t, hmove, h₁⟩ := bind_ok.1 h
      obtain ⟨rfl, rfl⟩ := pure_ok.1 h₁
      exact ⟨_, advance_ok hmove here nofun, rfl⟩
  | _ =>
      rw [here] at h
      exact (unexpected_ok.1 h).elim

/-- Modifiers are a list in parentheses, or absent. -/
theorem passes_typeConfig : Passes typeConfig YieldsConfig := by
  intro s config s' hs h
  unfold typeConfig at h
  obtain ⟨b, t, hopen, h₁⟩ := bind_ok.1 h
  rcases consume_ok hopen with ⟨rfl, m⟩ | ⟨rfl, rfl, -⟩
  · obtain ⟨values, u, hvalues, h₂⟩ := bind_ok.1 h₁
    obtain ⟨_, v, hclose, h₃⟩ := bind_ok.1 h₂
    obtain ⟨rfl, rfl⟩ := pure_ok.1 h₃
    obtain ⟨ks, n, parts, filled, rfl, rfl, each⟩ :=
      passes_commaSeparated passes_typeModifier (m.lexed hs) hvalues
    have spelled : parts.map Prod.snd
        = (parts.map Prod.fst).map fun value => [Kind.integer value] := by
      rw [List.map_map]
      exact List.map_congr_left each
    refine ⟨_, m.trans (n.trans (expect_ok hclose)), ?_⟩
    rw [spelled]
    exact .present (by simpa using filled)
  · obtain ⟨rfl, rfl⟩ := pure_ok.1 h₁
    exact ⟨[], Moves.refl _, .absent⟩

/-- The words about a time zone that are seen are the next tokens. -/
theorem rest_of_zone? {s : State} {zone : String}
    (h : zone? (s.kindAt 0) (s.kindAt 1) (s.kindAt 2) = some zone) :
    ∃ first later, (first = "with" ∨ first = "without") ∧ zone = " " ++ first ++ " time zone"
      ∧ s.rest = [.word first, .word "time", .word "zone"] ++ later := by
  unfold zone? at h
  split at h
  next h0 h1 h2 =>
    obtain rfl := Option.some.inj h
    obtain ⟨later, hrest⟩ := s.rest_of_kindsAt [.word "with", .word "time", .word "zone"]
      (by simp [List.range_succ, h0, h1, h2]) (by simp)
    exact ⟨"with", later, Or.inl rfl, rfl, hrest⟩
  next h0 h1 h2 =>
    obtain rfl := Option.some.inj h
    obtain ⟨later, hrest⟩ := s.rest_of_kindsAt [.word "without", .word "time", .word "zone"]
      (by simp [List.range_succ, h0, h1, h2]) (by simp)
    exact ⟨"without", later, Or.inr rfl, rfl, hrest⟩
  next => cases h

/-- The words of a time zone are passed behind the types that have one. -/
theorem passes_zonedName (name : String) : Passes (zonedName name) (YieldsZone name) := by
  intro s zoned s' _ h
  unfold zonedName at h
  split at h
  next timed =>
    rw [peek_bind, peek_bind, peek_bind] at h
    cases hzone : zone? (s.kindAt 0) (s.kindAt 1) (s.kindAt 2) with
    | some zone =>
        rw [hzone] at h
        obtain ⟨_, t, hskip, h₁⟩ := bind_ok.1 h
        obtain ⟨rfl, rfl⟩ := pure_ok.1 h₁
        obtain ⟨first, later, hfirst, rfl, hrest⟩ := rest_of_zone? hzone
        have m : Moves s [.word first, .word "time", .word "zone"] t :=
          skip_ok hskip hrest (by simp)
        refine ⟨_, m, ?_⟩
        rcases hfirst with rfl | rfl
        · exact .withZone timed
        · exact .withoutZone timed
    | none =>
        rw [hzone] at h
        obtain ⟨rfl, rfl⟩ := pure_ok.1 h
        exact ⟨[], Moves.refl _, .absent⟩
  next =>
    obtain ⟨rfl, rfl⟩ := pure_ok.1 h
    exact ⟨[], Moves.refl _, .absent⟩

/-- A type is its words, its modifiers and its time zone. -/
theorem passes_dataType : Passes dataType YieldsType := by
  intro s type s' hs h
  unfold dataType at h
  rw [current_bind] at h
  cases named : (s.kindAt 0).identifier? with
  | none =>
      rw [named] at h
      exact (unexpected_ok.1 h).elim
  | some first =>
      rw [named] at h
      obtain ⟨_, t, hfirst, h₁⟩ := bind_ok.1 h
      obtain ⟨second, u, hsecond, h₂⟩ := bind_ok.1 h₁
      obtain ⟨config, v, hconfig, h₃⟩ := bind_ok.1 h₂
      obtain ⟨name, w, hname, h₄⟩ := bind_ok.1 h₃
      obtain ⟨rfl, rfl⟩ := pure_ok.1 h₄
      have m := advance_ok hfirst rfl (ne_eof_of_identifier? named)
      have ht := m.lexed hs
      obtain ⟨ws, m₁, r₁⟩ := passes_typeName first ht hsecond
      obtain ⟨cs, m₂, r₂⟩ := passes_typeConfig (m₁.lexed ht) hconfig
      obtain ⟨zs, m₃, r₃⟩ := passes_zonedName second (m₂.lexed (m₁.lexed ht)) hname
      exact ⟨_, m.trans ((m₁.trans m₂).trans m₃), .mk named r₁ r₂ r₃⟩

-- ======================================================== wildcards

/-- A wildcard that is seen is spelled by the next tokens. -/
theorem rest_of_wildcardAt? {s : State} {e : Expr} {width : Nat}
    (h : wildcardAt? (s.kindAt 0) (s.kindAt 1) (s.kindAt 2) = some (e, width)) :
    ∃ ks later, s.rest = ks ++ later ∧ ks.length = width ∧ .eof ∉ ks ∧ YieldsWildcard e ks := by
  unfold wildcardAt? at h
  split at h
  next star =>
    cases h
    obtain ⟨later, hrest⟩ := State.rest_of_kindAt star nofun
    exact ⟨[.symbol .star], later, hrest, rfl, by simp, .all⟩
  next =>
    split at h
    next dotted =>
      obtain ⟨table, named, h⟩ := Option.map_eq_some_iff.1 h
      cases h
      have inner : .eof ∉ [s.kindAt 0, .symbol .dot, .symbol .star] := by
        simpa using (ne_eof_of_identifier? named).symm
      obtain ⟨later, hrest⟩ := s.rest_of_kindsAt _
        (by simp [List.range_succ, dotted]) inner
      exact ⟨_, later, hrest, rfl, inner, .ofTable named⟩
    next => cases h

/-- A wildcard is passed whole, or nothing is. -/
theorem passes_wildcard? : Passes wildcard? fun found ks =>
    (found = none ∧ ks = []) ∨ ∃ e, found = some e ∧ YieldsWildcard e ks := by
  intro s found s' _ h
  unfold wildcard? at h
  rw [peek_bind, peek_bind, peek_bind] at h
  cases hseen : wildcardAt? (s.kindAt 0) (s.kindAt 1) (s.kindAt 2) with
  | none =>
      rw [hseen] at h
      obtain ⟨rfl, rfl⟩ := pure_ok.1 h
      exact ⟨[], Moves.refl _, Or.inl ⟨rfl, rfl⟩⟩
  | some seen =>
      obtain ⟨e, width⟩ := seen
      rw [hseen] at h
      obtain ⟨_, t, hskip, h₁⟩ := bind_ok.1 h
      obtain ⟨rfl, rfl⟩ := pure_ok.1 h₁
      obtain ⟨ks, later, hrest, rfl, inner, yields⟩ := rest_of_wildcardAt? hseen
      exact ⟨ks, skip_ok hskip hrest inner, Or.inr ⟨e, rfl, yields⟩⟩

/-- A star in quotes never gets through. -/
theorem noQuotedStar_ok {s s' : State} {u : Unit} (h : noQuotedStar s = .ok u s') :
    s' = s ∧ s.kindAt 0 ≠ .quoted Expr.star := by
  unfold noQuotedStar at h
  rw [current_bind] at h
  split at h
  next =>
    rw [position_bind] at h
    exact (reject_ok.1 h).elim
  next other =>
    obtain ⟨-, rfl⟩ := pure_ok.1 h
    exact ⟨rfl, other⟩

-- ======================================================== operators

/-- Only the least whole number is its own opposite. -/
theorem neg_ne_minValue {value : Int64} (other : value ≠ Int64.minValue) :
    -value ≠ Int64.minValue := by
  intro least
  refine other ?_
  calc value = - -value := Int64.neg_neg.symm
    _ = -Int64.minValue := by rw [least]
    _ = Int64.minValue := by decide

/-- The opposite of every other one is exact. -/
theorem toInt_neg {value : Int64} (other : value ≠ Int64.minValue) :
    (-value).toInt = -value.toInt := by
  have low : -2 ^ 63 ≤ value.toInt := value.le_toInt
  have high : value.toInt < 2 ^ 63 := value.toInt_lt
  have least : value.toInt ≠ -2 ^ 63 := fun same => other (Int64.toInt_inj.1 same)
  rw [Int64.toInt_neg]
  exact Int.bmod_eq_of_le (by omega) (by omega)

/-- No number of a text is the least one. -/
theorem ne_minValue_of_nonneg {value : Int64} (positive : 0 ≤ value) :
    value ≠ Int64.minValue := by
  intro least
  rw [least] at positive
  exact absurd positive (by decide)

/-- A whole number that is put together from tokens of a text has an
opposite. -/
theorem ne_minValue_of_yields {e : Expr} {ks : List Kind} (h : Yields e ks)
    (lexed : ∀ k ∈ ks, k.Lexed) {value : Int64} (he : e = .integer value) :
    value ≠ Int64.minValue := by
  induction h generalizing value with
  | integer found =>
      cases he
      exact ne_minValue_of_nonneg (lexed _ List.mem_cons_self)
  | signedInteger _ ih =>
      cases he
      exact neg_ne_minValue (ih (fun k hk => lexed k (List.mem_cons_of_mem _ hk)) rfl)
  | paren _ ih =>
      refine ih (fun k hk => lexed k ?_) he
      exact List.mem_cons_of_mem _ (List.mem_append_left _ hk)
  | _ => cases he

/-- A sign goes into a number, and stays before anything else. -/
theorem yields_applyPrefix {k : Kind} {op : UnaryOp} {e : Expr} {ks : List Kind}
    (hk : k.Lexed) (hop : prefixOp? k = some op) (lexed : ∀ k ∈ ks, k.Lexed) (h : Yields e ks) :
    Yields (applyPrefix op e) (k :: ks) := by
  obtain ⟨before, spelled⟩ := marks_of_prefixOp? hop
  have marked : [k] = Mark.kinds op.marks := by
    rcases spelled with ⟨mark, rfl, marks⟩ | ⟨word, hword, marks⟩
    · rw [marks]
      rfl
    · rw [marks, Kind.eq_kind_of_keyword? hk hword]
      rfl
  -- all but a minus before a number stays an operator of its own
  have kept : ∀ operand, Yields operand ks → (op = .neg → operand.isNumber = false) →
      Yields (.unary op operand) (k :: ks) := by
    intro operand yields other
    rw [show k :: ks = [k] ++ ks from rfl, marked]
    exact .prefixed before other yields
  cases op with
  | neg =>
      have minus : k = .symbol .minus := (List.cons.inj marked).1
      subst minus
      cases e with
      | integer value =>
          have opposite := ne_minValue_of_yields h lexed rfl
          rw [applyPrefix, if_neg opposite]
          exact .signedInteger h
      | numeric value => exact .signedNumeric h
      | _ => exact kept _ h fun _ => rfl
  | plus => exact kept e h nofun
  | not => exact kept e h nofun
  | _ => cases before

section Productions

variable {expr : Nat → Parser Expr} (hexpr : ∀ floor, Passes (expr floor) Yields)

-- ============================================================ lists

include hexpr

/-- An item is a wildcard or an expression. -/
theorem passes_item : Passes (item expr) fun e ks => YieldsWildcard e ks ∨ Yields e ks := by
  intro s e s' hs h
  unfold item at h
  rw [position_bind] at h
  obtain ⟨found, t, hfound, h₁⟩ := bind_ok.1 h
  obtain ⟨ks, m, ⟨rfl, rfl⟩ | ⟨wild, rfl, yields⟩⟩ := passes_wildcard? hs hfound
  · obtain ⟨ls, n, yields⟩ := hexpr 0 (m.lexed hs) h₁
    exact ⟨_, m.trans n, Or.inr yields⟩
  · change (peek 0 >>= fun k => peek 1 >>= fun next => if continuesOperand k next = true then _
      else pure wild) t = _ at h₁
    rw [peek_bind, peek_bind] at h₁
    split at h₁
    next => exact (reject_ok.1 h₁).elim
    next =>
      obtain ⟨rfl, rfl⟩ := pure_ok.1 h₁
      exact ⟨ks, m, Or.inl yields⟩

/-- Arguments are items with commas, or absent. -/
theorem passes_arguments : Passes (arguments expr) fun args ks =>
    ∃ parts : List (Expr × List Kind), args = parts.map Prod.fst
      ∧ ks = commas (parts.map Prod.snd)
      ∧ ∀ p ∈ parts, ¬YieldsWildcard p.1 p.2 → Yields p.1 p.2 := by
  intro s args s' hs h
  unfold arguments at h
  rw [atSymbol_bind] at h
  split at h
  next =>
    obtain ⟨rfl, rfl⟩ := pure_ok.1 h
    exact ⟨[], Moves.refl _, [], rfl, rfl, nofun⟩
  next =>
    obtain ⟨ks, m, parts, -, rfl, rfl, each⟩ := passes_commaSeparated (passes_item hexpr) hs h
    exact ⟨_, m, parts, rfl, rfl, fun p hp wild => (each p hp).resolve_left wild⟩

/-- A call behind the token that names what it calls. -/
theorem passes_call (function : Callee) : Passes (call expr function) fun e ks =>
    ∀ k : Kind, k.Calls function → Yields e (k :: ks) := by
  intro s e s' hs h
  unfold call at h
  obtain ⟨_, t, hopen, h₁⟩ := bind_ok.1 h
  obtain ⟨args, u, hargs, h₂⟩ := bind_ok.1 h₁
  obtain ⟨_, v, hclose, h₃⟩ := bind_ok.1 h₂
  obtain ⟨rfl, rfl⟩ := pure_ok.1 h₃
  have m := expect_ok hopen
  obtain ⟨ks, n, parts, rfl, rfl, each⟩ := passes_arguments hexpr (m.lexed hs) hargs
  exact ⟨_, m.trans (n.trans (expect_ok hclose)), fun k called => .call called each⟩

/-- A list to be looked in has items and no statement. -/
theorem passes_inList : Passes (inList expr) fun e ks =>
    ∃ parts : List (Expr × List Kind), parts ≠ [] ∧ e = .list (parts.map Prod.fst)
      ∧ ks = inParens (commas (parts.map Prod.snd)) ∧ ∀ p ∈ parts, Yields p.1 p.2 := by
  intro s e s' hs h
  unfold inList at h
  obtain ⟨_, t, hopen, h₁⟩ := bind_ok.1 h
  rw [atKeyword_bind] at h₁
  split at h₁
  next =>
    rw [position_bind] at h₁
    exact (reject_ok.1 h₁).elim
  next =>
    obtain ⟨items, u, hitems, h₂⟩ := bind_ok.1 h₁
    obtain ⟨_, v, hclose, h₃⟩ := bind_ok.1 h₂
    obtain ⟨rfl, rfl⟩ := pure_ok.1 h₃
    have m := expect_ok hopen
    obtain ⟨ks, n, parts, filled, rfl, rfl, each⟩ :=
      passes_commaSeparated (hexpr 0) (m.lexed hs) hitems
    exact ⟨_, m.trans (n.trans (expect_ok hclose)), parts, filled, rfl, rfl, each⟩

-- ========================================================= operands

/-- Parentheses hold an expression, and nothing else gets through. -/
theorem passes_parenthesized : Passes (parenthesized expr) Yields := by
  intro s e s' hs h
  unfold parenthesized at h
  obtain ⟨_, t, hopen, h₁⟩ := bind_ok.1 h
  have m := expect_ok hopen
  rw [atKeyword_bind] at h₁
  split at h₁
  next =>
    rw [position_bind] at h₁
    exact (reject_ok.1 h₁).elim
  next =>
    obtain ⟨found, u, hfound, h₂⟩ := bind_ok.1 h₁
    obtain ⟨ks, n, ⟨rfl, rfl⟩ | ⟨wild, rfl, -⟩⟩ := passes_wildcard? (m.lexed hs) hfound
    · obtain ⟨inner, v, hinner, h₃⟩ := bind_ok.1 h₂
      obtain ⟨_, w, hclose, h₄⟩ := bind_ok.1 h₃
      obtain ⟨rfl, rfl⟩ := pure_ok.1 h₄
      obtain ⟨ls, o, yields⟩ := hexpr 0 (n.lexed (m.lexed hs)) hinner
      exact ⟨_, m.trans ((n.trans o).trans (expect_ok hclose)), .paren yields⟩
    · -- a wildcard is refused, whatever follows it
      change (atSymbol .rightParen >>= fun b => if b = true then _ else _) u = _ at h₂
      rw [atSymbol_bind] at h₂
      split at h₂
      next => exact (reject_ok.1 h₂).elim
      next => exact (reject_ok.1 h₂).elim

omit hexpr in
/-- Behind the dot any word is a name. -/
theorem passes_qualified (table : String) : Passes (qualified table) fun e ks =>
    ∃ m name, e = .ref (some table) name ∧ ks = [m] ∧ m.NamesMember name := by
  intro s e s' _ h
  unfold qualified at h
  obtain ⟨_, t, hstar, h₁⟩ := bind_ok.1 h
  obtain ⟨rfl, other⟩ := noQuotedStar_ok hstar
  rw [current_bind] at h₁
  cases named : (t.kindAt 0).anyName? with
  | none =>
      rw [named] at h₁
      exact (unexpected_ok.1 h₁).elim
  | some name =>
      rw [named] at h₁
      obtain ⟨_, u, hmove, h₂⟩ := bind_ok.1 h₁
      obtain ⟨rfl, rfl⟩ := pure_ok.1 h₂
      have inner : t.kindAt 0 ≠ .eof := by
        intro eof
        rw [eof] at named
        cases named
      exact ⟨_, advance_ok hmove rfl inner, _, name, rfl, rfl, named, other⟩

theorem passes_reference : Passes (reference expr) Yields := by
  intro s e s' hs h
  unfold reference at h
  obtain ⟨_, t, hstar, h₁⟩ := bind_ok.1 h
  obtain ⟨rfl, other⟩ := noQuotedStar_ok hstar
  obtain ⟨name, u, hname, h₂⟩ := bind_ok.1 h₁
  obtain ⟨k, rfl, named, m⟩ := identifier_ok hname
  have names : (t.kindAt 0).Names name := ⟨named, other⟩
  rw [current_bind] at h₂
  cases here : u.kindAt 0 with
  | symbol mark =>
      rw [here] at h₂
      cases mark with
      | leftParen =>
          obtain ⟨ks, n, yields⟩ := passes_call hexpr (.name name) (m.lexed hs) h₂
          exact ⟨_, m.trans n, yields _ names⟩
      | dot =>
          change (position >>= fun dot => peek 1 >>= fun next =>
            if next = .symbol .star then _ else _) u = _ at h₂
          rw [position_bind, peek_bind] at h₂
          split at h₂
          next => exact (reject_ok.1 h₂).elim
          next =>
            obtain ⟨_, v, hdot, h₃⟩ := bind_ok.1 h₂
            have n := advance_ok hdot here nofun
            obtain ⟨ks, o, member, column, rfl, rfl, hmember⟩ :=
              passes_qualified name (n.lexed (m.lexed hs)) h₃
            exact ⟨_, m.trans (n.trans o), .member names hmember⟩
      | _ =>
          obtain ⟨rfl, rfl⟩ := pure_ok.1 h₂
          exact ⟨_, m, .column names⟩
  | _ =>
      rw [here] at h₂
      obtain ⟨rfl, rfl⟩ := pure_ok.1 h₂
      exact ⟨_, m, .column names⟩

/-- Each arm comes with its keywords. -/
theorem passes_caseArms (count : Nat) : Passes (caseArms expr count) fun arms ks =>
    ∃ parts : List ((Expr × List Kind) × (Expr × List Kind)),
      arms = parts.map (fun arm => (arm.1.1, arm.2.1))
        ∧ ks = parts.flatMap (fun arm =>
          Keyword.WHEN.kind :: arm.1.2 ++ Keyword.THEN.kind :: arm.2.2)
        ∧ ∀ arm ∈ parts, Yields arm.1.1 arm.1.2 ∧ Yields arm.2.1 arm.2.2 := by
  induction count with
  | zero =>
      intro s arms s' _ h
      obtain ⟨rfl, rfl⟩ := pure_ok.1 h
      exact ⟨[], Moves.refl _, [], rfl, rfl, nofun⟩
  | succ count ih =>
      intro s arms s' hs h
      rw [caseArms] at h
      obtain ⟨b, t, hwhen, h₁⟩ := bind_ok.1 h
      rcases consumeKeyword_ok hs hwhen with ⟨rfl, m⟩ | ⟨rfl, rfl, -⟩
      · obtain ⟨condition, u, hcondition, h₂⟩ := bind_ok.1 h₁
        obtain ⟨_, v, hthen, h₃⟩ := bind_ok.1 h₂
        obtain ⟨value, w, hvalue, h₄⟩ := bind_ok.1 h₃
        obtain ⟨later, x, hlater, h₅⟩ := bind_ok.1 h₄
        obtain ⟨rfl, rfl⟩ := pure_ok.1 h₅
        have ht := m.lexed hs
        obtain ⟨cs, m₁, r₁⟩ := hexpr 0 ht hcondition
        have m₂ := expectKeyword_ok (m₁.lexed ht) hthen
        have hv := m₂.lexed (m₁.lexed ht)
        obtain ⟨vs, m₃, r₃⟩ := hexpr 0 hv hvalue
        obtain ⟨ls, m₄, parts, rfl, rfl, each⟩ := ih (m₃.lexed hv) hlater
        refine ⟨_, (m.trans (m₁.trans (m₂.trans m₃))).trans m₄,
          ((condition, cs), (value, vs)) :: parts, rfl, by simp, ?_⟩
        intro arm harm
        rcases List.mem_cons.1 harm with rfl | harm
        · exact ⟨r₁, r₃⟩
        · exact each arm harm
      · obtain ⟨rfl, rfl⟩ := pure_ok.1 h₁
        exact ⟨[], Moves.refl _, [], rfl, rfl, nofun⟩

theorem passes_caseOperand : Passes (caseOperand expr) fun operand ks =>
    ∃ part : Option (Expr × List Kind), operand = part.map Prod.fst
      ∧ ks = (part.map Prod.snd).getD [] ∧ ∀ p ∈ part, Yields p.1 p.2 := by
  intro s operand s' hs h
  unfold caseOperand at h
  rw [atKeyword_bind] at h
  split at h
  next =>
    obtain ⟨rfl, rfl⟩ := pure_ok.1 h
    exact ⟨[], Moves.refl _, none, rfl, rfl, nofun⟩
  next =>
    obtain ⟨e, t, he, h₁⟩ := bind_ok.1 h
    obtain ⟨rfl, rfl⟩ := pure_ok.1 h₁
    obtain ⟨ks, m, yields⟩ := hexpr 0 hs he
    refine ⟨ks, m, some (e, ks), rfl, rfl, ?_⟩
    intro p hp
    obtain rfl := Option.some.inj hp
    exact yields

/-- The last arm of a `CASE` is a clause of its own. -/
theorem passes_caseElse : Passes (clause .ELSE (expr 0)) fun otherwise ks =>
    ∃ part : Option (Expr × List Kind), otherwise = part.map Prod.fst
      ∧ ks = (part.elim [] fun p => Keyword.ELSE.kind :: p.2)
      ∧ ∀ p ∈ part, Yields p.1 p.2 := by
  intro s otherwise s' hs h
  obtain ⟨ks, m, yields⟩ := passes_clause (hexpr 0) hs h
  cases yields with
  | absent => exact ⟨_, m, none, rfl, rfl, nofun⟩
  | @present e ls yields =>
      refine ⟨_, m, some (e, ls), rfl, rfl, ?_⟩
      intro p hp
      obtain rfl := Option.some.inj hp
      exact yields

theorem passes_case : Passes (case expr) Yields := by
  intro s e s' hs h
  unfold case at h
  obtain ⟨_, t, hcase, h₁⟩ := bind_ok.1 h
  obtain ⟨operand, u, hoperand, h₂⟩ := bind_ok.1 h₁
  rw [tokensLeft_bind] at h₂
  obtain ⟨arms, v, harms, h₃⟩ := bind_ok.1 h₂
  have m := expectKeyword_ok hs hcase
  have ht := m.lexed hs
  obtain ⟨os, m₁, opart, rfl, rfl, r₁⟩ := passes_caseOperand hexpr ht hoperand
  obtain ⟨as, m₂, aparts, rfl, rfl, r₂⟩ := passes_caseArms hexpr _ (m₁.lexed ht) harms
  have hv := m₂.lexed (m₁.lexed ht)
  split at h₃
  next => exact (unexpected_ok.1 h₃).elim
  next filled =>
    obtain ⟨otherwise, w, helse, h₄⟩ := bind_ok.1 h₃
    obtain ⟨_, x, hend, h₅⟩ := bind_ok.1 h₄
    obtain ⟨rfl, rfl⟩ := pure_ok.1 h₅
    obtain ⟨es, m₃, epart, rfl, rfl, r₃⟩ := passes_caseElse hexpr hv helse
    have m₄ := expectKeyword_ok (m₃.lexed hv) hend
    refine ⟨_, m.trans (((m₁.trans m₂).trans m₃).trans m₄), .case ?_ r₁ ?_ ?_ r₃⟩
    · rintro rfl
      exact filled rfl
    · exact fun arm harm => (r₂ arm harm).1
    · exact fun arm harm => (r₂ arm harm).2

theorem passes_cast : Passes (cast expr) Yields := by
  intro s e s' hs h
  unfold cast at h
  obtain ⟨_, t, hcast, h₁⟩ := bind_ok.1 h
  obtain ⟨_, u, hopen, h₂⟩ := bind_ok.1 h₁
  obtain ⟨operand, v, hoperand, h₃⟩ := bind_ok.1 h₂
  obtain ⟨_, w, has, h₄⟩ := bind_ok.1 h₃
  obtain ⟨target, x, htarget, h₅⟩ := bind_ok.1 h₄
  obtain ⟨_, y, hclose, h₆⟩ := bind_ok.1 h₅
  obtain ⟨rfl, rfl⟩ := pure_ok.1 h₆
  have m := (expectKeyword_ok hs hcast).trans (expect_ok hopen)
  have hu := m.lexed hs
  obtain ⟨ks, m₁, r₁⟩ := hexpr 0 hu hoperand
  have m₂ := expectKeyword_ok (m₁.lexed hu) has
  obtain ⟨ts, m₃, r₃⟩ := passes_dataType (m₂.lexed (m₁.lexed hu)) htarget
  refine ⟨_, m.trans ((m₁.trans (m₂.trans m₃)).trans (expect_ok hclose)), ?_⟩
  exact .castAs r₁ r₃

omit hexpr in
/-- A literal is the current token. -/
theorem literal_ok {value e : Expr} {s s' : State} {k : Kind}
    (h : literal value s = .ok e s') (hk : s.kindAt 0 = k) (inner : k ≠ .eof) :
    e = value ∧ Moves s [k] s' := by
  unfold literal at h
  obtain ⟨_, t, hmove, h₁⟩ := bind_ok.1 h
  obtain ⟨rfl, rfl⟩ := pure_ok.1 h₁
  exact ⟨rfl, advance_ok hmove hk inner⟩

/-- An operand that starts with a bare word which the parser looks at. -/
theorem wordOperand_ok {s s' : State} {e : Expr} {name : String} (hs : s.Lexed)
    (here : s.kindAt 0 = .word name) (h : wordOperand expr name s = .ok e s') :
    ∃ ks, Moves s ks s' ∧ Yields e ks := by
  unfold wordOperand at h
  have literal : ∀ {keyword : Keyword} {value : Expr},
      Keyword.ofWord? name = some keyword → Yields value [keyword.kind] →
      Grammar.literal value s = .ok e s' → ∃ ks, Moves s ks s' ∧ Yields e ks := by
    intro keyword value spelled yields h
    have hk : s.kindAt 0 = keyword.kind := s.kindAt_of_keyword? hs (here ▸ spelled)
    obtain ⟨rfl, m⟩ := literal_ok h hk nofun
    exact ⟨_, m, yields⟩
  -- every keyword that starts no literal, `CASE` or `CAST` is tried as a
  -- function first
  have function : ∀ {keyword : Keyword}, Keyword.ofWord? name = some keyword →
      (do if keyword.isFunction ∧ (← peek 1) = .symbol .leftParen then
            advance
            call expr (.keyword name)
          else if keyword.isReserved then unexpected "expression"
          else reference expr : Parser Expr) s = .ok e s' →
      ∃ ks, Moves s ks s' ∧ Yields e ks := by
    intro keyword spelled h
    rw [peek_bind] at h
    split at h
    next calls =>
      obtain ⟨_, t, hmove, h₁⟩ := bind_ok.1 h
      have m := advance_ok hmove here nofun
      obtain ⟨ks, n, yields⟩ := passes_call hexpr (.keyword name) (m.lexed hs) h₁
      exact ⟨_, m.trans n, yields _ ⟨rfl, keyword, spelled, calls.1⟩⟩
    next =>
      split at h
      next => exact (unexpected_ok.1 h).elim
      next => exact passes_reference hexpr hs h
  cases spelled : Keyword.ofWord? name with
  | none =>
      rw [spelled] at h
      exact passes_reference hexpr hs h
  | some keyword =>
      rw [spelled] at h
      cases keyword with
      | TRUE => exact literal spelled .true h
      | FALSE => exact literal spelled .false h
      | NULL => exact literal spelled .null h
      | CASE => exact passes_case hexpr hs h
      | CAST => exact passes_cast hexpr hs h
      | _ => exact function spelled h

theorem passes_operand : Passes (operand expr) Yields := by
  intro s e s' hs h
  unfold operand at h
  rw [current_bind] at h
  cases here : s.kindAt 0 with
  | integer value =>
      rw [here] at h
      obtain ⟨rfl, m⟩ := literal_ok h here nofun
      exact ⟨_, m, .integer value⟩
  | numeric value =>
      rw [here] at h
      obtain ⟨rfl, m⟩ := literal_ok h here nofun
      exact ⟨_, m, .numeric value⟩
  | string value =>
      rw [here] at h
      obtain ⟨rfl, m⟩ := literal_ok h here nofun
      exact ⟨_, m, .string value⟩
  | parameter name =>
      rw [here] at h
      obtain ⟨rfl, m⟩ := literal_ok h here nofun
      exact ⟨_, m, .parameter name⟩
  | word name =>
      rw [here] at h
      exact wordOperand_ok hexpr hs here h
  | quoted name =>
      rw [here] at h
      exact passes_reference hexpr hs h
  | symbol mark =>
      rw [here] at h
      cases mark with
      | leftParen => exact passes_parenthesized hexpr hs h
      | star => exact (reject_ok.1 h).elim
      | _ => exact (unexpected_ok.1 h).elim
  | eof =>
      rw [here] at h
      exact (unexpected_ok.1 h).elim

-- ======================================================== operators

theorem passes_prefixed : Passes (prefixed expr) Yields := by
  intro s e s' hs h
  unfold prefixed at h
  rw [current_bind] at h
  cases hop : prefixOp? (s.kindAt 0) with
  | none =>
      rw [hop] at h
      exact passes_operand hexpr hs h
  | some op =>
      rw [hop] at h
      obtain ⟨_, t, hmove, h₁⟩ := bind_ok.1 h
      obtain ⟨operand, u, hoperand, h₂⟩ := bind_ok.1 h₁
      obtain ⟨rfl, rfl⟩ := pure_ok.1 h₂
      have inner : s.kindAt 0 ≠ .eof := by
        intro eof
        rw [eof] at hop
        cases hop
      have m := advance_ok hmove rfl inner
      obtain ⟨ks, n, yields⟩ := hexpr _ (m.lexed hs) hoperand
      have lexed := n.lexed_kinds (m.lexed hs)
      have hk := m.lexed_kinds hs _ List.mem_cons_self
      exact ⟨_, m.trans n, yields_applyPrefix hk hop lexed yields⟩

omit hexpr in
/-- What follows `IS` names the test. -/
theorem passes_test (operand : Expr) : Passes (test operand) fun e ks =>
    ∃ op : UnaryOp, e = .unary op operand ∧ op.isPrefix = false
      ∧ Keyword.IS.kind :: ks = Mark.kinds op.marks := by
  intro s e s' hs h
  unfold test at h
  obtain ⟨negated, t, hnot, h₁⟩ := bind_ok.1 h
  have moved : Moves s (Mark.kinds (if negated then [.keyword .NOT] else [])) t := by
    rcases consumeKeyword_ok hs hnot with ⟨rfl, m⟩ | ⟨rfl, rfl, -⟩
    · exact m
    · exact Moves.refl _
  rw [current_bind] at h₁
  cases hop : testOp? (t.kindAt 0).keyword? negated with
  | none =>
      rw [hop] at h₁
      exact (unexpected_ok.1 h₁).elim
  | some op =>
      rw [hop] at h₁
      obtain ⟨_, u, hmove, h₂⟩ := bind_ok.1 h₁
      obtain ⟨rfl, rfl⟩ := pure_ok.1 h₂
      obtain ⟨behind, last, hlast, marks⟩ := marks_of_testOp? hop
      have hk := t.kindAt_of_keyword? (moved.lexed hs) hlast
      refine ⟨_, moved.trans (advance_ok hmove hk nofun), op, rfl, behind, ?_⟩
      rw [marks]
      simp [Mark.kinds, Mark.kind]

omit hexpr in
theorem passes_applyPostfix (left : Expr) : Passes (applyPostfix left) fun e ks =>
    ∀ ls, Yields left ls → Yields e (ls ++ ks) := by
  intro s e s' hs h
  unfold applyPostfix at h
  obtain ⟨b, t, hcast, h₁⟩ := bind_ok.1 h
  rcases consume_ok hcast with ⟨rfl, m⟩ | ⟨rfl, rfl, -⟩
  · obtain ⟨target, u, htarget, h₂⟩ := bind_ok.1 h₁
    obtain ⟨rfl, rfl⟩ := pure_ok.1 h₂
    obtain ⟨ks, n, yields⟩ := passes_dataType (m.lexed hs) htarget
    exact ⟨_, m.trans n, fun ls hls => .castTo hls yields⟩
  · obtain ⟨_, u, his, h₂⟩ := bind_ok.1 h₁
    have m := expectKeyword_ok hs his
    obtain ⟨ks, n, op, rfl, behind, marks⟩ := passes_test left (m.lexed hs) h₂
    refine ⟨_, m.trans n, fun ls hls => ?_⟩
    rw [List.singleton_append, marks]
    exact .test behind hls

/-- What follows an operator between operands. -/
theorem passes_applyConnective {c : Connective} (left : Expr)
    (plain : c ≠ .binary .isIn ∧ c ≠ .binary .notIn) :
    Passes (applyConnective expr c left) fun e ks =>
      ∀ ls, Yields left ls → Yields e (ls ++ Mark.kinds c.marks ++ ks) := by
  intro s e s' hs h
  unfold applyConnective at h
  cases c with
  | binary op =>
      obtain ⟨right, t, hright, h₁⟩ := bind_ok.1 h
      obtain ⟨rfl, rfl⟩ := pure_ok.1 h₁
      obtain ⟨ks, m, yields⟩ := hexpr _ hs hright
      refine ⟨ks, m, fun ls hls => .binary ⟨?_, ?_⟩ hls yields⟩
      · rintro rfl
        exact plain.1 rfl
      · rintro rfl
        exact plain.2 rfl
  | isIn negated =>
      obtain ⟨items, t, hitems, h₁⟩ := bind_ok.1 h
      obtain ⟨rfl, rfl⟩ := pure_ok.1 h₁
      obtain ⟨ks, m, parts, filled, rfl, rfl, each⟩ := passes_inList hexpr hs hitems
      refine ⟨_, m, fun ls hls => ?_⟩
      have membership : membershipOp negated = .isIn ∨ membershipOp negated = .notIn := by
        cases negated
        · exact Or.inl rfl
        · exact Or.inr rfl
      exact .isIn membership hls filled each
  | between negated =>
      obtain ⟨low, t, hlow, h₁⟩ := bind_ok.1 h
      obtain ⟨_, u, hand, h₂⟩ := bind_ok.1 h₁
      obtain ⟨high, v, hhigh, h₃⟩ := bind_ok.1 h₂
      obtain ⟨rfl, rfl⟩ := pure_ok.1 h₃
      obtain ⟨ks, m₁, r₁⟩ := hexpr _ hs hlow
      have m₂ := expectKeyword_ok (m₁.lexed hs) hand
      obtain ⟨js, m₃, r₃⟩ := hexpr _ (m₂.lexed (m₁.lexed hs)) hhigh
      refine ⟨_, m₁.trans (m₂.trans m₃), fun ls hls => ?_⟩
      rw [← List.append_assoc]
      exact .between hls r₁ r₃

omit hexpr in
/-- An operator between operands that is seen is spelled by the next
tokens. -/
theorem rest_of_at? {s : State} {c : Connective} (hs : s.Lexed)
    (h : Connective.at? (s.kindAt 0) (s.kindAt 1) = some c) :
    ∃ later, s.rest = Mark.kinds c.marks ++ later ∧ (Mark.kinds c.marks).length = c.width
      ∧ .eof ∉ Mark.kinds c.marks := by
  obtain ⟨-, -, spelled⟩ := Connective.marks_of_at? h
  rcases spelled with ⟨mark, here, marks, width⟩ | ⟨word, here, marks, width⟩
    | ⟨word, here, next, marks, width⟩
  · obtain ⟨later, hrest⟩ := State.rest_of_kindAt here nofun
    rw [marks, width]
    exact ⟨later, hrest, rfl, by simp [Mark.kinds, Mark.kind]⟩
  · obtain ⟨later, hrest⟩ := State.rest_of_kindAt (s.kindAt_of_keyword? hs here) nofun
    rw [marks, width]
    exact ⟨later, hrest, rfl, by simp [Mark.kinds, Mark.kind, Keyword.kind]⟩
  · have first := s.kindAt_of_keyword? hs here
    have second := s.kindAt_of_keyword? hs next
    obtain ⟨later, hrest⟩ := s.rest_of_kindsAt [Keyword.NOT.kind, word.kind]
      (by simp [List.range_succ, first, second]) (by simp [Keyword.kind])
    rw [marks, width]
    exact ⟨later, hrest, rfl, by simp [Mark.kinds, Mark.kind, Keyword.kind]⟩

theorem passes_extend? (floor : Nat) (left : Expr) : Passes (extend? expr floor left)
    fun found ks => (found = none ∧ ks = [])
      ∨ ∃ e, found = some e ∧ ∀ ls, Yields left ls → Yields e (ls ++ ks) := by
  intro s found s' hs h
  have none_ok : (pure none : Parser (Option Expr)) s = .ok found s' →
      ∃ ks, Moves s ks s' ∧ ((found = none ∧ ks = [])
        ∨ ∃ e, found = some e ∧ ∀ ls, Yields left ls → Yields e (ls ++ ks)) := by
    intro h
    obtain ⟨rfl, rfl⟩ := pure_ok.1 h
    exact ⟨[], Moves.refl _, Or.inl ⟨rfl, rfl⟩⟩
  unfold extend? at h
  rw [current_bind] at h
  cases hpost : postfixTier? (s.kindAt 0) with
  | some tier =>
      simp only [hpost] at h
      split at h
      next => exact none_ok h
      next =>
        obtain ⟨e, t, he, h₁⟩ := bind_ok.1 h
        obtain ⟨rfl, rfl⟩ := pure_ok.1 h₁
        obtain ⟨ks, m, yields⟩ := passes_applyPostfix left hs he
        exact ⟨ks, m, Or.inr ⟨e, rfl, yields⟩⟩
  | none =>
      simp only [hpost] at h
      rw [peek_bind, peek_bind] at h
      cases hc : Connective.at? (s.kindAt 0) (s.kindAt 1) with
      | none =>
          rw [hc] at h
          exact none_ok h
      | some c =>
          simp only [hc] at h
          split at h
          next => exact none_ok h
          next =>
            obtain ⟨_, t, hskip, h₁⟩ := bind_ok.1 h
            obtain ⟨e, u, he, h₂⟩ := bind_ok.1 h₁
            obtain ⟨rfl, rfl⟩ := pure_ok.1 h₂
            obtain ⟨later, hrest, width, inner⟩ := rest_of_at? hs hc
            obtain ⟨notIn, notNotIn, -⟩ := Connective.marks_of_at? hc
            have m := skip_ok (width ▸ hskip) hrest inner
            obtain ⟨ks, n, yields⟩ :=
              passes_applyConnective hexpr left ⟨notIn, notNotIn⟩ (m.lexed hs) he
            refine ⟨_, m.trans n, Or.inr ⟨e, rfl, fun ls hls => ?_⟩⟩
            rw [← List.append_assoc]
            exact yields ls hls

/-- Every round adds its tokens behind those of what it extends. -/
theorem passes_extendAll (floor count : Nat) (left : Expr) :
    Passes (extendAll expr floor count left) fun e ks =>
      ∀ ls, Yields left ls → Yields e (ls ++ ks) := by
  induction count generalizing left with
  | zero =>
      intro s e s' _ h
      obtain ⟨rfl, rfl⟩ := pure_ok.1 h
      exact ⟨[], Moves.refl _, fun ls hls => by rwa [List.append_nil]⟩
  | succ count ih =>
      intro s e s' hs h
      rw [extendAll] at h
      obtain ⟨found, t, hfound, h₁⟩ := bind_ok.1 h
      obtain ⟨ks, m, ⟨rfl, rfl⟩ | ⟨longer, rfl, yields⟩⟩ :=
        passes_extend? hexpr floor left hs hfound
      · obtain ⟨rfl, rfl⟩ := pure_ok.1 h₁
        exact ⟨[], m, fun ls hls => by rwa [List.append_nil]⟩
      · obtain ⟨js, n, more⟩ := ih longer (m.lexed hs) h₁
        refine ⟨_, m.trans n, fun ls hls => ?_⟩
        rw [← List.append_assoc]
        exact more _ (yields ls hls)

end Productions

/-- The knot: nested expressions have a smaller bound. -/
theorem passes_expressionWithin (bound floor : Nat) :
    Passes (expressionWithin bound floor) Yields := by
  induction bound generalizing floor with
  | zero =>
      intro s e s' _ h
      exact (unexpected_ok.1 h).elim
  | succ bound ih =>
      intro s e s' hs h
      rw [expressionWithin] at h
      obtain ⟨left, t, hleft, h₁⟩ := bind_ok.1 h
      obtain ⟨ls, m, yields⟩ := passes_prefixed ih hs hleft
      obtain ⟨ks, n, more⟩ := passes_extendAll ih floor bound left (m.lexed hs) h₁
      exact ⟨_, m.trans n, more ls yields⟩

/-- An expression is read from its tokens. -/
theorem passes_expression (floor : Nat) : Passes (expression floor) Yields := by
  intro s e s' hs h
  unfold expression at h
  rw [tokensLeft_bind] at h
  exact passes_expressionWithin _ floor hs h

end SqlSelect.Grammar
