/-
Parsing comes to an end.

The grammar bounds its loops and its nesting by the number of tokens left.
That the bound is never used up rests on the cursor: no production moves it
back or past the end of the input, every round of a loop that has another
behind it takes a token, and what is nested stands behind a token of its
own. So the grammar reads as if it had no bounds: with any that suffice for
the tokens it comes to the same, whatever is to be said when they are used
up. The list behind `GROUP BY` alone may be read a second time, from where
it starts, and nothing is taken back inside that attempt.

# One statement of it all

`Advancing` gathers what a maintainer would ask of a recursive descent: what
each production does to the cursor, that rounds gain a token, that expressions
and statements unfold into productions whose nested parts stand behind a token
of their own, and that bounds which suffice make no difference. `advancing` puts
together what the modules about the grammar say of each.

# Texts

The same for whole texts (`parse_terminates`): scanning with any number of
rounds that suffices, and parsing the tokens with any bound that suffices, is
what `parse` does, whatever is to be said for want of rounds.
-/
import SqlSelect.Proofs.Kinds
import SqlSelect.Proofs.Layout.Pieces
import SqlSelect.Proofs.Termination.Production

namespace SqlSelect

-- ============================================================ places

namespace Grammar

variable {α : Type}

/-- The cursor stands at one of the tokens `inner` or at the end of the input
behind them. -/
structure State.Within (s : State) (inner : List Kind) : Prop where
  rest : s.rest = (inner ++ [Kind.eof]).drop s.position
  reached : s.position ≤ inner.length

theorem State.within_iff {s : State} {inner : List Kind} :
    s.Within inner ↔ s.StandsIn (inner ++ [.eof]) := by
  constructor
  · rintro ⟨rest, reached⟩
    refine ⟨rest, ?_⟩
    rw [rest, List.drop_append_of_le_length reached]
    exact List.mem_append_right _ (List.mem_singleton_self _)
  · intro hs
    have within := hs.position_lt
    rw [List.length_append, List.length_singleton] at within
    exact ⟨hs.rest, Nat.le_of_lt_succ within⟩

-- ======================================================== taking back

/-- How often the cursor has gone back, which is reported each time. -/
def State.rewinds (s : State) : Nat :=
  s.events.countP fun
    | .reparsed _ => true
    | _ => false

/-- A quiet parser takes nothing back. -/
theorem Quiet.rewinds {p : Parser α} (quiet : Quiet 0 p) (s : State) :
    (final (p s)).rewinds = s.rewinds := by
  rw [quiet s (Nat.zero_le _)]
  cases p s.hushed with
  | ok a t => rfl
  | error fault t =>
      show (s.events ++ if s.trial then [] else fault.reports).countP _ = s.events.countP _
      have none : (if s.trial then [] else fault.reports).countP (fun
          | .reparsed _ => true
          | _ => false) = 0 := by
        unfold Fault.reports
        split
        · rfl
        · split <;> rfl
      rw [List.countP_append, none, Nat.add_zero]

/-- The attempt to read the list in parentheses reports nothing. -/
theorem wrappedGroups_reports (s : State) :
    (final (wrappedGroups s)).trial = s.trial ∧ (final (wrappedGroups s)).events = s.events := by
  rcases wrappedGroups_apply s with ⟨es, t, hlist, -, h⟩ | ⟨⟨u, h, trial, events⟩, -⟩
  · rw [h]
    show t.advance.trial = _ ∧ t.advance.events = _
    obtain ⟨trial, events⟩ := quiet_expressionList.ok_reports hlist
    rw [t.advance_reports.1, t.advance_reports.2]
    exact ⟨trial, events⟩
  · rw [h]
    exact ⟨trial, events⟩

/-- The list is read without going back, or it is read again from where it
starts, after one report. -/
theorem rewinds_groups (s : State) :
    (final (groups s)).rewinds = s.rewinds
      ∨ (final (groups s)).rewinds = s.rewinds + 1 ∧ s.kindAt 0 = .symbol .leftParen
        ∧ groups s = expressionList expression (s.report (.reparsed s.position)) := by
  rcases groups_cases s with ⟨es, t, -, hlist, -, h⟩ | ⟨opened, -, h⟩ | ⟨-, h⟩
  · have same : t.advance.events = s.events := by
      rw [t.advance_reports.2, (quiet_expressionList.ok_reports hlist).2, s.advance_reports.2]
    rw [h]
    exact Or.inl (congrArg (List.countP _) same)
  · refine Or.inr ⟨?_, opened, h⟩
    rw [h, quiet_expressionList.rewinds]
    exact List.countP_append
  · rw [h, quiet_expressionList.rewinds]
    exact Or.inl rfl

-- ===================================================== the grammar

/-- What the productions do to a cursor among the tokens `inner` and the end
of the input. -/
structure Advancing (inner : List Kind) : Prop where
  /-- A production keeps the tokens and leaves the cursor at one of them that
  is not before it, in success and in failure. -/
  stays : ∀ {α : Type} {p : Parser α}, Production p → ∀ s, s.Within inner →
    (final (p s)).Within inner ∧ s.position ≤ (final (p s)).position
  gains : ∀ {α : Type} {p : Parser α}, Takes p → ∀ s a s', s.Within inner →
    p s = .ok a s' → s.position < s'.position
  rounds : ∀ {α : Type} {round : Parser (Option α)}, Round round → ∀ s a s', s.Within inner →
    round s = .ok (some a) s' → s.position < s'.position
  /-- What is skipped has been seen, so that each of the tokens is passed. -/
  strides : ∀ s count, s.Within inner → Stride s count →
    ∃ t, skip count s = .ok () t ∧ t.Within inner ∧ t.position = s.position + count
  /-- An expression depends on no expression that is not behind the current
  token, and not on its number of rounds. -/
  expressions : ∀ s, s.Within inner → ∀ expr : Nat → Parser Expr,
    (∀ floor t, t.Within inner → s.position < t.position → expr floor t = expression floor t) →
    ∀ floor count stuck, s.rest.length ≤ count + 1 →
      expression floor s = (prefixed expr >>= iterate stuck (extend? expr floor) count) s
  /-- Nor does a statement depend on one that is not. -/
  statements : ∀ s, s.Within inner → ∀ select : Parser Select,
    (∀ t, t.Within inner → s.position < t.position → select t = statement t) →
    statement s = selectOf select s
  loops : ∀ {α : Type} {p q : Nat → Parser α}, Loop p q → ∀ s n m, s.Within inner →
    s.rest.length ≤ n → s.rest.length ≤ m → p n s = q m s

theorem advancing (inner : List Kind) : Advancing inner where
  stays production s hs := by
    obtain ⟨stands, onward⟩ := production.onward.stays (State.within_iff.1 hs)
    exact ⟨State.within_iff.2 stands, onward⟩
  gains takes s a s' hs h := takes.gains (State.within_iff.1 hs) h
  rounds round s a s' hs h := (round.gaining (State.within_iff.1 hs) h).2
  strides s count hs stride := by
    obtain ⟨ks, t, skipped, m, there⟩ := skip_passes stride.inner
    exact ⟨t, skipped, State.within_iff.2 ((State.within_iff.1 hs).moves m), there⟩
  expressions s hs expr later floor count stuck enough :=
    expression_unfold (State.within_iff.1 hs)
      (fun floor t ht => later floor t (State.within_iff.2 ht)) enough stuck floor
  statements s hs select later :=
    statement_unfold (State.within_iff.1 hs) fun t ht => later t (State.within_iff.2 ht)
  loops loop s n m hs left right := by
    have length := (State.within_iff.1 hs).length_rest
    exact loop.same (State.within_iff.1 hs) (by omega) (by omega)

end Grammar

-- ============================================================= texts

namespace Scanner

/-- The tokens from here, if they end within `count` steps. Otherwise `spent`
answers. -/
def tokensOver (spent : Scanner → Except (LexicalFault × Span) (List Token)) :
    Nat → Scanner → Except (LexicalFault × Span) (List Token)
  | 0, s => spent s
  | count + 1, s =>
    match s.step with
    | (⟨.error fault, span⟩, _) => .error (fault, span)
    | (⟨.ok .eof, span⟩, _) => .ok [⟨.eof, span⟩]
    | (⟨.ok kind, span⟩, next) =>
      match next.tokensOver spent count with
      | .ok later => .ok (⟨kind, span⟩ :: later)
      | .error fault => .error fault

theorem tokensOver_succ {s next : Scanner} {kind : Kind} {span : Span} (inner : kind ≠ .eof)
    (hstep : s.step = (⟨.ok kind, span⟩, next))
    (spent : Scanner → Except (LexicalFault × Span) (List Token)) (count : Nat) :
    s.tokensOver spent (count + 1) = match next.tokensOver spent count with
      | .ok later => .ok (⟨kind, span⟩ :: later)
      | .error fault => .error fault := by
  rw [tokensOver, hstep]
  cases kind with
  | eof => exact absurd rfl inner
  | _ => rfl

/-- Every step but the last takes a character, so that there are enough steps
if there are more than characters. -/
theorem tokensOver_eq (spent : Scanner → Except (LexicalFault × Span) (List Token)) {n m : Nat}
    {offset : Nat} {text : List Char} (more : text.length < n) (enough : text.length ≤ m) :
    (Scanner.mk offset text).tokensOver spent n = (Scanner.mk offset text).tokens m := by
  induction n generalizing m offset text with
  | zero => omega
  | succ n ih =>
      cases m with
      | zero =>
          obtain rfl := List.eq_nil_of_length_eq_zero (Nat.le_zero.1 enough)
          rw [tokensOver, step_end rfl]
          rfl
      | succ m =>
          obtain ⟨⟨found, span⟩, next, hstep⟩ :
              ∃ found next, (Scanner.mk offset text).step = (found, next) := ⟨_, _, rfl⟩
          cases found with
          | error fault => rw [tokensOver, tokens, hstep]
          | ok kind =>
              rcases text_of_step hstep with ⟨rfl, -⟩ |
                ⟨inner, gap, word, later, rfl, filler, starts, filled, reads⟩
              · rw [tokensOver, tokens, hstep]
              · have some_char := List.length_pos_iff.2 filled
                rw [List.length_append, List.length_append] at more enough
                have step := step_piece filler starts reads offset
                have behind : tokensOver spent n ⟨offset + (Piece.mk gap word kind).size, later⟩
                    = tokens m ⟨offset + (Piece.mk gap word kind).size, later⟩ :=
                  ih (by omega) (by omega)
                have found := tokens_succ inner step m
                rw [← behind] at found
                exact (tokensOver_succ inner step spent n).trans found.symm

end Scanner

/-- Parses a text in `n` steps for its tokens and with `m` statements inside
each other at most, given what to answer if that is not enough. -/
def parseOver (noTokens : Scanner → Except (LexicalFault × Span) (List Token))
    (noStatement : Grammar.ParserOf Grammar.Reader Error Select) (n m : Nat) (source : String) :
    Except Error Select :=
  let text := source.toList
  match (Scanner.start text).tokensOver noTokens n with
  | .error (fault, span) => .error (Error.locate text (.lexical fault) span)
  | .ok tokens =>
    match (Grammar.selectOver noStatement m >>= Grammar.ending)
        { Session.start source with tokens } with
    | .ok statement _ => .ok statement
    | .error error _ => .error error

theorem parseOver_eq (noTokens : Scanner → Except (LexicalFault × Span) (List Token))
    (noStatement : Grammar.ParserOf Grammar.Reader Error Select) {n m : Nat} {source : String}
    (more : source.toList.length < n)
    (enough : ∀ tokens, tokenize source = .ok tokens → tokens.length ≤ m) :
    parseOver noTokens noStatement n m source = parse source := by
  have scanned : (Scanner.start source.toList).tokensOver noTokens n
      = (Scanner.start source.toList).tokens source.toList.length :=
    Scanner.tokensOver_eq noTokens more (Nat.le_refl _)
  cases htokens : tokenize source with
  | error e =>
      obtain ⟨fault, span, rfl, hfault⟩ := fault_of_tokenize htokens
      rw [parse, parseReporting_of_fault htokens]
      simp only [parseOver, scanned, hfault]
  | ok tokens =>
      have found : (Scanner.start source.toList).tokens source.toList.length = .ok tokens := by
        unfold tokenize at htokens
        simp only at htokens
        split at htokens
        next hfound => rw [hfound, Except.ok.inj htokens]
        next => cases htokens
      have starts := standsIn_of_tokenize htokens
      have rounds : (tokens.map Token.kind).length ≤ m + 0 := by
        rw [List.length_map]
        exact enough tokens htokens
      -- with these rounds the reader goes along the kinds, whose rounds are enough
      have whole : (Grammar.beside source tokens).At (.ofKinds (tokens.map Token.kind))
          Grammar.none? (Select.mapNames id) Grammar.input
          (Grammar.selectOver noStatement m >>= Grammar.ending) := by
        rw [Grammar.input_eq]
        have statement : (Grammar.beside source tokens).At (.ofKinds (tokens.map Token.kind))
            Grammar.one (Select.mapNames id) Grammar.statement (Grammar.selectOver noStatement m) :=
          (Grammar.tandem_selectOver (Grammar.beside_types source tokens)
            (Grammar.beside_groups source tokens) (Or.inr ⟨rounds, rounds⟩) _ starts
            (Nat.le_refl _)).congr (Grammar.statement_eq_over starts rounds Grammar.statement)
            fun _ => rfl
        exact statement.andThen fun _ _ _ same hs _ => Grammar.tandem_ending hs same
      have follows : Grammar.Reader.Follows source tokens (.ofKinds (tokens.map Token.kind))
          { Session.start source with tokens } := (Session.ready_start source).follows htokens
      have run := follows.run whole
      rw [parse, parseReporting_eq htokens]
      simp only [parseOver, scanned, found]
      cases hinput : Grammar.input (.ofKinds (tokens.map Token.kind)) with
      | ok statement after =>
          rw [hinput] at run
          obtain ⟨r, hr, -⟩ := run
          rw [hr]
          rfl
      | error fault after =>
          rw [hinput] at run
          obtain ⟨r, hr, -⟩ := run
          rw [hr]
          rfl

/-- No parse runs out of rounds. Among the tokens of an input, whose last is
its end, no production leaves the tokens or goes back, whatever it comes to;
expressions, operands, types, entries of the `FROM` list and statements take
a token, as do the rounds of every loop and whatever leads from one
expression or statement to one inside it. The `GROUP BY` list is taken back
once at most, and nothing is taken back in the attempt before that. The
tokens of a text are such an input, so that with more steps than characters
and as many rounds as tokens a text is parsed the same, whatever is said
where they are used up. -/
theorem parse_terminates :
    (∀ inner, Grammar.Advancing inner)
      ∧ (∀ s, ((Grammar.final (Grammar.groups s)).rewinds = s.rewinds
          ∨ (Grammar.final (Grammar.groups s)).rewinds = s.rewinds + 1
            ∧ s.kindAt 0 = .symbol .leftParen ∧ Grammar.groups s
              = Grammar.expressionList Grammar.expression (s.report (.reparsed s.position)))
        ∧ (Grammar.final (Grammar.wrappedGroups s)).trial = s.trial
        ∧ (Grammar.final (Grammar.wrappedGroups s)).events = s.events)
      ∧ (∀ source tokens, tokenize source = .ok tokens → ∃ inner,
        tokens.map Token.kind = inner ++ [.eof] ∧ .eof ∉ inner
          ∧ (Grammar.State.ofKinds (tokens.map Token.kind)).Within inner)
      ∧ ∀ source noTokens noStatement n m, source.toList.length < n →
        (∀ tokens, tokenize source = .ok tokens → tokens.length ≤ m) →
        parseOver noTokens noStatement n m source = parse source := by
  refine ⟨Grammar.advancing,
    fun s => ⟨Grammar.rewinds_groups s, Grammar.wrappedGroups_reports s⟩,
    fun source tokens htokens => ?_,
    fun source noTokens noStatement n m more enough =>
      parseOver_eq noTokens noStatement more enough⟩
  obtain ⟨inner, hinner, noEnd⟩ := tokenize_kinds htokens
  have stands := standsIn_of_tokenize htokens
  refine ⟨inner, hinner, fun eof => (noEnd _ eof).2 rfl, Grammar.State.within_iff.2 ?_⟩
  rwa [← hinner]

/-- A list that starts with parentheses around its first expression only. -/
theorem parse_terminates_rewound :
    (Grammar.State.ofKinds [.symbol .leftParen, .word "a", .symbol .rightParen, .symbol .comma,
        .word "b", .eof]).Within [.symbol .leftParen, .word "a", .symbol .rightParen,
          .symbol .comma, .word "b"]
      ∧ Grammar.groups (.ofKinds [.symbol .leftParen, .word "a", .symbol .rightParen,
        .symbol .comma, .word "b", .eof])
        = .ok [.ref none "a", .ref none "b"] ⟨5, [.eof], false, [.reparsed 0]⟩
      ∧ Grammar.State.Within ⟨5, [.eof], false, [.reparsed 0]⟩ [.symbol .leftParen, .word "a",
        .symbol .rightParen, .symbol .comma, .word "b"]
      ∧ Grammar.State.rewinds ⟨5, [.eof], false, [.reparsed 0]⟩ = 1
      ∧ "select a group by (a), b".toList.length < 25
      ∧ (∀ tokens, tokenize "select a group by (a), b" = .ok tokens → tokens.length ≤ 10)
      ∧ parseOver (fun _ => .ok []) (Grammar.unexpected "") 25 10 "select a group by (a), b"
        = parse "select a group by (a), b" := by
  obtain ⟨advancing, -, -, bounded⟩ := parse_terminates
  have within : (Grammar.State.ofKinds [.symbol .leftParen, .word "a", .symbol .rightParen,
      .symbol .comma, .word "b", .eof]).Within [.symbol .leftParen, .word "a",
        .symbol .rightParen, .symbol .comma, .word "b"] := ⟨rfl, Nat.zero_le _⟩
  have found : Grammar.groups (.ofKinds [.symbol .leftParen, .word "a", .symbol .rightParen,
      .symbol .comma, .word "b", .eof])
      = .ok [.ref none "a", .ref none "b"] ⟨5, [.eof], false, [.reparsed 0]⟩ := rfl
  have stays := ((advancing _).stays .groups _ within).1
  rw [found] at stays
  have short : (tokenize "select a group by (a), b").toOption.all
      (fun tokens => tokens.length ≤ 10) = true := by
    decide +kernel
  have enough : ∀ tokens, tokenize "select a group by (a), b" = .ok tokens →
      tokens.length ≤ 10 := by
    intro tokens htokens
    rw [htokens] at short
    exact of_decide_eq_true short
  have more : "select a group by (a), b".toList.length < 25 := by
    decide
  exact ⟨within, found, stays, rfl, more, enough, bounded _ _ _ 25 10 more enough⟩

end SqlSelect
