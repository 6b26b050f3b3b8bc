/-
What a parse sees of a text.

The grammar runs on tokens with their spans. It remembers the spans of some,
asks for that of the token before the current one, and merges what it has
remembered with what it has reached. None of this shows in what it does next.
The run over the tokens of a text goes along a run over their bare kinds
(`Reader.Follows`), and two texts with the same kinds are two runs along the
same one. They come to the same statement, or to errors that have one cause
and are placed at the same two tokens.

# Where an error is

A fault of the bare kinds names the tokens at fault by their indices, first
and last in order and both of them tokens (`steps_input`). In the text it is
placed at the least span over these two. Tokens follow each other without
overlapping, and so that span runs from the start of the one to the end of the
other (`Span.Runs`). Which two they are can be told from the span, as long as
it ends before the text does.
-/
import SqlSelect.Proofs.Course.Select
import SqlSelect.Proofs.Layout.Places
import SqlSelect.Proofs.RoundTrip

namespace SqlSelect

/-- The span runs from the start of one token to the end of another. -/
def Span.Runs (span : Span) (tokens : List Token) (first last : Nat) : Prop :=
  ∃ a b, tokens[first]? = some a ∧ tokens[last]? = some b ∧ span = ⟨a.span.start, b.span.stop⟩

/-- The mark of a token is its span. -/
theorem markOf_eq {source : String} {tokens : List Token} {i : Nat} {token : Token}
    (h : tokens[i]? = some token) : markOf source tokens i = token.span := by
  rw [markOf, List.getD_eq_getElem?_getD, h]
  rfl

/-- Tokens follow each other, so that the least span over two of them starts
where the first one does and stops where the second one does. -/
theorem Grammar.Stretch.runs_span {source : String} {tokens : List Token} {place : Stretch}
    (h : tokenize source = .ok tokens) (ordered : place.first ≤ place.last)
    (inside : place.last < tokens.length) :
    (place.span source tokens).Runs tokens place.first place.last := by
  have first := List.getElem?_eq_getElem (Nat.lt_of_le_of_lt ordered inside)
  have last := List.getElem?_eq_getElem inside
  refine ⟨_, _, first, last, ?_⟩
  rw [span, markOf_eq first, markOf_eq last, Span.merge]
  rcases Nat.lt_or_eq_of_le ordered with before | same
  · have between : _ ≤ _ := before_of_lt h first last before
    have left := start_le_stop h first first (Nat.le_refl _)
    have right := start_le_stop h last last (Nat.le_refl _)
    rw [Nat.min_eq_left (Nat.le_trans left between), Nat.max_eq_right (Nat.le_trans between right)]
  · simp only [same, Nat.min_self, Nat.max_self]

/-- The kind at the index of a token is its kind. -/
theorem getD_map_kind {tokens : List Token} {i : Nat} {token : Token}
    (h : tokens[i]? = some token) : (tokens.map Token.kind).getD i .eof = token.kind := by
  rw [List.getD_eq_getElem?_getD, List.getElem?_map, h]
  rfl

/-- Only the last token is the end of the input. -/
theorem inner_of_tokenize {source : String} {tokens : List Token}
    (h : tokenize source = .ok tokens) (i : Nat) (before : i + 1 < (tokens.map Token.kind).length) :
    (tokens.map Token.kind).getD i .eof ≠ .eof := by
  obtain ⟨body, hbody, inner⟩ := tokenize_kinds h
  rw [hbody, List.length_append, List.length_singleton] at before
  have within : i < body.length := Nat.lt_of_add_lt_add_right before
  rw [hbody, List.getD_eq_getElem?_getD, List.getElem?_append_left within,
    List.getElem?_eq_getElem within]
  exact (inner _ (List.getElem_mem within)).2

section Order

variable {source : String} {tokens : List Token} (h : tokenize source = .ok tokens)

include h

/-- A token with another behind it is not the end of the input. -/
theorem inner_of_lt {i j : Nat} {a b : Token} (ha : tokens[i]? = some a)
    (hb : tokens[j]? = some b) (lt : i < j) : a.kind ≠ .eof := by
  have within : j < tokens.length := (List.getElem?_eq_some_iff.1 hb).1
  have inner := inner_of_tokenize h i (by rw [List.length_map]; omega)
  rwa [getD_map_kind ha] at inner

theorem start_lt_start {i j : Nat} {a b : Token} (ha : tokens[i]? = some a)
    (hb : tokens[j]? = some b) (lt : i < j) : a.span.start < b.span.start := by
  rcases filled_of_tokenize h (List.mem_of_getElem? ha) with ⟨-, filled⟩ | last
  · exact Nat.lt_of_lt_of_le filled (before_of_lt h ha hb lt)
  · exact absurd (congrArg Token.kind last) (inner_of_lt h ha hb lt)

/-- A span that ends before the text does runs over one stretch of tokens. -/
theorem Span.Runs.unique {span : Span} {i j i' j' : Nat} (runs : span.Runs tokens i j)
    (runs' : span.Runs tokens i' j') (before : span.stop < Text.byteLength source.toList) :
    i = i' ∧ j = j' := by
  obtain ⟨a, b, ha, hb, rfl⟩ := runs
  obtain ⟨a', b', ha', hb', same⟩ := runs'
  obtain ⟨starts, stops⟩ := Span.mk.inj same
  have inner {k : Nat} {token : Token} (found : tokens[k]? = some token)
      (early : token.span.stop < Text.byteLength source.toList) : token.kind ≠ .eof := by
    rcases filled_of_tokenize h (List.mem_of_getElem? found) with ⟨inner, -⟩ | rfl
    · exact inner
    · exact absurd early (Nat.lt_irrefl _)
  constructor
  · rcases Nat.lt_trichotomy i i' with lt | here | lt
    · exact absurd starts (Nat.ne_of_lt (start_lt_start h ha ha' lt))
    · exact here
    · exact absurd starts.symm (Nat.ne_of_lt (start_lt_start h ha' ha lt))
  · rcases Nat.lt_trichotomy j j' with lt | here | lt
    · exact absurd stops (Nat.ne_of_lt (stop_lt_stop h hb hb' lt (inner hb' (stops ▸ before))))
    · exact here
    · exact absurd stops.symm (Nat.ne_of_lt (stop_lt_stop h hb' hb lt (inner hb before)))

end Order

/-- Where the grammar refuses the kinds of a text, the error of the text is
that fault, placed at the tokens it names. -/
theorem parse_of_fault {source : String} {tokens : List Token} {fault : Grammar.Fault}
    {after : Grammar.State} (htokens : tokenize source = .ok tokens)
    (hinput : Grammar.input (.ofKinds (tokens.map Token.kind)) = .error fault after) :
    ∃ e, parse source = .error e ∧ e.cause = fault.cause
      ∧ fault.place.first ≤ fault.place.last
      ∧ e.span.Runs tokens fault.place.first fault.place.last := by
  have ends := (standsIn_of_tokenize htokens).ends
  have steps : Grammar.Steps 0 Grammar.input := Grammar.steps_input
  obtain ⟨ordered, inside⟩ := steps.inside (Nat.zero_le _) ends hinput
  rw [Nat.zero_add, List.length_map] at inside
  exact ⟨_, parse_of_located htokens hinput, rfl, ordered,
    Grammar.Stretch.runs_span htokens ordered inside⟩

/-- The error of a text, if it is refused. -/
def error? (source : String) : Option Error :=
  match parse source with
  | .ok _ => none
  | .error e => some e

theorem parse_of_error? {source : String} {e : Error} (h : error? source = some e) :
    parse source = .error e := by
  unfold error? at h
  cases hparse : parse source with
  | ok statement =>
      rw [hparse] at h
      cases h
  | error e' =>
      rw [hparse] at h
      rw [Option.some.inj h]

/-- An error of a text that divides into tokens is a fault of the grammar. -/
theorem fault_of_parse {source : String} {tokens : List Token} {e : Error}
    (htokens : tokenize source = .ok tokens) (h : parse source = .error e) :
    ∃ fault after, Grammar.input (.ofKinds (tokens.map Token.kind)) = .error fault after
      ∧ e.cause = fault.cause ∧ fault.place.first ≤ fault.place.last
      ∧ e.span.Runs tokens fault.place.first fault.place.last := by
  cases hinput : Grammar.input (.ofKinds (tokens.map Token.kind)) with
  | ok statement after =>
      rw [parse_of_input htokens hinput] at h
      cases h
  | error fault after =>
      obtain ⟨e', he', cause, ordered, runs⟩ := parse_of_fault htokens hinput
      rw [he'] at h
      cases h
      exact ⟨fault, after, rfl, cause, ordered, runs⟩

/-- Two texts with the same kinds of tokens are parsed to the same statement,
or fail for the same cause at the same tokens. -/
theorem parse_congr_kinds {a b : String} {ts us : List Token} (ha : tokenize a = .ok ts)
    (hb : tokenize b = .ok us) (same : ts.map Token.kind = us.map Token.kind) :
    (∃ statement, parse a = .ok statement ∧ parse b = .ok statement)
      ∨ ∃ e f i j, parse a = .error e ∧ parse b = .error f ∧ e.cause = f.cause ∧ i ≤ j
        ∧ e.span.Runs ts i j ∧ f.span.Runs us i j := by
  cases hinput : Grammar.input (.ofKinds (ts.map Token.kind)) with
  | ok statement after =>
      have hinput' := hinput
      rw [same] at hinput'
      exact Or.inl ⟨statement, parse_of_input ha hinput, parse_of_input hb hinput'⟩
  | error fault after =>
      have hinput' := hinput
      rw [same] at hinput'
      obtain ⟨e, he, ecause, ordered, espan⟩ := parse_of_fault ha hinput
      obtain ⟨f, hf, fcause, -, fspan⟩ := parse_of_fault hb hinput'
      exact Or.inr ⟨e, f, _, _, he, hf, ecause.trans fcause.symm, ordered, espan, fspan⟩

/-- A statement in parentheses that lacks its alias, written in two ways:
either error runs from the opening to the closing parenthesis. -/
theorem parse_congr_kinds_derivedTable :
    ∃ ts us e f, tokenize "select*from(select b)limit 1" = .ok ts
      ∧ tokenize "SELECT * FROM ( -- inner\n SELECT /* all */ B ) LIMIT 01" = .ok us
      ∧ ts.map Token.kind = us.map Token.kind
      ∧ parse "select*from(select b)limit 1" = .error e
      ∧ parse "SELECT * FROM ( -- inner\n SELECT /* all */ B ) LIMIT 01" = .error f
      ∧ e.cause = .invalid .derivedTableWithoutAlias ∧ e.cause = f.cause
      ∧ e.span.Runs ts 3 6 ∧ f.span.Runs us 3 6 := by
  have left : (tokenize "select*from(select b)limit 1").toOption.any fun ts =>
      decide (ts[3]? = some ⟨.symbol .leftParen, ⟨11, 12⟩⟩
        ∧ ts[6]? = some ⟨.symbol .rightParen, ⟨20, 21⟩⟩) := by
    decide +kernel
  have right : (tokenize "SELECT * FROM ( -- inner\n SELECT /* all */ B ) LIMIT 01"
      ).toOption.isSome := by
    decide +kernel
  have same : (tokenize "select*from(select b)limit 1").toOption.map (List.map Token.kind)
      = (tokenize "SELECT * FROM ( -- inner\n SELECT /* all */ B ) LIMIT 01").toOption.map
        (List.map Token.kind) := by
    decide +kernel
  have refused : error? "select*from(select b)limit 1"
      = some ⟨.invalid .derivedTableWithoutAlias, ⟨11, 21⟩, ⟨1, 12⟩⟩ := by
    decide +kernel
  obtain ⟨ts, hts, holds⟩ := exists_of_toOption_any left
  obtain ⟨us, hus⟩ := exists_of_toOption_isSome right
  obtain ⟨opening, closing⟩ := of_decide_eq_true holds
  have kinds : ts.map Token.kind = us.map Token.kind := by
    rw [hts, hus] at same
    exact Option.some.inj same
  have h := parse_of_error? refused
  rcases parse_congr_kinds hts hus kinds with ⟨statement, taken, -⟩
    | ⟨e, f, i, j, he, hf, cause, -, runs, runs'⟩
  · rw [h] at taken
    cases taken
  · rw [h] at he
    cases he
    obtain ⟨rfl, rfl⟩ := runs.unique hts ⟨_, _, opening, closing, rfl⟩ (by decide)
    exact ⟨ts, us, _, f, hts, hus, kinds, h, hf, rfl, cause, runs, runs'⟩

end SqlSelect
