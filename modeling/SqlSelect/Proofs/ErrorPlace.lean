/-
Where the errors of a text stand.

Every error takes up whole characters of the text, and its line and column
are those of the first of them. What these characters are depends on what is
wrong: a token, the end of the input, the tokens that break a rule, or text
behind tokens that is none. That a fault of the grammar is placed at tokens
of the right sort is known from `local_input`, and where these are in the
text from how it divides into them.
-/
import SqlSelect.Proofs.Kinds
import SqlSelect.Proofs.Layout.Places
import SqlSelect.Proofs.Tandem.State

namespace SqlSelect

open Text (byteLength)

-- ========================================================== lexical

/-- The error is what is found behind these tokens, and behind the trivia
that follows them: what stands there is no trivia, or it is a comment that
does not close. -/
structure Error.Follows (e : Error) (source : String) (tokens : List Token) : Prop where
  steps : lexSteps source (tokens.length + 1) = tokens.map .ok ++ [.error e]
  inner : ∀ token ∈ tokens, token.kind ≠ .eof
  trivia : ∃ front gap rest, source.toList = front ++ (gap ++ rest)
    ∧ byteLength front = (tokens.getLast?.map (·.span.stop)).getD 0 ∧ Filler gap
    ∧ (Trivia.Starts rest ∨ ∃ body, rest = '/' :: '*' :: body ∧ ¬['*', '/'] <:+: body)
    ∧ e.span.start = byteLength front + byteLength gap
  filled : e.span.start < e.span.stop

/-- The error of a text that does not divide into tokens follows those that
it starts with, and it ends in the text. -/
theorem follows_of_tokenize {source : String} {e : Error} (h : tokenize source = .error e) :
    (∃ tokens, e.Follows source tokens) ∧ Text.Boundary source.toList e.span.start
      ∧ Text.Boundary source.toList e.span.stop := by
  obtain ⟨fault, span, rfl, hfault⟩ := fault_of_tokenize h
  obtain ⟨tokens, last, next, reaches, hlast⟩ := Scanner.reaches_of_fault hfault
  have found : last.steps 1 = [⟨.error fault, span⟩] := by
    rw [Scanner.steps, hlast]
    rfl
  obtain ⟨front, whole, offset⟩ := reaches.text
  obtain ⟨gap, word, back, hrest, filler, filled, ends, rfl⟩ := Scanner.text_of_fault hlast
  have text : source.toList = front ++ (gap ++ (word ++ back)) := hrest ▸ whole
  have offset : last.offset = byteLength front := offset.trans (Nat.zero_add _)
  have some_byte : 0 < byteLength word :=
    Nat.lt_of_lt_of_le (List.length_pos_iff.2 filled) (Text.length_le_byteLength word)
  refine ⟨⟨tokens, ?_, reaches.ne_eof, ⟨front, gap, word ++ back, text, ?_, filler, ends, ?_⟩, ?_⟩,
    ⟨front ++ gap, word ++ back, ?_, ?_⟩, ⟨front ++ (gap ++ word), back, ?_, ?_⟩⟩
  · unfold lexSteps
    simp only [reaches.steps, found, List.map_append, List.map_map, List.map_cons, List.map_nil]
    rfl
  · rw [← offset]
    exact reaches.offset
  · exact congrArg (· + byteLength gap) offset
  · exact Nat.lt_add_of_pos_right some_byte
  · rw [text, List.append_assoc]
  · rw [Text.byteLength_append, ← offset]
    rfl
  · rw [text, List.append_assoc, List.append_assoc]
  · rw [Text.byteLength_append, Text.byteLength_append, ← offset, ← Nat.add_assoc]
    rfl

-- ========================================================== grammar

/-- A fault stands at tokens of the sort that its cause names. -/
theorem suits_of_fault {source : String} {tokens : List Token} {fault : Grammar.Fault}
    {after : Grammar.State} (htokens : tokenize source = .ok tokens)
    (hinput : Grammar.input (.ofKinds (tokens.map Token.kind)) = .error fault after) :
    Grammar.Suits (tokens.map Token.kind) fault.cause fault.place.first fault.place.last := by
  obtain ⟨-, -, blames, -⟩ := (Grammar.tandem_input (Grammar.solo_types _)
    (Grammar.solo_groups _) (standsIn_of_tokenize htokens)).error hinput
  obtain ⟨-, -, suits⟩ := blames
  exact suits

/-- What an error is placed at, by its cause. -/
def Error.PlacedIn (e : Error) (source : String) : Prop :=
  match e.cause with
  | .lexical _ => ∃ tokens, e.Follows source tokens
  | .unexpected _ found | .trailing found =>
    ∃ tokens, tokenize source = .ok tokens ∧ ⟨found, e.span⟩ ∈ tokens ∧ found ≠ .eof
  | .unexpectedEof _ =>
    ∃ tokens, tokenize source = .ok tokens ∧ ⟨.eof, e.span⟩ ∈ tokens
      ∧ e.span = ⟨byteLength source.toList, byteLength source.toList⟩
  | .invalid _ =>
    ∃ tokens i j first, tokenize source = .ok tokens ∧ tokens[i]? = some first
      ∧ first.kind ≠ .eof ∧ i ≤ j ∧ e.span.Runs tokens i j

theorem placedIn_of_suits {source : String} {tokens : List Token} {e : Error} {first last : Nat}
    (htokens : tokenize source = .ok tokens)
    (suits : Grammar.Suits (tokens.map Token.kind) e.cause first last)
    (runs : e.span.Runs tokens first last) : e.PlacedIn source := by
  obtain ⟨a, b, ha, hb, span⟩ := runs
  have single (same : first = last) : tokens[last]? = some ⟨b.kind, e.span⟩ := by
    rw [same, hb] at ha
    rw [hb, span, ← Option.some.inj ha]
  unfold Error.PlacedIn
  unfold Grammar.Suits at suits
  cases hcause : e.cause with
  | lexical _ =>
      rw [hcause] at suits
      exact suits.elim
  | unexpected _ found | trailing found =>
      rw [hcause] at suits
      obtain ⟨inner, same, kind⟩ := suits
      rw [getD_map_kind hb] at kind
      have here := single same
      rw [kind] at here
      exact ⟨tokens, htokens, List.mem_of_getElem? here, inner⟩
  | unexpectedEof _ =>
      rw [hcause] at suits
      obtain ⟨same, kind⟩ := suits
      rw [getD_map_kind hb] at kind
      have here := single same
      rw [kind] at here
      have found := List.mem_of_getElem? here
      refine ⟨tokens, htokens, found, ?_⟩
      rcases filled_of_tokenize htokens found with ⟨inner, -⟩ | last
      · exact absurd rfl inner
      · exact congrArg Token.span last
  | invalid _ =>
      rw [hcause] at suits
      obtain ⟨ordered, inner⟩ := suits
      -- the token that starts the stretch is not the last, which alone is the end
      have inner : a.kind ≠ .eof := by
        rw [← getD_map_kind ha]
        exact inner.elim id fun more => inner_of_tokenize htokens first more
      exact ⟨tokens, _, _, a, htokens, ha, inner, ordered, a, b, ha, hb, span⟩

-- =========================================================== errors

/-- The line and column of an error are counted out from where it starts. -/
theorem position_of_parse {source : String} {e : Error} (h : parse source = .error e) :
    e.position = Position.ofOffset source.toList e.span.start := by
  cases htokens : tokenize source with
  | error e' =>
      rw [parse, parseReporting_of_fault htokens] at h
      obtain ⟨fault, span, rfl, -⟩ := fault_of_tokenize htokens
      cases h
      rfl
  | ok tokens =>
      rw [parse, parseReporting_eq htokens] at h
      cases hinput : Grammar.input (.ofKinds (tokens.map Token.kind)) with
      | ok statement after =>
          rw [hinput] at h
          cases h
      | error fault after =>
          rw [hinput] at h
          cases h
          rfl

/-- The ends of an error are boundaries, and they stand in order. -/
theorem boundaries_of_parse {source : String} {e : Error} (h : parse source = .error e) :
    Text.Boundary source.toList e.span.start ∧ Text.Boundary source.toList e.span.stop
      ∧ e.span.start ≤ e.span.stop ∧ e.PlacedIn source := by
  cases htokens : tokenize source with
  | error e' =>
      rw [parse, parseReporting_of_fault htokens] at h
      cases h
      obtain ⟨⟨tokens, follows⟩, start, stop⟩ := follows_of_tokenize htokens
      obtain ⟨fault, span, rfl, -⟩ := fault_of_tokenize htokens
      exact ⟨start, stop, Nat.le_of_lt follows.filled, tokens, follows⟩
  | ok tokens =>
      obtain ⟨fault, after, hinput, cause, ordered, runs⟩ := fault_of_parse htokens h
      obtain ⟨a, b, ha, hb, span⟩ := id runs
      have placed := placedIn_of_suits htokens (cause ▸ suits_of_fault htokens hinput) runs
      rw [span]
      exact ⟨(boundaries_of_tokenize htokens (List.mem_of_getElem? ha)).1,
        (boundaries_of_tokenize htokens (List.mem_of_getElem? hb)).2,
        start_le_stop htokens ha hb ordered, placed⟩

/-- Errors stand where they say, for every text that is refused. The span is
made of whole characters of the text, and the line and column are those of
its start. An unexpected or a trailing token is a token of the text, of the
kind that is named and not the end; the end of the input is reported at the
end; a broken rule from the start of one token, not the end, to the end of it
or of one behind; and a lexical error has some text, which follows the tokens
before it and the trivia behind these. -/
theorem placed_of_parse {source : String} {e : Error} (h : parse source = .error e) :
    (∃ front word back, source.toList = front ++ (word ++ back)
        ∧ e.span = ⟨byteLength front, byteLength front + byteLength word⟩
        ∧ e.span.start ≤ e.span.stop ∧ e.span.stop ≤ byteLength source.toList
        ∧ e.position = .behind front)
      ∧ e.PlacedIn source := by
  obtain ⟨first, last, ordered, placed⟩ := boundaries_of_parse h
  obtain ⟨front, word, back, text, start, stop⟩ := first.split last ordered
  refine ⟨⟨front, word, back, text, ?_, ordered, ?_, ?_⟩, placed⟩
  · rw [stop, start]
  · rw [← stop, text, Text.byteLength_append, Text.byteLength_append]
    omega
  · rw [position_of_parse h, text, ← start, Position.ofOffset_boundary]

/-- A string without its closing quote, behind comments and a letter of two
bytes. -/
theorem placed_of_parse_unterminated :
    ∃ e, parse "select é -- a\n/* b */ 'x" = .error e ∧ e.position = ⟨2, 9⟩
      ∧ (∃ front word back, "select é -- a\n/* b */ 'x".toList = front ++ (word ++ back)
        ∧ e.span = ⟨byteLength front, byteLength front + byteLength word⟩
        ∧ e.span.start ≤ e.span.stop
        ∧ e.span.stop ≤ byteLength "select é -- a\n/* b */ 'x".toList
        ∧ e.position = .behind front)
      ∧ e.PlacedIn "select é -- a\n/* b */ 'x" := by
  have refused : error? "select é -- a\n/* b */ 'x"
      = some ⟨.lexical .unterminatedString, ⟨23, 25⟩, ⟨2, 9⟩⟩ := by
    decide +kernel
  have h := parse_of_error? refused
  exact ⟨_, h, rfl, placed_of_parse h⟩

end SqlSelect
