/-
A semicolon may end a statement, and only one may.

To every part of a statement the semicolon ends a list as the end of the
input does, so the statement before it is the one that is read without it.
In the text the semicolon goes on with no token: what stands before it is
read as it was at the end, and the trivia at the end stand before the
semicolon. Only if they end with a comment to the end of the line is the
semicolon one more character of the comment, and then so are all that
follow in that line.
-/
import SqlSelect.Proofs.Derived
import SqlSelect.Proofs.ErrorPlace

namespace SqlSelect

open Text (byteLength)

namespace Grammar

-- ======================================================== the statement

section Input

variable {kinds : List Kind} {statement : Select} {after : State} (inner : .eof ∉ kinds)
  (plain : kinds.getLast? ≠ some (.symbol .semicolon))
  (h : input (.ofKinds (kinds ++ [.eof])) = .ok statement after)
include inner plain h

/-- Behind a statement and a semicolon the end of the input is looked for. -/
theorem runs_terminated (rest : List Kind) :
    Runs input (kinds ++ [.symbol .semicolon]) rest (match next rest with
      | .eof => pure statement
      | _ => failHere .trailing) := by
  refine runs_tokensLeft (Reads.then (reads_before inner plain h ?_ _ rfl rfl) ?_)
  · rw [List.append_assoc, List.length_append]
    exact Nat.le_add_right _ _
  · exact (reads_consume .semicolon rest).last (runs_current (Runs.refl _ rest))

theorem input_semicolon :
    ∃ t, input (.ofKinds (kinds ++ [.symbol .semicolon] ++ [.eof])) = .ok statement t := by
  obtain ⟨t, -, -, whole⟩ := runs_terminated inner plain h [.eof] (.ofKinds _) rfl
  exact ⟨t, whole⟩

/-- The second semicolon is one too many. -/
theorem input_semicolons : ∃ t,
    input (.ofKinds (kinds ++ [.symbol .semicolon, .symbol .semicolon] ++ [.eof]))
      = .error ⟨.trailing (.symbol .semicolon), ⟨kinds.length + 1, kinds.length + 1⟩⟩ t := by
  have text : (State.ofKinds (kinds ++ [.symbol .semicolon, .symbol .semicolon] ++ [.eof])).rest
      = (kinds ++ [.symbol .semicolon]) ++ [.symbol .semicolon, .eof] := by
    simp only [List.append_assoc, List.cons_append, List.nil_append]
  obtain ⟨t, rest, position, whole⟩ := runs_terminated inner plain h _ _ text
  have place : t.position = kinds.length + 1 := by
    rw [position, List.length_append, List.length_singleton]
    exact Nat.zero_add _
  have found : t.kindAt 0 = .symbol .semicolon := by
    rw [State.kindAt, rest]
    rfl
  refine ⟨t, whole.trans ?_⟩
  show failHere .trailing t = _
  rw [failHere_apply, found, place]

end Input

end Grammar

-- ============================================================= the text

/-- A semicolon behind the trivia of a piece. -/
def semicolonPiece (gap : List Char) : Piece := ⟨gap, [';'], .symbol .semicolon⟩

/-- The semicolon is a piece, whatever follows it. -/
theorem Divided.semicolon {gap later : List Char} {pieces : List Piece} (filler : Filler gap)
    (h : Divided later pieces) :
    Divided (gap ++ ';' :: later) (semicolonPiece gap :: pieces) := by
  have starts : Trivia.Starts ([';'] ++ later) := Trivia.starts_cons (by decide) later
  have reads : Lexeme.scan ([';'] ++ later) = .ok (.symbol .semicolon) 1 := rfl
  exact .more filler starts (List.cons_ne_nil _ _) reads h

/-- The text ends inside a comment that goes to the end of its line: behind
the last token come blanks and closed comments, and then two dashes without
a line feed behind them. -/
def EndsInLineComment (source : String) (tokens : List Token) : Prop :=
  ∃ front closed body, source.toList = front ++ (closed ++ '-' :: '-' :: body)
    ∧ byteLength front = (tokens.dropLast.getLast?.map (·.span.stop)).getD 0
    ∧ Filler closed ∧ '\n' ∉ body

/-- The last token stops where the pieces do. -/
theorem Piece.lastStop (offset : Nat) (pieces : List Piece) :
    ((tokens offset pieces).getLast?.map (·.span.stop)).getD offset = offset + sizes pieces := by
  induction pieces generalizing offset with
  | nil => rfl
  | cons piece later ih =>
      rw [tokens, lastStop_cons, sizes, ← Nat.add_assoc]
      exact ih _

/-- Trivia up to the end of a text. -/
theorem Trivia.closing_of_skip {last : List Char} (h : skip 0 last = .token last.length) :
    Closing last := by
  obtain ⟨gap, rest, rfl, filler, next⟩ := exists_filler last
  rw [skip_filler filler, Nat.zero_add, List.length_append] at h
  cases next with
  | token starts =>
      rw [skip_starts starts] at h
      have width := Skipped.token.inj h
      obtain rfl : rest = [] := List.eq_nil_of_length_eq_zero (by omega)
      rw [List.append_nil]
      exact Or.inl filler
  | line inside => exact Or.inr ⟨gap, _, rfl, filler, inside⟩
  | block inside =>
      rw [skip, skipBlock_open inside] at h
      cases h

/-- A comment that its line goes on with is still passed as one. -/
theorem Divided.comment {closed body : List Char} (filler : Filler closed) (inside : '\n' ∉ body) :
    Divided (closed ++ '-' :: '-' :: body) [] := by
  apply Divided.done
  rw [Trivia.skip_filler filler, Nat.zero_add, Trivia.skip, Trivia.skipLine_open inside]
  simp only [List.length_append, List.length_cons]
  congr 1
  omega

/-- Text on the line of a comment at the end goes on with the comment; else
semicolons are pieces of their own. -/
theorem Divided.terminated {source : String} {pieces : List Piece}
    (h : Divided source.toList pieces) :
    (EndsInLineComment source (Piece.tokens 0 pieces ++ [endToken (byteLength source.toList)])
        ∧ ∀ more, '\n' ∉ more → Divided (source.toList ++ more) pieces)
      ∨ ∃ last, byteLength source.toList = Piece.sizes pieces + byteLength last
        ∧ ∀ {more : List Char} {later : List Piece}, Divided more later →
          Divided (source.toList ++ ';' :: more) (pieces ++ semicolonPiece last :: later) := by
  obtain ⟨front, last, text, size, trivia, goes⟩ := h.append
  rcases Trivia.closing_of_skip trivia with filler | ⟨closed, body, rfl, filler, inside⟩
  · refine Or.inr ⟨last, ?_, fun {more} _ divided => goes ?_ (divided.semicolon filler)⟩
    · rw [text, Text.byteLength_append, size]
    · rintro - _ ⟨⟩
      decide
  · refine Or.inl ⟨⟨front, closed, body, text, ?_, filler, inside⟩, fun more line => ?_⟩
    · rw [List.dropLast_concat, Piece.lastStop, size, Nat.zero_add]
    · -- the trivia are not empty, so what follows may start with any mark
      have goesOn : '\n' ∉ body ++ more := by
        rw [List.mem_append]
        exact not_or_intro inside line
      rw [← List.append_nil pieces]
      refine goes (fun none => ?_) ?_
      · exact absurd (List.append_eq_nil_iff.1 none).2 (List.cons_ne_nil _ _)
      · rw [List.append_assoc]
        exact .comment filler goesOn

/-- A text with a semicolon behind it has that semicolon or its own pieces
alone. -/
theorem parse_semicolon {source : String} {pieces : List Piece} {statement : Select}
    {after : Grammar.State} (divided : Divided source.toList pieces)
    (plain : (pieces.map Piece.kind).getLast? ≠ some (.symbol .semicolon))
    (h : Grammar.input (.ofKinds (pieces.map Piece.kind ++ [.eof])) = .ok statement after) :
    parse (source ++ ";") = .ok statement := by
  rcases divided.terminated with ⟨-, goesOn⟩ | ⟨last, -, goes⟩
  · have whole : Divided (source ++ ";").toList pieces := by
      rw [String.toList_append]
      exact goesOn [';'] (by decide)
    exact parse_of_divided whole h
  · have whole : Divided (source ++ ";").toList (pieces ++ [semicolonPiece last]) := by
      rw [String.toList_append]
      exact goes (.done rfl)
    obtain ⟨t, accepted⟩ := Grammar.input_semicolon divided.ne_eof plain h
    have kinds : (pieces ++ [semicolonPiece last]).map Piece.kind
        = pieces.map Piece.kind ++ [.symbol .semicolon] := List.map_append
    rw [← kinds] at accepted
    exact parse_of_divided whole accepted

/-- The second semicolon behind a text is refused where it stands. -/
theorem parse_semicolons {source : String} {pieces : List Piece} {last : List Char}
    {statement : Select} {after : Grammar.State} (inner : .eof ∉ pieces.map Piece.kind)
    (whole : Divided (source ++ ";;").toList
      (pieces ++ [semicolonPiece last, semicolonPiece []]))
    (size : byteLength source.toList = Piece.sizes pieces + byteLength last)
    (plain : (pieces.map Piece.kind).getLast? ≠ some (.symbol .semicolon))
    (h : Grammar.input (.ofKinds (pieces.map Piece.kind ++ [.eof])) = .ok statement after) :
    parse (source ++ ";;") = .error (Error.locate (source ++ ";;").toList
      (.trailing (.symbol .semicolon)) ⟨source.utf8ByteSize + 1, source.utf8ByteSize + 2⟩) := by
  obtain ⟨t, refused⟩ := Grammar.input_semicolons inner plain h
  have kinds : (pieces ++ [semicolonPiece last, semicolonPiece []]).map Piece.kind
      = pieces.map Piece.kind ++ [.symbol .semicolon, .symbol .semicolon] := List.map_append
  rw [← kinds, ← map_kind_of_divided _ (byteLength (source ++ ";;").toList)] at refused
  obtain ⟨e, he, cause, -, a, b, ha, hb, span⟩ :=
    parse_of_fault (tokenize_of_divided whole) refused
  have front : (pieces.map Piece.kind).length + 1 = (pieces ++ [semicolonPiece last]).length := by
    rw [List.length_map, List.length_append]
    rfl
  have second := Piece.getElem?_tokens 0 (pieces ++ [semicolonPiece last]) [] (semicolonPiece [])
    [endToken (byteLength (source ++ ";;").toList)]
  rw [List.append_assoc, ← front] at second
  obtain rfl := Option.some.inj (second.symm.trans ha)
  obtain rfl := Option.some.inj (second.symm.trans hb)
  have start : 0 + Piece.sizes (pieces ++ [semicolonPiece last]) = source.utf8ByteSize + 1 := by
    rw [← Text.byteLength_toList, size, Piece.sizes_append, Nat.zero_add, Nat.add_assoc]
    rfl
  rw [start] at span
  have located : e = Error.locate (source ++ ";;").toList e.cause e.span := by
    rw [Error.locate, ← position_of_parse he]
  rw [he, located, cause, span]
  rfl

/-- A semicolon may be added to a text that is accepted and that none ends:
the statement is the same. A second one is refused where it stands, unless
the text ends inside a comment that takes up both. -/
theorem parse_terminated {source : String} {tokens : List Token} {statement : Select}
    (h : parse source = .ok statement) (htokens : tokenize source = .ok tokens)
    (plain : (tokens.map Token.kind).dropLast.getLast? ≠ some (.symbol .semicolon)) :
    parse (source ++ ";") = .ok statement
      ∧ (¬EndsInLineComment source tokens →
        parse (source ++ ";;") = .error (Error.locate (source ++ ";;").toList
          (.trailing (.symbol .semicolon))
          ⟨source.utf8ByteSize + 1, source.utf8ByteSize + 2⟩)) := by
  obtain ⟨pieces, after, divided, rfl, plain, hinput⟩ := divided_of_parse h htokens plain
  refine ⟨parse_semicolon divided plain hinput, fun open_ended => ?_⟩
  rcases divided.terminated with ⟨comment, -⟩ | ⟨last, size, goes⟩
  · exact absurd comment open_ended
  · have alone : Divided [';'] [semicolonPiece []] := .semicolon .nil (.done rfl)
    have whole : Divided (source ++ ";;").toList
        (pieces ++ [semicolonPiece last, semicolonPiece []]) := by
      rw [String.toList_append]
      exact goes alone
    exact parse_semicolons divided.ne_eof whole size plain hinput

/-- A text with one comment to the end of a line inside, and behind it one
between marks with a semicolon in it. -/
theorem parse_terminated_comment :
    ∃ tokens statement, tokenize "select a -- b\nfrom t /* ; */" = .ok tokens
      ∧ parse "select a -- b\nfrom t /* ; */" = .ok statement
      ∧ (tokens.map Token.kind).dropLast.getLast? ≠ some (.symbol .semicolon)
      ∧ ¬EndsInLineComment "select a -- b\nfrom t /* ; */" tokens
      ∧ parse ("select a -- b\nfrom t /* ; */" ++ ";") = .ok statement
      ∧ parse ("select a -- b\nfrom t /* ; */" ++ ";;")
        = .error (Error.locate ("select a -- b\nfrom t /* ; */" ++ ";;").toList
          (.trailing (.symbol .semicolon)) ⟨29, 30⟩) := by
  have accepted : (parse "select a -- b\nfrom t /* ; */").toOption.isSome := by decide +kernel
  have last : (tokenize "select a -- b\nfrom t /* ; */").toOption.map
      (fun tokens => ((tokens.map Token.kind).dropLast.getLast?,
        (tokens.dropLast.getLast?.map (·.span.stop)).getD 0)) = some (some (.word "t"), 20) := by
    decide +kernel
  obtain ⟨statement, h⟩ := exists_of_toOption_isSome accepted
  obtain ⟨tokens, htokens, last⟩ := exists_of_toOption_map last
  obtain ⟨kind, stop⟩ := Prod.mk.inj last
  have plain : (tokens.map Token.kind).dropLast.getLast? ≠ some (.symbol .semicolon) := by
    rw [kind]
    exact nofun
  have closed : ¬EndsInLineComment "select a -- b\nfrom t /* ; */" tokens := by
    rintro ⟨front, closed, body, text, size, -⟩
    -- no dash stands behind the last token
    have behind := Text.splitAtByte_append front (closed ++ '-' :: '-' :: body)
    rw [← text, size, stop] at behind
    have rest : Text.splitAtByte 20 "select a -- b\nfrom t /* ; */".toList
        = some ("select a -- b\nfrom t".toList, " /* ; */".toList) := by
      decide +kernel
    obtain ⟨-, same⟩ := Prod.mk.inj (Option.some.inj (rest.symm.trans behind))
    have dash : '-' ∈ " /* ; */".toList := by
      rw [same]
      exact List.mem_append_right _ List.mem_cons_self
    exact absurd dash (by decide)
  obtain ⟨once, twice⟩ := parse_terminated h htokens plain
  exact ⟨tokens, statement, htokens, h, plain, closed, once, twice closed⟩

end SqlSelect
