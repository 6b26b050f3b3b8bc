/-
A text taken apart into its tokens.

`Divided text pieces` says that the text is these pieces, each a token with
the trivia before it, and trivia behind the last. The tokens of a text are
those of its pieces with their places counted out, and the text of a span
is the token it was read from. So a text can be put together from pieces,
and whatever is known of the tokens of one text carries over to another
text with the same pieces in another layout.

# Two directions

From pieces to tokens one runs the scanner along them (`tokenize_of_divided`),
from tokens to pieces one asks each step what it has passed
(`divided_of_tokenize`). Both have as many rounds as the text has characters.

# Putting texts together

Texts are joined by joining their pieces (`Divided.append`). What a text ends
with matters there: without any trivia the first character behind it could go
on with its last token, and a comment without a line break would go on with
the text (`Divided.append_line`).
-/
import SqlSelect.Proofs.Layout.Scan

namespace SqlSelect

open Text (byteLength)

/-- A token and the trivia before it. -/
structure Piece where
  gap : List Char
  word : List Char
  kind : Kind

/-- The text consists of these pieces, and of trivia behind them. -/
inductive Divided : List Char → List Piece → Prop
  | done {last : List Char} (trivia : Trivia.skip 0 last = .token last.length) : Divided last []
  | more {gap word later : List Char} {kind : Kind} {pieces : List Piece} (filler : Filler gap)
    (starts : Trivia.Starts (word ++ later)) (filled : word ≠ [])
    (reads : Lexeme.scan (word ++ later) = .ok kind word.length) (rest : Divided later pieces) :
    Divided (gap ++ (word ++ later)) (⟨gap, word, kind⟩ :: pieces)

namespace Piece

/-- The bytes of a piece. -/
def size (piece : Piece) : Nat := byteLength piece.gap + byteLength piece.word

/-- The bytes of pieces one behind the other. -/
def sizes : List Piece → Nat
  | [] => 0
  | piece :: later => piece.size + sizes later

theorem sizes_append (front back : List Piece) :
    sizes (front ++ back) = sizes front + sizes back := by
  induction front with
  | nil => exact (Nat.zero_add _).symm
  | cons piece front ih => rw [List.cons_append, sizes, sizes, ih, Nat.add_assoc]

/-- The token of a piece that starts at an offset. -/
def token (piece : Piece) (offset : Nat) : Token :=
  ⟨piece.kind, ⟨offset + byteLength piece.gap, offset + piece.size⟩⟩

/-- The tokens of pieces one behind the other. -/
def tokens : Nat → List Piece → List Token
  | _, [] => []
  | offset, piece :: later => piece.token offset :: tokens (offset + piece.size) later

theorem tokens_append (offset : Nat) (front back : List Piece) :
    tokens offset (front ++ back)
      = tokens offset front ++ tokens (offset + sizes front) back := by
  induction front generalizing offset with
  | nil => rfl
  | cons piece front ih =>
      rw [List.cons_append, tokens, tokens, ih, sizes, Nat.add_assoc]
      rfl

theorem map_kind_tokens (offset : Nat) (pieces : List Piece) :
    (tokens offset pieces).map Token.kind = pieces.map kind := by
  induction pieces generalizing offset with
  | nil => rfl
  | cons piece later ih =>
      rw [tokens, List.map_cons, List.map_cons, ih]
      rfl

end Piece

/-- The token at the end of a text. -/
def endToken (offset : Nat) : Token := ⟨.eof, ⟨offset, offset⟩⟩

theorem Piece.mem_kinds {offset : Nat} {pieces : List Piece} {token : Token}
    (h : token ∈ tokens offset pieces) : token.kind ∈ pieces.map kind := by
  rw [← map_kind_tokens offset]
  exact List.mem_map_of_mem h

theorem Piece.length_tokens (offset : Nat) (pieces : List Piece) :
    (tokens offset pieces).length = pieces.length := by
  have same := congrArg List.length (map_kind_tokens offset pieces)
  rwa [List.length_map, List.length_map] at same

/-- The token of a piece behind others. -/
theorem Piece.getElem?_tokens (offset : Nat) (front later : List Piece) (piece : Piece)
    (stop : List Token) :
    (tokens offset (front ++ piece :: later) ++ stop)[front.length]?
      = some (piece.token (offset + sizes front)) := by
  have within : (tokens offset front).length ≤ front.length :=
    Nat.le_of_eq (length_tokens offset front)
  rw [tokens_append, List.append_assoc, List.getElem?_append_right within, length_tokens,
    Nat.sub_self]
  rfl

/-- The kinds of the tokens of a text are those of its pieces. -/
theorem map_kind_of_divided (pieces : List Piece) (stop : Nat) :
    (Piece.tokens 0 pieces ++ [endToken stop]).map Token.kind
      = pieces.map Piece.kind ++ [.eof] := by
  rw [List.map_append, Piece.map_kind_tokens]
  rfl

/-- What is read from a word is not the end of the input. -/
theorem Lexeme.ne_eof_of_scan {word later : List Char} {kind : Kind} (filled : word ≠ [])
    (reads : Lexeme.scan (word ++ later) = .ok kind word.length) : kind ≠ .eof := by
  have text : word ++ later ≠ [] := fun none => filled (List.append_eq_nil_iff.1 none).1
  exact (Lexeme.reads_scan text kind (congrArg Lexeme.found reads)).2

theorem Divided.ne_eof {text : List Char} {pieces : List Piece} (h : Divided text pieces) :
    .eof ∉ pieces.map Piece.kind := by
  induction h with
  | done => exact nofun
  | more _ _ filled reads _ ih =>
      have inner := Lexeme.ne_eof_of_scan filled reads
      exact List.not_mem_cons_of_ne_of_not_mem inner.symm ih

-- =========================================================== reading

/-- What is read, a token or a fault, is the start of the text. -/
theorem Lexeme.word_of_scan {text : List Char} (filled : text ≠ []) :
    ∃ word later, text = word ++ later ∧ word ≠ [] ∧ word.length = (scan text).length := by
  cases text with
  | nil => exact absurd rfl filled
  | cons c more =>
      obtain ⟨some_char, within⟩ := bounds_scan c more
      have width := List.length_take_of_le within
      refine ⟨_, _, (List.take_append_drop _ (c :: more)).symm, ?_, width⟩
      exact List.length_pos_iff.1 (width.symm ▸ some_char)

namespace Scanner

/-- One step passes the trivia and what is read behind it. -/
theorem step_behind {gap rest : List Char}
    (skipped : Trivia.skip 0 (gap ++ rest) = .token gap.length) (offset : Nat) :
    (Scanner.mk offset (gap ++ rest)).step
      = (⟨(Lexeme.scan rest).found, ⟨offset + byteLength gap,
          offset + byteLength gap + byteLength (rest.take (Lexeme.scan rest).length)⟩⟩,
        ⟨offset + byteLength gap + byteLength (rest.take (Lexeme.scan rest).length),
          rest.drop (Lexeme.scan rest).length⟩) := by
  unfold step
  simp only [skipped, drop, List.take_left, List.drop_left]

/-- At the end of a text a step passes the trivia. -/
theorem step_end {last : List Char} (trivia : Trivia.skip 0 last = .token last.length)
    (offset : Nat) : (Scanner.mk offset last).step
      = (⟨.ok .eof, (endToken (offset + byteLength last)).span⟩,
        ⟨offset + byteLength last, []⟩) := by
  have skipped : Trivia.skip 0 (last ++ []) = .token last.length := by
    rw [List.append_nil]
    exact trivia
  have step := step_behind skipped offset
  rw [List.append_nil] at step
  exact step

/-- Elsewhere it passes a piece. -/
theorem step_piece {gap word later : List Char} {kind : Kind} (filler : Filler gap)
    (starts : Trivia.Starts (word ++ later))
    (reads : Lexeme.scan (word ++ later) = .ok kind word.length) (offset : Nat) :
    (Scanner.mk offset (gap ++ (word ++ later))).step
      = (⟨.ok kind, ((Piece.mk gap word kind).token offset).span⟩,
        ⟨offset + (Piece.mk gap word kind).size, later⟩) := by
  have skipped : Trivia.skip 0 (gap ++ (word ++ later)) = .token gap.length := by
    rw [Trivia.skip_filler filler, Nat.zero_add, Trivia.skip_starts starts]
  rw [step_behind skipped, reads]
  simp only [Lexeme.ok, List.take_left, List.drop_left, Piece.token, Piece.size, Nat.add_assoc]

/-- A step that finds no fault passes a piece, or the trivia at the end. -/
theorem text_of_step {offset : Nat} {text : List Char} {kind : Kind} {span : Span}
    {next : Scanner} (h : (Scanner.mk offset text).step = (⟨.ok kind, span⟩, next)) :
    (kind = .eof ∧ Trivia.skip 0 text = .token text.length)
      ∨ kind ≠ .eof ∧ ∃ gap word later, text = gap ++ (word ++ later) ∧ Filler gap
        ∧ Trivia.Starts (word ++ later) ∧ word ≠ []
        ∧ Lexeme.scan (word ++ later) = .ok kind word.length := by
  cases hskip : Trivia.skip 0 text with
  | unclosed opening =>
      simp only [step, hskip] at h
      cases h
  | token n =>
      obtain ⟨gap, rest, rfl, hn, -, starts⟩ := Trivia.skip_token hskip
      rw [Nat.zero_add] at hn
      subst hn
      rw [step_behind hskip] at h
      have found : (Lexeme.scan rest).found = .ok kind := congrArg (Step.found ∘ Prod.fst) h
      by_cases ended : rest = []
      · subst ended
        refine Or.inl ⟨(Except.ok.inj found).symm, ?_⟩
        rw [List.append_nil]
      · have reads : Lexeme.scan rest = .ok kind (Lexeme.scan rest).length := by
          rw [Lexeme.ok, ← found]
        obtain ⟨word, later, rfl, filled, width⟩ := Lexeme.word_of_scan ended
        rw [← width] at reads
        obtain ⟨filler, starts⟩ := starts ended
        exact Or.inr ⟨(Lexeme.reads_scan ended kind found).2, gap, word, later, rfl, filler, starts,
          filled, reads⟩

/-- A token that is found stands before those behind it. -/
theorem tokens_succ {s next : Scanner} {kind : Kind} {span : Span} (inner : kind ≠ .eof)
    (hstep : s.step = (⟨.ok kind, span⟩, next)) (count : Nat) :
    s.tokens (count + 1) = match next.tokens count with
      | .ok later => .ok (⟨kind, span⟩ :: later)
      | .error fault => .error fault := by
  rw [Scanner.tokens, hstep]
  cases kind with
  | eof => exact absurd rfl inner
  | _ => rfl

/-- A text ends where what is behind its first piece ends. -/
theorem endToken_piece (offset : Nat) (gap word later : List Char) (kind : Kind) :
    endToken (offset + (Piece.mk gap word kind).size + byteLength later)
      = endToken (offset + byteLength (gap ++ (word ++ later))) := by
  simp only [Piece.size, Text.byteLength_append, Nat.add_assoc]

/-- The pieces of a text are what is found in it. -/
theorem tokens_of_divided {text : List Char} {pieces : List Piece} (h : Divided text pieces)
    {count : Nat} (enough : text.length ≤ count) (offset : Nat) :
    (Scanner.mk offset text).tokens count
      = .ok (Piece.tokens offset pieces ++ [endToken (offset + byteLength text)]) := by
  induction h generalizing count offset with
  | @done last trivia =>
      cases count with
      | zero =>
          obtain rfl := List.eq_nil_of_length_eq_zero (Nat.le_zero.1 enough)
          rfl
      | succ count =>
          rw [Scanner.tokens, step_end trivia]
          rfl
  | @more gap word later kind pieces filler starts filled reads rest ih =>
      have inner := Lexeme.ne_eof_of_scan filled reads
      have some_char := List.length_pos_iff.2 filled
      rw [List.length_append, List.length_append] at enough
      cases count with
      | zero => omega
      | succ count =>
          rw [tokens_succ inner (step_piece filler starts reads offset), ih (by omega),
            endToken_piece]
          rfl

/-- What is found in a text are its pieces. -/
theorem divided_of_tokens {count offset : Nat} {text : List Char} {tokens : List Token}
    (h : (Scanner.mk offset text).tokens count = .ok tokens) (enough : text.length ≤ count) :
    ∃ pieces, Divided text pieces
      ∧ tokens = Piece.tokens offset pieces ++ [endToken (offset + byteLength text)] := by
  induction count generalizing offset text tokens with
  | zero =>
      obtain rfl := List.eq_nil_of_length_eq_zero (Nat.le_zero.1 enough)
      obtain rfl := Except.ok.inj h
      exact ⟨[], .done rfl, rfl⟩
  | succ count ih =>
      obtain ⟨⟨found, span⟩, next, hstep⟩ :
          ∃ found next, (Scanner.mk offset text).step = (found, next) := ⟨_, _, rfl⟩
      cases found with
      | error fault =>
          rw [Scanner.tokens, hstep] at h
          cases h
      | ok kind =>
          rcases text_of_step hstep with ⟨-, trivia⟩ |
            ⟨inner, gap, word, later, rfl, filler, starts, filled, reads⟩
          · rw [Scanner.tokens, step_end trivia] at h
            obtain rfl := Except.ok.inj h
            exact ⟨[], .done trivia, rfl⟩
          · rw [tokens_succ inner (step_piece filler starts reads offset)] at h
            split at h
            next more hmore =>
              have some_char := List.length_pos_iff.2 filled
              rw [List.length_append, List.length_append] at enough
              obtain ⟨pieces, divided, rfl⟩ := ih hmore (by omega)
              obtain rfl := Except.ok.inj h
              refine ⟨_, .more filler starts filled reads divided, ?_⟩
              rw [endToken_piece]
              rfl
            next => cases h

end Scanner

theorem tokenize_of_divided {source : String} {pieces : List Piece}
    (h : Divided source.toList pieces) : tokenize source
      = .ok (Piece.tokens 0 pieces ++ [endToken (byteLength source.toList)]) := by
  have found := Scanner.tokens_of_divided h (Nat.le_refl _) 0
  rw [Nat.zero_add] at found
  unfold tokenize
  simp only [Scanner.start, found]

theorem divided_of_tokenize {source : String} {tokens : List Token}
    (h : tokenize source = .ok tokens) :
    ∃ pieces, Divided source.toList pieces
      ∧ tokens = Piece.tokens 0 pieces ++ [endToken (byteLength source.toList)] := by
  unfold tokenize at h
  simp only at h
  split at h
  next found htokens =>
    obtain rfl := Except.ok.inj h
    obtain ⟨pieces, divided, same⟩ := Scanner.divided_of_tokens htokens (Nat.le_refl _)
    rw [Nat.zero_add] at same
    exact ⟨pieces, divided, same⟩
  next => cases h

-- =========================================================== joining

namespace Divided

/-- A text ends with trivia, and where the text goes on, its pieces go on with
those of the trivia and what follows. Without any trivia what follows must
not start with a mark. -/
theorem append {text : List Char} {pieces : List Piece} (h : Divided text pieces) :
    ∃ front last, text = front ++ last ∧ byteLength front = Piece.sizes pieces
      ∧ Trivia.skip 0 last = .token last.length
      ∧ ∀ {more : List Char} {later : List Piece},
        (last = [] → ∀ c ∈ more.head?, isMark c = false) → Divided (last ++ more) later →
          Divided (text ++ more) (pieces ++ later) := by
  induction h with
  | @done last trivia => exact ⟨[], last, rfl, rfl, trivia, fun _ rest => rest⟩
  | @more gap word later kind pieces filler starts filled reads rest ih =>
      obtain ⟨front, last, rfl, size, trivia, goes⟩ := ih
      refine ⟨gap ++ (word ++ front), last, ?_, ?_, trivia, fun {more} _ unmarked divided => ?_⟩
      · simp only [List.append_assoc]
      · simp only [Text.byteLength_append, Piece.sizes, Piece.size, size]
        omega
      · have same : Behind (front ++ last) (front ++ last ++ more) := by
          cases hbehind : front ++ last with
          | nil => exact Or.inr (unmarked (List.append_eq_nil_iff.1 hbehind).2)
          | cons c _ => exact Or.inl rfl
        have whole := Divided.more filler (Trivia.starts_behind same filled starts) filled
          (Lexeme.scan_behind same filled reads) (goes unmarked divided)
        simpa only [List.append_assoc, List.cons_append] using whole

/-- A text with a line break behind it, and pieces behind that. What trivia
it ends with goes to the next piece, also a comment that its end ends. -/
theorem append_line {text more : List Char} {pieces later : List Piece} {next : Piece}
    (h : Divided text pieces) (behind : Divided more (next :: later)) :
    ∃ last, byteLength text = Piece.sizes pieces + byteLength last
      ∧ Divided (text ++ '\n' :: more)
        (pieces ++ { next with gap := last ++ '\n' :: next.gap } :: later) := by
  obtain ⟨front, last, rfl, size, trivia, goes⟩ := h.append
  refine ⟨last, by rw [Text.byteLength_append, size], goes ?_ ?_⟩
  · rintro - _ ⟨⟩
    exact isMark_of_isBlank rfl
  · -- a comment that went without its line break now has one
    obtain ⟨gap, rest, rfl, width, filler, -⟩ := Trivia.skip_token trivia
    obtain rfl : rest = [] := by
      rw [List.length_append, Nat.zero_add] at width
      exact List.eq_nil_of_length_eq_zero (by omega)
    rw [List.append_nil]
    cases behind with
    | @more gap' word _ _ _ filler' starts filled reads rest =>
        have whole := Divided.more (filler.append filler') starts filled reads rest
        simpa using whole

end Divided

-- ============================================================ slices

namespace Text

theorem splitAtByte_append (front back : List Char) :
    splitAtByte (byteLength front) (front ++ back) = some (front, back) := by
  induction front with
  | nil => rw [byteLength_nil, splitAtByte, List.nil_append]
  | cons c front ih =>
      obtain ⟨n, hn⟩ := Nat.exists_eq_add_of_le' (Nat.le_trans c.utf8Size_pos
        (Nat.le_add_right c.utf8Size (byteLength front)))
      rw [List.cons_append, byteLength_cons, hn, splitAtByte, ← hn, if_pos (Nat.le_add_right _ _),
        Nat.add_sub_cancel_left, ih]
      rfl

theorem slice_append (front word back : List Char) :
    slice (front ++ (word ++ back)) (byteLength front) (byteLength front + byteLength word)
      = some word := by
  unfold slice
  rw [if_pos (Nat.le_add_right _ _), Nat.add_sub_cancel_left]
  simp [splitAtByte_append]

end Text

/-- The text of each token is the word of its piece. -/
theorem Divided.slices {text : List Char} {pieces : List Piece} (h : Divided text pieces)
    (front : List Char) :
    (Piece.tokens (byteLength front) pieces).map
        (fun token => Text.slice (front ++ text) token.span.start token.span.stop)
      = pieces.map fun piece => some piece.word := by
  induction h generalizing front with
  | done => rfl
  | @more gap word later kind pieces _ _ _ _ rest ih =>
      have next := ih (front ++ gap ++ word)
      have here := Text.slice_append (front ++ gap) word later
      simp only [Text.byteLength_append, List.append_assoc, Nat.add_assoc] at next here
      simp only [Piece.tokens, Piece.token, Piece.size, List.map_cons, here, next]

end SqlSelect
