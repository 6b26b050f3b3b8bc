/-
Where the tokens and the lexical faults of a text stand.

Tokens start and stop between two characters and follow one another. A
lexical fault follows the tokens before it in the same way: behind the last
of them come blanks and closed comments, as far as they go, and then at
least one character that the fault takes up.

# Boundaries and places

`Text.Boundary` is a byte offset that splits the text between two characters.
All that is said about places starts there: a boundary has a text in front of
it, and the line and the column are counted in that text
(`Position.ofOffset_boundary`).

# Faults

`Reaches` describes a scanner that comes to a fault: the tokens that it has
found on the way, in order, and where it stands. So a fault has a place behind
those tokens, which is told as for a token.
-/
import SqlSelect.Proofs.Layout.Pieces

namespace SqlSelect

open Text (byteLength)

-- ======================================================== boundaries

/-- The byte offset lies between two characters, or at an end of the text. -/
def Text.Boundary (text : List Char) (offset : Nat) : Prop :=
  ∃ front back, text = front ++ back ∧ byteLength front = offset

theorem Text.eq_nil_of_byteLength {cs : List Char} (h : byteLength cs = 0) : cs = [] :=
  List.eq_nil_of_length_eq_zero (Nat.le_zero.1 (h ▸ length_le_byteLength cs))

/-- Two boundaries in order divide a text in three. -/
theorem Text.Boundary.split {text : List Char} {start stop : Nat} (first : Boundary text start)
    (second : Boundary text stop) (ordered : start ≤ stop) :
    ∃ front word back, text = front ++ (word ++ back) ∧ byteLength front = start
      ∧ byteLength front + byteLength word = stop := by
  obtain ⟨front, behind, rfl, rfl⟩ := first
  obtain ⟨front', back, whole, rfl⟩ := second
  rcases List.append_eq_append_iff.1 whole with ⟨word, rfl, rfl⟩ | ⟨word, rfl, rfl⟩
  · exact ⟨front, word, back, rfl, rfl, (byteLength_append front word).symm⟩
  · have empty : word = [] := by
      rw [byteLength_append] at ordered
      exact eq_nil_of_byteLength (by omega)
    subst empty
    refine ⟨front', [], behind, ?_, ?_, ?_⟩ <;> simp

/-- The place behind a text: its lines are counted by their line feeds, and
its column by the characters behind the last of these. -/
def Position.behind (front : List Char) : Position :=
  ⟨front.count '\n' + 1, (front.reverse.takeWhile (· ≠ '\n')).length + 1⟩

theorem Position.behind_concat (front : List Char) (c : Char) :
    behind (front ++ [c]) = (behind front).after c := by
  unfold behind after
  by_cases newline : c = '\n'
  · simp [newline]
  · simp [newline]

/-- The place of a boundary is the one behind the text before it. -/
theorem Position.ofOffset_boundary (front back : List Char) :
    ofOffset (front ++ back) (byteLength front) = behind front := by
  have reached (passed : List Char) :
      (behind passed).advance (byteLength front) (front ++ back) = behind (passed ++ front) := by
    induction front generalizing passed with
    | nil =>
        rw [List.nil_append, List.append_nil]
        cases back with
        | nil => rfl
        | cons c back => exact if_neg (Nat.not_le_of_lt c.utf8Size_pos)
    | cons c front ih =>
        have size : c.utf8Size ≤ byteLength (c :: front) := Nat.le_add_right _ _
        rw [List.cons_append, advance, if_pos size, Text.byteLength_cons, Nat.add_sub_cancel_left,
          ← behind_concat, ih, List.append_assoc]
        rfl
  exact reached []

-- ============================================================ tokens

/-- The token ends before the other starts. -/
def Token.Before (a b : Token) : Prop := a.span.stop ≤ b.span.start

namespace Divided

variable {text : List Char} {pieces : List Piece}

/-- A token stands between two parts of the text, and no trivia stands where
it starts. -/
theorem stands (h : Divided text pieces) (before : List Char) {token : Token}
    (found : token ∈ Piece.tokens (byteLength before) pieces) :
    ∃ front word back, before ++ text = front ++ (word ++ back)
      ∧ byteLength front = token.span.start ∧ byteLength (front ++ word) = token.span.stop
      ∧ Trivia.Starts (word ++ back) := by
  induction h generalizing before with
  | done => cases found
  | @more gap word later kind pieces _ starts _ _ _ ih =>
      rcases List.mem_cons.1 found with rfl | found
      · refine ⟨before ++ gap, word, later, ?_, ?_, ?_, starts⟩
        all_goals simp [Piece.token, Piece.size]
      · have size : byteLength before + (Piece.mk gap word kind).size
            = byteLength (before ++ (gap ++ word)) := by
          simp [Piece.size]
        rw [size] at found
        have later := ih _ found
        simpa only [List.append_assoc] using later

/-- Tokens stand in order, and each takes up some text. -/
theorem ordered (h : Divided text pieces) (offset : Nat) :
    (Piece.tokens offset pieces ++ [endToken (offset + byteLength text)]).Pairwise Token.Before
      ∧ ∀ token ∈ Piece.tokens offset pieces, offset ≤ token.span.start
        ∧ token.span.start < token.span.stop ∧ token.span.stop ≤ offset + byteLength text := by
  induction h generalizing offset with
  | done => exact ⟨List.pairwise_singleton .., nofun⟩
  | @more gap word later kind pieces _ _ filled _ _ ih =>
      obtain ⟨sorted, inside⟩ := ih (offset + (Piece.mk gap word kind).size)
      rw [Scanner.endToken_piece] at sorted
      have length : byteLength (gap ++ (word ++ later))
          = (Piece.mk gap word kind).size + byteLength later := by
        simp [Piece.size, Nat.add_assoc]
      have some_byte : 0 < byteLength word :=
        Nat.lt_of_lt_of_le (List.length_pos_iff.2 filled) (Text.length_le_byteLength word)
      refine ⟨List.pairwise_cons.2 ⟨fun token found => ?_, sorted⟩, fun token found => ?_⟩
      · rcases List.mem_append.1 found with found | found
        · exact (inside token found).1
        · rw [List.mem_singleton.1 found, length]
          simp only [Token.Before, Piece.token, endToken]
          omega
      · rw [length]
        rcases List.mem_cons.1 found with rfl | found
        · simp only [Piece.token, Piece.size]
          omega
        · have := inside token found
          omega

end Divided

section Tokens

variable {source : String} {tokens : List Token}

theorem ordered_of_tokenize (h : tokenize source = .ok tokens) : tokens.Pairwise Token.Before := by
  obtain ⟨pieces, divided, rfl⟩ := divided_of_tokenize h
  have sorted := (divided.ordered 0).1
  rwa [Nat.zero_add] at sorted

/-- A token takes up some text, the end of the input apart. -/
theorem filled_of_tokenize (h : tokenize source = .ok tokens) {token : Token}
    (found : token ∈ tokens) : token.kind ≠ .eof ∧ token.span.start < token.span.stop
      ∨ token = endToken (byteLength source.toList) := by
  obtain ⟨pieces, divided, rfl⟩ := divided_of_tokenize h
  rcases List.mem_append.1 found with found | found
  · refine Or.inl ⟨fun eof => ?_, ((divided.ordered 0).2 token found).2.1⟩
    exact divided.ne_eof (eof ▸ Piece.mem_kinds found)
  · exact Or.inr (List.mem_singleton.1 found)

theorem boundaries_of_tokenize (h : tokenize source = .ok tokens) {token : Token}
    (found : token ∈ tokens) : Text.Boundary source.toList token.span.start
      ∧ Text.Boundary source.toList token.span.stop := by
  obtain ⟨pieces, divided, rfl⟩ := divided_of_tokenize h
  rcases List.mem_append.1 found with found | found
  · obtain ⟨front, word, back, text, start, stop, -⟩ := divided.stands [] found
    refine ⟨⟨front, word ++ back, text, start⟩, ⟨front ++ word, back, ?_, stop⟩⟩
    rw [List.append_assoc]
    exact text
  · have last : Text.Boundary source.toList (byteLength source.toList) :=
      ⟨source.toList, [], (List.append_nil _).symm, rfl⟩
    rw [List.mem_singleton.1 found]
    exact ⟨last, last⟩

/-- No trivia stands where a token starts, nor at the end. -/
theorem starts_of_tokenize (h : tokenize source = .ok tokens) {token : Token}
    (found : token ∈ tokens) : ∃ front back, source.toList = front ++ back
      ∧ byteLength front = token.span.start ∧ Trivia.Starts back := by
  obtain ⟨pieces, divided, rfl⟩ := divided_of_tokenize h
  rcases List.mem_append.1 found with found | found
  · obtain ⟨front, word, back, text, start, -, starts⟩ := divided.stands [] found
    exact ⟨front, word ++ back, text, start, starts⟩
  · rw [List.mem_singleton.1 found]
    refine ⟨source.toList, [], (List.append_nil _).symm, rfl, nofun, ?_, ?_⟩
    all_goals simp

theorem before_of_lt (h : tokenize source = .ok tokens) {i j : Nat} {a b : Token}
    (ha : tokens[i]? = some a) (hb : tokens[j]? = some b) (lt : i < j) : a.Before b := by
  obtain ⟨hi, rfl⟩ := List.getElem?_eq_some_iff.1 ha
  obtain ⟨hj, rfl⟩ := List.getElem?_eq_some_iff.1 hb
  exact List.pairwise_iff_getElem.1 (ordered_of_tokenize h) i j hi hj lt

/-- A token starts no later than it or another behind it stops. -/
theorem start_le_stop (h : tokenize source = .ok tokens) {i j : Nat} {a b : Token}
    (ha : tokens[i]? = some a) (hb : tokens[j]? = some b) (le : i ≤ j) :
    a.span.start ≤ b.span.stop := by
  have width {token : Token} (found : token ∈ tokens) : token.span.start ≤ token.span.stop := by
    rcases filled_of_tokenize h found with ⟨-, filled⟩ | rfl
    · exact Nat.le_of_lt filled
    · exact Nat.le_refl _
  have first := width (List.mem_of_getElem? ha)
  rcases Nat.lt_or_eq_of_le le with lt | rfl
  · exact Nat.le_trans first (Nat.le_trans (before_of_lt h ha hb lt)
      (width (List.mem_of_getElem? hb)))
  · rw [ha] at hb
    exact Option.some.inj hb ▸ first

/-- A token stops before another behind it stops, the end of the input
apart. -/
theorem stop_lt_stop (h : tokenize source = .ok tokens) {i j : Nat} {a b : Token}
    (ha : tokens[i]? = some a) (hb : tokens[j]? = some b) (lt : i < j) (inner : b.kind ≠ .eof) :
    a.span.stop < b.span.stop := by
  rcases filled_of_tokenize h (List.mem_of_getElem? hb) with ⟨-, filled⟩ | last
  · exact Nat.lt_of_le_of_lt (before_of_lt h ha hb lt) filled
  · exact absurd (congrArg Token.kind last) inner

end Tokens

-- ============================================================= steps

/-- Blanks and closed comments up to the end of the text, where a comment in
the last line may go without its line break. -/
def Trivia.Closing (gap : List Char) : Prop :=
  Filler gap ∨ ∃ closed body, gap = closed ++ '-' :: '-' :: body ∧ Filler closed ∧ '\n' ∉ body

/-- Where the last of some stretches of text stops, or where they start. -/
theorem lastStop_cons {α : Type} (stop : α → Nat) (a : α) (later : List α) (start : Nat) :
    ((a :: later).getLast?.map stop).getD start = (later.getLast?.map stop).getD (stop a) := by
  rw [List.getLast?_cons, Option.map_some, Option.getD_some]
  cases later.getLast? <;> rfl

namespace Scanner

/-- Steps from `s` find these tokens before they come to `last`. -/
inductive Reaches : Scanner → List Token → Scanner → Prop
  | here (s : Scanner) : Reaches s [] s
  | step {s next last : Scanner} {kind : Kind} {span : Span} {tokens : List Token}
    (found : s.step = (⟨.ok kind, span⟩, next)) (inner : kind ≠ .eof)
    (later : Reaches next tokens last) : Reaches s (⟨kind, span⟩ :: tokens) last

/-- A step passes trivia and finds the end of the input, or it passes filler
and then some text, which is a token or a fault; what stands there is no
trivia, or it is a comment that does not close. -/
theorem step_cases (s : Scanner) :
    (Trivia.Closing s.rest ∧ s.step
        = (⟨.ok .eof, (endToken (s.offset + byteLength s.rest)).span⟩,
          ⟨s.offset + byteLength s.rest, []⟩))
      ∨ ∃ gap word later found, s.rest = gap ++ (word ++ later) ∧ Filler gap ∧ word ≠ []
        ∧ (Trivia.Starts (word ++ later)
          ∨ ∃ body, word ++ later = '/' :: '*' :: body ∧ ¬['*', '/'] <:+: body)
        ∧ found ≠ .ok .eof ∧ s.step
          = (⟨found, ⟨s.offset + byteLength gap, s.offset + byteLength gap + byteLength word⟩⟩,
            ⟨s.offset + byteLength gap + byteLength word, later⟩) := by
  obtain ⟨offset, text⟩ := s
  obtain ⟨gap, rest, rfl, filler, next⟩ := Trivia.exists_filler text
  have passed : Trivia.skip 0 (gap ++ rest) = Trivia.skip gap.length rest := by
    rw [Trivia.skip_filler filler, Nat.zero_add]
  cases next with
  | token starts =>
      have skipped := passed.trans (Trivia.skip_starts starts _)
      by_cases ended : rest = []
      · subst ended
        refine Or.inl ⟨?_, step_end ?_ offset⟩
        · rw [List.append_nil]
          exact Or.inl filler
        · rw [List.append_nil] at skipped ⊢
          exact skipped
      · obtain ⟨word, later, rfl, filled, width⟩ := Lexeme.word_of_scan ended
        refine Or.inr ⟨gap, word, later, (Lexeme.scan (word ++ later)).found, rfl, filler, filled,
          Or.inl starts, ?_, ?_⟩
        · exact fun eof => (Lexeme.reads_scan ended _ eof).2 rfl
        · rw [step_behind skipped, ← width, List.take_left, List.drop_left]
  | @line body inside =>
      have skipped := passed.trans (Trivia.skipLine_open inside _)
      refine Or.inl ⟨Or.inr ⟨gap, body, rfl, filler, inside⟩, step_end ?_ offset⟩
      rw [skipped, List.length_append, List.length_cons, List.length_cons]
      congr 1
      omega
  | @block body inside =>
      have skipped := passed.trans (Trivia.skipBlock_open inside _ _)
      refine Or.inr ⟨gap, '/' :: '*' :: body, [], .error .unterminatedComment, ?_, filler,
        List.cons_ne_nil _ _, Or.inr ⟨body, List.append_nil _, inside⟩, nofun, ?_⟩
      · rw [List.append_nil]
      · simp only [step, skipped, drop, List.take_left, List.take_length, List.drop_length,
          Text.byteLength_append, Nat.add_assoc]

/-- A step passes some text and stops behind what it finds. -/
theorem passed_of_step {s next : Scanner} {found : Step} (h : s.step = (found, next)) :
    next.offset = found.span.stop
      ∧ ∃ front, s.rest = front ++ next.rest ∧ next.offset = s.offset + byteLength front := by
  rcases step_cases s with ⟨-, hstep⟩ | ⟨gap, word, later, kind, hrest, -, -, -, -, hstep⟩
  · rw [hstep] at h
    cases h
    exact ⟨rfl, s.rest, (List.append_nil _).symm, rfl⟩
  · rw [hstep] at h
    cases h
    refine ⟨rfl, gap ++ word, ?_, ?_⟩
    · rw [List.append_assoc]
      exact hrest
    · rw [Text.byteLength_append, Nat.add_assoc]

namespace Reaches

variable {s last : Scanner} {tokens : List Token}

theorem ne_eof (h : Reaches s tokens last) : ∀ token ∈ tokens, token.kind ≠ .eof := by
  induction h with
  | here => exact nofun
  | step _ inner _ ih => exact List.forall_mem_cons.2 ⟨inner, ih⟩

theorem steps (h : Reaches s tokens last) (count : Nat) :
    s.steps (tokens.length + count)
      = tokens.map (fun token => ⟨.ok token.kind, token.span⟩) ++ last.steps count := by
  induction h with
  | here s => rw [List.length_nil, Nat.zero_add, List.map_nil, List.nil_append]
  | step found _ _ ih =>
      rw [List.length_cons, Nat.add_right_comm, Scanner.steps, found]
      simp only [ih, List.map_cons, List.cons_append]

/-- The last token stops where the scanner stands. -/
theorem offset (h : Reaches s tokens last) :
    last.offset = (tokens.getLast?.map (·.span.stop)).getD s.offset := by
  induction h with
  | here s => rfl
  | @step s next last kind span tokens found _ _ ih =>
      have stop : next.offset = span.stop := (passed_of_step found).1
      rw [ih, lastStop_cons, stop]

theorem text (h : Reaches s tokens last) :
    ∃ front, s.rest = front ++ last.rest ∧ last.offset = s.offset + byteLength front := by
  induction h with
  | here s => exact ⟨[], rfl, rfl⟩
  | step found _ _ ih =>
      obtain ⟨-, front, hfront, offset⟩ := passed_of_step found
      obtain ⟨back, hback, offset'⟩ := ih
      refine ⟨front ++ back, ?_, ?_⟩
      · rw [List.append_assoc, ← hback, hfront]
      · rw [offset', offset, Text.byteLength_append, Nat.add_assoc]

end Reaches

/-- A text that does not divide into tokens has a fault behind some. -/
theorem reaches_of_fault {count : Nat} {s : Scanner} {fault : LexicalFault} {span : Span}
    (h : s.tokens count = .error (fault, span)) :
    ∃ tokens last next, Reaches s tokens last ∧ last.step = (⟨.error fault, span⟩, next) := by
  induction count generalizing s with
  | zero => cases h
  | succ count ih =>
      obtain ⟨⟨found, place⟩, next, hstep⟩ : ∃ found next, s.step = (found, next) := ⟨_, _, rfl⟩
      cases found with
      | error fault' =>
          rw [Scanner.tokens, hstep] at h
          cases h
          exact ⟨[], s, next, .here s, hstep⟩
      | ok kind =>
          by_cases inner : kind = .eof
          · rw [Scanner.tokens, hstep, inner] at h
            cases h
          · rw [tokens_succ inner hstep] at h
            split at h
            next => cases h
            next fault' hlater =>
              cases h
              obtain ⟨tokens, last, next', reaches, hlast⟩ := ih hlater
              exact ⟨_, last, next', .step hstep inner reaches, hlast⟩

/-- A fault takes up text behind filler that goes as far as it can: what
follows is no trivia, or it is a comment that does not close. -/
theorem text_of_fault {s next : Scanner} {fault : LexicalFault} {span : Span}
    (h : s.step = (⟨.error fault, span⟩, next)) :
    ∃ gap word back, s.rest = gap ++ (word ++ back) ∧ Filler gap ∧ word ≠ []
      ∧ (Trivia.Starts (word ++ back)
        ∨ ∃ body, word ++ back = '/' :: '*' :: body ∧ ¬['*', '/'] <:+: body)
      ∧ span = ⟨s.offset + byteLength gap, s.offset + byteLength gap + byteLength word⟩ := by
  rcases step_cases s with ⟨-, hstep⟩ | ⟨gap, word, later, found, hrest, filler, filled, ends, -,
    hstep⟩
  · rw [hstep] at h
    cases h
  · rw [hstep] at h
    cases h
    exact ⟨gap, word, later, hrest, filler, filled, ends, rfl⟩

end Scanner

end SqlSelect
