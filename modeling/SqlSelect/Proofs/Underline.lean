/-
How far the carets go under a line.

A report counts the characters of the error on its own first line and keeps
within the line it shows. Both lines start where the error starts, and end at
the same line feed if the error goes beyond it, so the carets are what the
error has on the line shown: the characters whose bytes are in its span. An
error has none there only at the end of the text, where one caret stands
behind the line.
-/
import SqlSelect.Proofs.Caret

namespace SqlSelect

open Text (byteLength isBlank)

namespace Text

-- ================================================ characters in a span

/-- The number of characters that start in a span, of a text that starts at
the given offset. -/
def countIn (span : Span) : Nat → List Char → Nat
  | _, [] => 0
  | offset, c :: later =>
    (if span.start ≤ offset ∧ offset < span.stop then 1 else 0)
      + countIn span (offset + c.utf8Size) later

variable {span : Span}

theorem countIn_append (offset : Nat) (front back : List Char) :
    countIn span offset (front ++ back)
      = countIn span offset front + countIn span (offset + byteLength front) back := by
  induction front generalizing offset with
  | nil => simp [countIn]
  | cons c front ih =>
      simp only [List.cons_append, countIn, ih, byteLength_cons]
      rw [← Nat.add_assoc, ← Nat.add_assoc]

/-- None of a text that ends where the span starts is in it. -/
theorem countIn_before {offset : Nat} {cs : List Char}
    (before : offset + byteLength cs ≤ span.start) : countIn span offset cs = 0 := by
  induction cs generalizing offset with
  | nil => rfl
  | cons c cs ih =>
      have some_byte := c.utf8Size_pos
      rw [byteLength_cons] at before
      rw [countIn, if_neg (by omega), ih (by omega)]

/-- None of a text behind the span is in it. -/
theorem countIn_behind {offset : Nat} (behind : span.stop ≤ offset) (cs : List Char) :
    countIn span offset cs = 0 := by
  induction cs generalizing offset with
  | nil => rfl
  | cons c cs ih => rw [countIn, if_neg (by omega), ih (by omega)]

/-- All of a text within the span is in it. -/
theorem countIn_within {offset : Nat} {cs : List Char} (start : span.start ≤ offset)
    (stop : offset + byteLength cs ≤ span.stop) : countIn span offset cs = cs.length := by
  induction cs generalizing offset with
  | nil => rfl
  | cons c cs ih =>
      have some_byte := c.utf8Size_pos
      rw [byteLength_cons] at stop
      rw [countIn, if_pos (by omega), ih (by omega) (by omega), List.length_cons, Nat.add_comm]

/-- Of a line that a word starts in, the word has what is left of the line,
or all of itself if it ends before. -/
theorem countIn_line {before head tail ending word back : List Char}
    (text : word ++ back = tail ++ ending) (start : span.start = byteLength (before ++ head))
    (stop : span.stop = span.start + byteLength word) :
    countIn span (byteLength before) (head ++ tail) = min word.length tail.length := by
  rw [byteLength_append] at start
  rw [countIn_append, countIn_before (Nat.le_of_eq start.symm), Nat.zero_add, ← start]
  rcases List.append_eq_append_iff.1 text with ⟨more, rfl, -⟩ | ⟨more, rfl, -⟩
  · have whole : countIn span span.start word = word.length :=
      countIn_within (Nat.le_refl _) (Nat.le_of_eq stop.symm)
    rw [countIn_append, whole, countIn_behind (Nat.le_of_eq stop), List.length_append]
    omega
  · rw [byteLength_append] at stop
    rw [countIn_within (Nat.le_refl _) (by omega), List.length_append]
    omega

-- ======================================================== first lines

theorem firstLine_whole {cs : List Char} (inside : '\n' ∉ cs) : firstLine cs = cs := by
  unfold firstLine
  rw [splitLine_last inside]

/-- A word that goes beyond the line it starts in has the rest of the line
as its own first line. -/
theorem firstLine_beyond {head tail ending word back : List Char}
    (text : word ++ back = tail ++ ending) (inside : '\n' ∉ tail)
    (lineEnd : LineEnd (head ++ tail) ending) (feed : '\n' ∈ word) :
    firstLine word = tail ∧ tail.length ≤ word.length := by
  obtain ⟨own, later, rfl, inside'⟩ := List.eq_append_cons_of_mem feed
  unfold firstLine
  rw [splitLine_feed inside']
  rw [List.append_assoc, List.cons_append] at text
  have split := congrArg splitLine text
  rw [splitLine_feed inside'] at split
  generalize hline : head ++ tail = line at lineEnd
  cases lineEnd with
  | text =>
      rw [List.append_nil, splitLine_last inside] at split
      cases split
  | feed behind bare =>
      rw [splitLine_feed inside] at split
      obtain rfl : own = tail := congrArg Prod.fst split
      have plain : own.getLast? ≠ some '\r' := by
        intro last
        apply bare
        rw [← hline, List.getLast?_append, last]
        rfl
      refine ⟨if_neg plain, ?_⟩
      rw [List.length_append]
      omega
  | crlf behind =>
      have inside'' : '\n' ∉ tail ++ ['\r'] := by
        simp [inside]
      rw [List.append_cons, splitLine_feed inside''] at split
      obtain rfl : own = tail ++ ['\r'] := congrArg Prod.fst split
      have drop : dropReturn (tail ++ ['\r']) = tail := by
        simp [dropReturn]
      refine ⟨drop, ?_⟩
      simp only [List.length_append]
      omega

/-- A line terminator is blank, so none stands where something else starts. -/
theorem LineEnd.eq_nil {line ending : List Char} (h : LineEnd line ending)
    (plain : ∀ c ∈ ending.head?, isBlank c = false) : ending = [] := by
  cases h with
  | text => rfl
  | feed => cases plain '\n' rfl
  | crlf => cases plain '\r' rfl

/-- Kept within the line shown, the first line of the word is what it has of
that line, or one character. -/
theorem min_length_firstLine {head tail ending word back : List Char}
    (text : word ++ back = tail ++ ending) (inside : '\n' ∉ tail)
    (lineEnd : LineEnd (head ++ tail) ending) :
    min (max (firstLine word).length 1) (max tail.length 1)
      = max 1 (min word.length tail.length) := by
  by_cases feed : '\n' ∈ word
  · obtain ⟨same, short⟩ := firstLine_beyond text inside lineEnd feed
    rw [same]
    omega
  · rw [firstLine_whole feed]
    omega

end Text

-- ============================================================= the line

namespace Report

/-- What a report marks of an error. It shows the line that the error starts
in, with as many blanks below as the line has characters before the error,
and behind them a caret for every character of the line that is in its span,
or one if there is none. Only at the end of the text there is a caret behind
the line. -/
structure Underlines (e : Error) (source : String) (before head tail ending : List Char) :
    Prop where
  text : source.toList = before ++ (head ++ tail ++ ending)
  lineStart : Text.LineStart before
  inside : '\n' ∉ head ++ tail
  lineEnd : Text.LineEnd (head ++ tail) ending
  number : e.position.line = before.count '\n' + 1
  start : e.span.start = byteLength (before ++ head)
  shown : render e source
    = header e ++ underlined e.position.line (head ++ tail) head.length
        (max 1 (Text.countIn e.span (byteLength before) (head ++ tail)))
  within : head.length + max 1 (Text.countIn e.span (byteLength before) (head ++ tail))
      ≤ (head ++ tail).length
    ∨ e.span.start = byteLength source.toList
      ∧ Text.countIn e.span (byteLength before) (head ++ tail) = 0

end Report

open Report

/-- An error stands in its line: the text before the line has none that ends
there, and no line ends between its start and the error. -/
theorem line_of_parse {source : String} {e : Error} (h : parse source = .error e) :
    ∃ before head word back, source.toList = before ++ (head ++ (word ++ back))
      ∧ Text.LineStart before ∧ '\n' ∉ head
      ∧ e.position = ⟨before.count '\n' + 1, head.length + 1⟩
      ∧ e.span = ⟨byteLength (before ++ head), byteLength (before ++ head) + byteLength word⟩
      ∧ ∀ c ∈ (word ++ back).head?, isBlank c = false := by
  obtain ⟨first, last, ordered, -⟩ := boundaries_of_parse h
  obtain ⟨front, word, back, text, start, stop⟩ := first.split last ordered
  obtain ⟨front', back', text', start', plain⟩ := plain_of_parse h
  have same : some (front, word ++ back) = some (front', back') := by
    rw [← Text.splitAtByte_append front, ← Text.splitAtByte_append front', ← text, ← text',
      start, start']
  obtain ⟨rfl, rfl⟩ : front = front' ∧ word ++ back = back' := by
    simpa using same
  obtain ⟨before, head, rfl, lineStart, inside⟩ := Text.exists_lineStart front
  refine ⟨before, head, word, back, ?_, lineStart, inside, ?_, ?_, plain⟩
  · rw [text, List.append_assoc]
  · rw [position_of_parse h, text, ← start, Position.ofOffset_boundary,
      Position.behind_append lineStart inside]
  · rw [stop, start]

/-- The carets of a report that shows a line are those of the characters that
the error has on it, for every text that is refused. -/
theorem underlines_of_parse {source : String} {e : Error} {line : List Char}
    (h : parse source = .error e)
    (hline : Text.lineAt? (e.position.line - 1) source.toList = some line) :
    ∃ before head tail ending, line = head ++ tail
      ∧ Underlines e source before head tail ending := by
  obtain ⟨before, head, word, back, text, lineStart, inside, position, span, plain⟩ :=
    line_of_parse h
  have number : Text.lineAt? 0 (head ++ (word ++ back)) = some line := by
    rw [← hline, position, text]
    exact (Text.lineAt?_behind lineStart _).symm
  have filled : head ++ (word ++ back) ≠ [] := by
    intro none
    rw [none] at number
    cases number
  have feedless : ∀ c ∈ (word ++ back).head?, c ≠ '\n' := by
    rintro c first rfl
    have blank := plain '\n' first
    cases blank
  obtain ⟨tail, ending, split, first, inside', lineEnd⟩ := Text.firstLine_append inside feedless
  rw [Text.lineAt?_zero filled, first] at number
  obtain rfl : head ++ tail = line := Option.some.inj number
  have start : e.span.start = byteLength (before ++ head) := congrArg Span.start span
  have stop : e.span.stop = e.span.start + byteLength word := by
    rw [span]
  have count : Text.countIn e.span (byteLength before) (head ++ tail)
      = min word.length tail.length :=
    Text.countIn_line split start stop
  have slice : Text.slice source.toList e.span.start e.span.stop = some word := by
    rw [stop, start, text, ← List.append_assoc]
    exact Text.slice_append _ _ _
  have room : (head ++ tail).length - head.length = tail.length := by
    rw [List.length_append]
    omega
  have carets : markWidth source.toList e.span ((head ++ tail).length - head.length)
      = max 1 (min word.length tail.length) := by
    unfold markWidth
    rw [slice, room]
    exact Text.min_length_firstLine split inside' lineEnd
  refine ⟨before, head, tail, ending, rfl, ?_, lineStart, ?_, lineEnd, ?_, start, ?_, ?_⟩
  · rw [text, split]
    simp only [List.append_assoc]
  · exact fun found => (List.mem_append.1 found).elim inside inside'
  · rw [position]
  · have column : e.position.column - 1 = head.length := by
      rw [position]
      rfl
    rw [count, ← carets, render_some hline]
    unfold excerpt underlined
    rw [column]
  · rw [count, List.length_append]
    by_cases atEnd : tail = []
    · right
      subst atEnd
      rw [split, List.nil_append] at plain
      obtain rfl := lineEnd.eq_nil plain
      refine ⟨?_, Nat.min_zero _⟩
      rw [start, text, split, List.append_nil, List.append_nil]
    · left
      have some_char : 0 < tail.length := List.length_pos_iff.2 atEnd
      omega

/-- A derived table that has no alias and goes on in a second line, behind
letters of two bytes and with carriage returns before the line feeds. -/
theorem underlines_of_parse_crlf :
    ∃ e, parse "select é\r\nfrom é, (select ü\r\nfrom c)\r\n" = .error e
      ∧ e.span = ⟨20, 39⟩
      ∧ Text.lineAt? (e.position.line - 1)
          "select é\r\nfrom é, (select ü\r\nfrom c)\r\n".toList
        = some "from é, (select ü".toList
      ∧ ∃ before head tail ending, "from é, (select ü".toList = head ++ tail
        ∧ Underlines e "select é\r\nfrom é, (select ü\r\nfrom c)\r\n" before head tail ending := by
  have refused : error? "select é\r\nfrom é, (select ü\r\nfrom c)\r\n"
      = some ⟨.invalid .derivedTableWithoutAlias, ⟨20, 39⟩, ⟨2, 9⟩⟩ := by
    decide +kernel
  have line : Text.lineAt? 1 "select é\r\nfrom é, (select ü\r\nfrom c)\r\n".toList
      = some "from é, (select ü".toList := by
    decide +kernel
  have h := parse_of_error? refused
  exact ⟨_, h, rfl, line, underlines_of_parse h line⟩

end SqlSelect
