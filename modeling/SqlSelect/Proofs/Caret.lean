/-
What a report shows of an error.

An error starts at a token, at text that is none, or at the end, so that no
blank stands there. The line that its position names is therefore the line in
the text that it starts in, and the carets stand under it from there on. The
exception is an error at the end of a text that ends with a line feed or is
empty: the position names a line behind the last one, and nothing is shown
but the message.
-/
import SqlSelect.Proofs.ErrorPlace
import SqlSelect.Proofs.Lines

namespace SqlSelect

open Text (byteLength isBlank)

-- ======================================================= where it starts

/-- No blank stands where an error starts. -/
theorem plain_of_parse {source : String} {e : Error} (h : parse source = .error e) :
    ∃ front back, source.toList = front ++ back ∧ byteLength front = e.span.start
      ∧ ∀ c ∈ back.head?, isBlank c = false := by
  cases htokens : tokenize source with
  | error e' =>
      rw [parse, parseReporting_of_fault htokens] at h
      cases h
      obtain ⟨⟨tokens, follows⟩, -⟩ := follows_of_tokenize htokens
      obtain ⟨front, gap, rest, text, -, -, ends, start⟩ := follows.trivia
      refine ⟨front ++ gap, rest, ?_, ?_, ?_⟩
      · rw [text, List.append_assoc]
      · rw [Text.byteLength_append, start]
      · rcases ends with starts | ⟨body, rfl, -⟩
        · exact starts.plain
        · rintro _ ⟨⟩
          decide
  | ok tokens =>
      obtain ⟨fault, after, -, -, -, a, b, ha, -, span⟩ := fault_of_parse htokens h
      obtain ⟨front, back, text, start, starts⟩ :=
        starts_of_tokenize htokens (List.mem_of_getElem? ha)
      exact ⟨front, back, text, by rw [start, span], starts.plain⟩

/-- The error is at the end of a text that has no line there. -/
def Error.BehindLines (e : Error) (text : List Char) : Prop :=
  e.span.start = byteLength text ∧ Text.LineStart text

-- ============================================================= reports

namespace Report

/-- The first line of a report. -/
def header (e : Error) : String := e.cause.category.title ++ ": " ++ e.message ++ "\n"

theorem render_none {e : Error} {source : String}
    (h : Text.lineAt? (e.position.line - 1) source.toList = none) :
    render e source = header e := by
  unfold render
  simp only [h]
  rfl

theorem render_some {e : Error} {source : String} {line : List Char}
    (h : Text.lineAt? (e.position.line - 1) source.toList = some line) :
    render e source = header e ++ excerpt e source.toList line := by
  unfold render
  simp only [h]
  rfl

/-- There is at least one caret. -/
theorem markWidth_pos (source : List Char) (span : Span) (room : Nat) :
    0 < markWidth source span room := by
  unfold markWidth
  simp only
  omega

/-- A line behind its number, and below it carets behind an indent. -/
def underlined (number : Nat) (line : List Char) (indent carets : Nat) : String :=
  toString number ++ " | " ++ String.ofList line ++ "\n"
    ++ rule ' ' (toString number).length ++ " | " ++ rule ' ' indent ++ rule '^' carets ++ "\n"

/-- The report shows the line that the position names, and carets under it
from the character where the error starts. -/
def ShowsCaret (e : Error) (source : String) : Prop :=
  ∃ before head tail ending carets, source.toList = before ++ (head ++ tail ++ ending)
    ∧ Text.LineStart before ∧ '\n' ∉ head ++ tail ∧ Text.LineEnd (head ++ tail) ending
    ∧ e.position = ⟨before.count '\n' + 1, head.length + 1⟩
    ∧ e.span.start = byteLength (before ++ head) ∧ 0 < carets
    ∧ render e source
      = header e ++ underlined e.position.line (head ++ tail) (e.position.column - 1) carets

/-- A report with a line is more than the message. -/
theorem ShowsCaret.ne_header {e : Error} {source : String} (h : ShowsCaret e source) :
    render e source ≠ header e := by
  obtain ⟨before, head, tail, ending, carets, -, -, -, -, -, -, -, shown⟩ := h
  intro same
  have length := congrArg String.length (shown.symm.trans same)
  have bar : " | ".length = 3 := rfl
  simp only [underlined, String.length_append, bar] at length
  omega

end Report

open Report

/-- The report of a refused text shows the line at fault with carets under
it, unless the error is behind the lines of the text: then it is the message
alone. -/
theorem render_of_parse {source : String} {e : Error} (h : parse source = .error e) :
    (¬e.BehindLines source.toList → ShowsCaret e source)
      ∧ (e.BehindLines source.toList → render e source = header e) := by
  obtain ⟨front, back, text, start, plain⟩ := plain_of_parse h
  obtain ⟨before, head, rfl, lineStart, inside⟩ := Text.exists_lineStart front
  have position : e.position = ⟨before.count '\n' + 1, head.length + 1⟩ := by
    rw [position_of_parse h, text, ← start, Position.ofOffset_boundary,
      Position.behind_append lineStart inside]
  have number : Text.lineAt? (e.position.line - 1) source.toList
      = Text.lineAt? 0 (head ++ back) := by
    rw [position, text, List.append_assoc]
    exact Text.lineAt?_behind lineStart _
  by_cases ended : head ++ back = []
  · obtain ⟨rfl, rfl⟩ := List.append_eq_nil_iff.1 ended
    have behind : e.BehindLines source.toList := by
      rw [text, List.append_nil, List.append_nil]
      exact ⟨by rw [← start, List.append_nil], lineStart⟩
    refine ⟨fun apart => absurd behind apart, fun _ => ?_⟩
    exact render_none number
  · have feedless : ∀ c ∈ back.head?, c ≠ '\n' := by
      rintro c first rfl
      have blank := plain '\n' first
      cases blank
    obtain ⟨tail, ending, rfl, line, inside', lineEnd⟩ := Text.firstLine_append inside feedless
    rw [Text.lineAt?_zero ended, line] at number
    constructor
    · intro _
      refine ⟨before, head, tail, ending,
        markWidth source.toList e.span ((head ++ tail).length - (e.position.column - 1)), ?_,
        lineStart, ?_, lineEnd, position, start.symm, markWidth_pos _ _ _, render_some number⟩
      · rw [text]
        simp only [List.append_assoc]
      · exact fun found => (List.mem_append.1 found).elim inside inside'
    · rintro ⟨last, started⟩
      -- nothing stands behind the start, so the line break would be before it
      have rest : byteLength (tail ++ ending) = 0 := by
        rw [text, Text.byteLength_append, start] at last
        omega
      have none := Text.eq_nil_of_byteLength rest
      rw [none, List.append_nil] at text ended
      rw [text] at started
      cases hlast : head.getLast? with
      | none => exact absurd (List.getLast?_eq_none_iff.1 hlast) ended
      | some c =>
          have feed := started.of_append c hlast
          exact absurd (feed ▸ List.mem_of_getLast? hlast) inside

/-- A parenthesis behind the end of a statement, in a line that ends with a
carriage return and a line feed. -/
theorem render_of_parse_crlf : ∃ e, parse "select a\r\nfrom é)\r\n" = .error e
    ∧ e.position = ⟨2, 7⟩ ∧ ¬e.BehindLines "select a\r\nfrom é)\r\n".toList
    ∧ ShowsCaret e "select a\r\nfrom é)\r\n" := by
  have refused : error? "select a\r\nfrom é)\r\n"
      = some ⟨.trailing (.symbol .rightParen), ⟨17, 18⟩, ⟨2, 7⟩⟩ := by
    decide +kernel
  have h := parse_of_error? refused
  have apart : ¬Error.BehindLines ⟨.trailing (.symbol .rightParen), ⟨17, 18⟩, ⟨2, 7⟩⟩
      "select a\r\nfrom é)\r\n".toList := by
    rintro ⟨last, -⟩
    exact absurd last (by decide +kernel)
  exact ⟨_, h, rfl, apart, (render_of_parse h).1 apart⟩

/-- At the end of a text that ends with a line feed, nothing is shown. -/
theorem render_without_line : ∃ e, parse "select a from\n" = .error e
    ∧ e.position = ⟨2, 1⟩ ∧ ¬ShowsCaret e "select a from\n" := by
  have refused : error? "select a from\n"
      = some ⟨.unexpectedEof "identifier", ⟨14, 14⟩, ⟨2, 1⟩⟩ := by
    decide +kernel
  refine ⟨_, parse_of_error? refused, rfl, fun shown => shown.ne_header (render_none ?_)⟩
  decide +kernel

end SqlSelect
