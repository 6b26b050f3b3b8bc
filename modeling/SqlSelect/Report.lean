/-
Errors for a reader: the message, the line at fault, and marks under the
text at fault.
-/
import SqlSelect.Error
import SqlSelect.Text.Lines

namespace SqlSelect

/-- The category as a reader is told of it. -/
def Category.title : Category → String
  | .lexical => "lexical error"
  | .grammar => "syntax error"
  | .validation => "validation error"

namespace Report

/-- A line that is all one character. -/
def rule (c : Char) (width : Nat) : String := String.ofList (List.replicate width c)

/-- The number of marks for a span: one for each of its characters on its
first line, at least one, and none past the line shown, which has `room`
characters from the start of the span on. -/
def markWidth (source : List Char) (span : Span) (room : Nat) : Nat :=
  let marked := match Text.slice source span.start span.stop with
    | some text => (Text.firstLine text).length
    | none => 0
  min (max marked 1) (max room 1)

/-- The line at fault and the marks under it. -/
def excerpt (e : Error) (source line : List Char) : String :=
  let gutter := toString e.position.line
  let indent := e.position.column - 1
  let width := markWidth source e.span (line.length - indent)
  gutter ++ " | " ++ String.ofList line ++ "\n"
    ++ rule ' ' gutter.length ++ " | " ++ rule ' ' indent ++ rule '^' width ++ "\n"

/-- The report of an error against a text. The line is left out where the
text has none of that number. -/
def render (e : Error) (source : String) : String :=
  let text := source.toList
  let header := e.cause.category.title ++ ": " ++ e.message ++ "\n"
  match Text.lineAt? (e.position.line - 1) text with
  | some line => header ++ excerpt e text line
  | none => header

end Report

end SqlSelect
