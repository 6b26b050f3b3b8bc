/-
Parsing a text.

`parse` takes a text to a statement or an error. A `Session` parses the same
text any number of times. It is the reader that the grammar runs on, and what
one parse leaves in it the next one finds there: the text is divided into
tokens anew, and the reader goes to the first of them.
-/
import SqlSelect.Grammar.Reader
import SqlSelect.Token.Lexer

namespace SqlSelect

/-- What one parse yields: a statement or an error, and its reports. -/
structure Outcome where
  result : Except Error Select
  events : List (Event Span)

/-- A text to parse, and the reader that the last parse of it left. -/
abbrev Session := Grammar.Reader

namespace Session

/-- A session that has not parsed anything. -/
def start (source : String) : Session :=
  { source, tokens := [], position := 0, eof := Grammar.Reader.ending source
    speculating := false, events := [] }

/-- Parses the text as one `SELECT` statement. -/
def parseSelect (s : Session) : Outcome × Session :=
  match tokenize s.source with
  | .error error => (⟨.error error, []⟩, s)
  | .ok tokens =>
    match Grammar.input { s with tokens, position := 0, events := [] } with
    | .ok statement after =>
      let summary := Summary.of tokens.length statement
      (⟨.ok statement, after.events ++ [.parsed summary]⟩, after)
    | .error error after => (⟨.error error, after.events⟩, after)

/-- Parses the text as one statement of any sort. -/
def parseStatement (s : Session) : Except Error Statement × Session :=
  let (outcome, next) := s.parseSelect
  (outcome.result.map .select, next)

end Session

/-- Parses a text once. -/
def parseReporting (source : String) : Outcome := (Session.start source).parseSelect.1

/-- The statement that a text spells, or why it spells none. -/
def parse (source : String) : Except Error Select := (parseReporting source).result

/-- Whether two texts parse to the same statement, or fail with the same
error at the same place. -/
def parsesAlike (a b : String) : Bool :=
  match parse a, parse b with
  | .ok s, .ok t => s.same t
  | .error e, .error f => decide (e = f)
  | _, _ => false

end SqlSelect
