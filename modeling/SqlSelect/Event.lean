/-
What parsing reports about itself.

A successful parse reports a summary, a broken rule is reported with its
place, and so is the one kind of attempt that the grammar can take back. A
place is a span of the text. A cursor that has no text places what it reports
by the indices of tokens, which is why an event is parametrised by its places.
-/
import SqlSelect.Error
import SqlSelect.Statement.Basic

namespace SqlSelect

/-- The size of a parsed statement. -/
structure Summary where
  tokens : Nat
  columns : Nat
  sources : Nat
  hasFilter : Bool
  hasLimit : Bool
  deriving DecidableEq

/-- The summary of a statement read from `tokens` tokens, the end of the
input included. -/
def Summary.of (tokens : Nat) (statement : Select) : Summary :=
  { tokens
    columns := (statement.columns.getD []).length
    sources := (statement.sources.getD []).length
    hasFilter := statement.filter.isSome
    hasLimit := statement.limit.isSome }

/-- How much detail a report adds. -/
inductive Level where
  | debug
  | trace
  deriving DecidableEq

/-- The level as it is written. -/
def Level.text : Level → String
  | .debug => "DEBUG"
  | .trace => "TRACE"

/-- One report. -/
inductive Event (Place : Type) where
  /-- The text is a statement. -/
  | parsed (summary : Summary)
  /-- The statement breaks a rule. -/
  | rejected (rule : Rule) (place : Place)
  /-- The parenthesis at this token does not wrap the whole list. -/
  | reparsed (position : Nat)
  deriving DecidableEq

namespace Event

/-- The level of an event. -/
def level {Place : Type} : Event Place → Level
  | .parsed _ | .rejected .. => .debug
  | .reparsed _ => .trace

/-- The wording of an event. -/
def message : Event Span → String
  | .parsed s =>
    "parsed SELECT statement tokens=" ++ toString s.tokens ++ " columns=" ++ toString s.columns
      ++ " from=" ++ toString s.sources ++ " has_where=" ++ toString s.hasFilter
      ++ " has_limit=" ++ toString s.hasLimit
  | .rejected rule place =>
    "rejected statement rule=" ++ rule.message ++ " start=" ++ toString place.start
      ++ " end=" ++ toString place.stop
  | .reparsed position =>
    "group by list is not wrapped, reparsing position=" ++ toString position

/-- The event as a line of a log. -/
def line (e : Event Span) : String := e.level.text ++ " " ++ e.message

end Event

end SqlSelect
