/-
Tokens: what the grammar sees of a source text.

A `Kind` is the token with its value but without its place, a `Token` is a
kind and a span. `Kind.text` is how a token is shown in a message; it is
not a spelling that reads back, since quotes inside a value stand as they
are.
-/
import SqlSelect.Keyword
import SqlSelect.Number.Layout
import SqlSelect.Span

namespace SqlSelect

/-- Operators and punctuation. -/
inductive Symbol where
  | plus | minus | star | slash | percent | caret
  | eq | notEq | lt | ltEq | gt | gtEq
  | concat | doubleColon
  | leftParen | rightParen | comma | semicolon | dot
  deriving DecidableEq

/-- The spelling of a symbol; inequality has a second one, `!=`. -/
def Symbol.text : Symbol → String
  | .plus => "+"
  | .minus => "-"
  | .star => "*"
  | .slash => "/"
  | .percent => "%"
  | .caret => "^"
  | .eq => "="
  | .notEq => "<>"
  | .lt => "<"
  | .ltEq => "<="
  | .gt => ">"
  | .gtEq => ">="
  | .concat => "||"
  | .doubleColon => "::"
  | .leftParen => "("
  | .rightParen => ")"
  | .comma => ","
  | .semicolon => ";"
  | .dot => "."

/-- A token without its place. -/
inductive Kind where
  /-- A whole number literal. -/
  | integer (value : Int64)
  /-- A number literal with a point or an exponent. -/
  | numeric (value : Double)
  /-- A string literal, its quotes resolved. -/
  | string (value : String)
  /-- A positional parameter, with its dollar sign. -/
  | parameter (name : String)
  /-- A bare word in lower case: a keyword or a name. -/
  | word (name : String)
  /-- A name in double quotes, its quotes resolved. -/
  | quoted (name : String)
  | symbol (mark : Symbol)
  /-- The end of the input. -/
  | eof
  deriving DecidableEq

namespace Kind

/-- The token as a message shows it. -/
def text : Kind → String
  | .integer value => toString value.toInt
  | .numeric value => value.text .plain
  | .string value => "'" ++ value ++ "'"
  | .parameter name => name
  | .word name => name
  | .quoted name => "\"" ++ name ++ "\""
  | .symbol mark => mark.text
  | .eof => "end of input"

/-- The keyword that a bare word spells. A quoted name spells none. -/
def keyword? : Kind → Option Keyword
  | .word name => Keyword.ofWord? name
  | _ => none

/-- The name that a token can stand for: a quoted name, or a bare word that
no reserved keyword spells. -/
def identifier? : Kind → Option String
  | .quoted name => some name
  | .word name =>
    if (Keyword.ofWord? name).any Keyword.isReserved then none else some name
  | _ => none

/-- The bare word or quoted name of a token, reserved or not. -/
def anyName? : Kind → Option String
  | .quoted name => some name
  | .word name => some name
  | _ => none

end Kind

/-- A token and the place of its spelling. -/
structure Token where
  kind : Kind
  span : Span
  deriving DecidableEq

end SqlSelect
