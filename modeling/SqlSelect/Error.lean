/-
Why a text is refused.

A `Cause` says what is wrong, an `Error` also where. Causes fall into three
categories: the text does not divide into tokens, the tokens do not form a
statement, or they form one that breaks a rule.
-/
import SqlSelect.Token.Basic

namespace SqlSelect

/-- Why a piece of text is no token. -/
inductive LexicalFault where
  | unterminatedString
  | unterminatedQuotedName
  | unterminatedComment
  | emptyQuotedName
  /-- A number that is malformed or out of range. -/
  | invalidNumber (text : String)
  /-- A character that starts no token. -/
  | unexpectedCharacter (c : Char)
  deriving DecidableEq

/-- The rules that a statement of the right shape can still break. -/
inductive Rule where
  | derivedTableWithoutAlias
  /-- The words before `JOIN`, with `JOIN`, are none of the join types. -/
  | illegalJoinType (words : String)
  | quotedWildcard
  | parenthesizedWildcard
  | misplacedWildcard
  | subqueryNotAllowed
  | duplicateLimit
  | duplicateOffset
  /-- A row count is negative or not whole. -/
  | invalidRowCount (text : String)
  deriving DecidableEq

/-- What is wrong. -/
inductive Cause where
  | lexical (fault : LexicalFault)
  /-- A token that cannot stand here, and what could. -/
  | unexpected (expected : String) (found : Kind)
  /-- The text ends too early. -/
  | unexpectedEof (expected : String)
  /-- A token after the end of the statement. -/
  | trailing (found : Kind)
  | invalid (rule : Rule)
  deriving DecidableEq

/-- The three families of causes. -/
inductive Category where
  | lexical
  | grammar
  | validation
  deriving DecidableEq

/-- The wording of a lexical fault. -/
def LexicalFault.message : LexicalFault → String
  | .unterminatedString => "unterminated string literal"
  | .unterminatedQuotedName => "unterminated quoted identifier"
  | .unterminatedComment => "unterminated block comment"
  | .emptyQuotedName => "zero-length quoted identifier"
  | .invalidNumber text => "invalid number literal `" ++ text ++ "`"
  | .unexpectedCharacter c => "unexpected character `" ++ String.singleton c ++ "`"

/-- The wording of a broken rule. -/
def Rule.message : Rule → String
  | .derivedTableWithoutAlias => "subquery in FROM must have an alias"
  | .illegalJoinType words => "unsupported join type `" ++ words ++ "`"
  | .quotedWildcard => "quoted \"*\" cannot be used as a column reference"
  | .parenthesizedWildcard => "wildcard cannot be wrapped in parentheses"
  | .misplacedWildcard => "wildcard is only allowed as a select item or function argument"
  | .subqueryNotAllowed => "subquery is only allowed as a FROM entry"
  | .duplicateLimit => "row limit specified more than once"
  | .duplicateOffset => "OFFSET specified more than once"
  | .invalidRowCount text => "row count must be a non-negative integer, found " ++ text

namespace Cause

/-- The cause of finding a token where something else is expected; at the
end of the input there is no token to name. -/
def ofFound (expected : String) : Kind → Cause
  | .eof => .unexpectedEof expected
  | found => .unexpected expected found

/-- The family that a cause belongs to. -/
def category : Cause → Category
  | .lexical _ => .lexical
  | .unexpected .. | .unexpectedEof _ | .trailing _ => .grammar
  | .invalid _ => .validation

/-- The wording of a cause, without its place. -/
def message : Cause → String
  | .lexical fault => "lexical error: " ++ fault.message
  | .unexpected expected found =>
    "unexpected token: expected " ++ expected ++ ", found " ++ found.text
  | .unexpectedEof expected => "unexpected end of input: expected " ++ expected
  | .trailing found => "unexpected " ++ found.text ++ " after end of statement"
  | .invalid rule => "invalid statement: " ++ rule.message

end Cause

/-- A cause, the stretch of text at fault, and where that starts. -/
structure Error where
  cause : Cause
  span : Span
  position : Position
  deriving DecidableEq

namespace Error

/-- The error for a span of `source`, with the line and column counted out. -/
def locate (source : List Char) (cause : Cause) (span : Span) : Error :=
  ⟨cause, span, Position.ofOffset source span.start⟩

/-- The wording of an error, with the place where it starts. -/
def message (e : Error) : String :=
  e.cause.message ++ " at line " ++ toString e.position.line
    ++ ", column " ++ toString e.position.column

end Error

end SqlSelect
