/-
Dividing a text into tokens.

A `Scanner` is a place in a text: the byte offset reached and the text
from there on. Each `step` skips trivia and reads one token, or refuses a
piece of text and goes on behind it. The tokens of a text end with the end
of the input, which a scanner that has reached it yields again and again.
-/
import SqlSelect.Text.Lowercase
import SqlSelect.Token.Number
import SqlSelect.Token.Quotes
import SqlSelect.Token.Trivia

namespace SqlSelect

open Text (isDigit byteLength)

-- ======================================================= one token

namespace Lexeme

/-- The symbol at the start of a text, the longest one, and its length. -/
def symbol? : List Char → Option (Symbol × Nat)
  | '<' :: '=' :: _ => some (.ltEq, 2)
  | '<' :: '>' :: _ => some (.notEq, 2)
  | '>' :: '=' :: _ => some (.gtEq, 2)
  | '!' :: '=' :: _ => some (.notEq, 2)
  | '|' :: '|' :: _ => some (.concat, 2)
  | ':' :: ':' :: _ => some (.doubleColon, 2)
  | '<' :: _ => some (.lt, 1)
  | '>' :: _ => some (.gt, 1)
  | '=' :: _ => some (.eq, 1)
  | '+' :: _ => some (.plus, 1)
  | '-' :: _ => some (.minus, 1)
  | '*' :: _ => some (.star, 1)
  | '/' :: _ => some (.slash, 1)
  | '%' :: _ => some (.percent, 1)
  | '^' :: _ => some (.caret, 1)
  | '(' :: _ => some (.leftParen, 1)
  | ')' :: _ => some (.rightParen, 1)
  | ',' :: _ => some (.comma, 1)
  | ';' :: _ => some (.semicolon, 1)
  | '.' :: _ => some (.dot, 1)
  | _ => none

/-- Whether a number starts with this character: a digit, or a point before
a digit. -/
def startsNumber (c : Char) (later : List Char) : Bool :=
  isDigit c || (c == '.' && later.head?.any isDigit)

/-- Whether a bare word can start with the character. -/
def startsWord (c : Char) : Bool := Text.isAlphabetic c || c == '_'

/-- Whether a bare word can go on with the character. -/
def continuesWord (c : Char) : Bool :=
  Text.isAlphabetic c || Text.isNumeric c || c == '_' || c == '$'

/-- Reads a positional parameter, given what follows its dollar sign. -/
def scanParameter (later : List Char) : Lexeme :=
  let digits := later.takeWhile isDigit
  .ok (.parameter (String.ofList ('$' :: digits))) (digits.length + 1)

/-- Reads a bare word and folds it to lower case. -/
def scanWord (cs : List Char) : Lexeme :=
  let word := cs.takeWhile continuesWord
  .ok (.word (String.ofList (Text.lowercase word))) word.length

/-- Reads one token from a text that starts with no trivia. -/
def scan : List Char → Lexeme
  | [] => .ok .eof 0
  | c :: later =>
    if startsNumber c later then Numeral.scan (c :: later)
    else match symbol? (c :: later) with
      | some (symbol, length) => .ok (.symbol symbol) length
      | none =>
        if c = '\'' then Quotes.scanString later
        else if c = '"' then Quotes.scanName later
        else if c = '$' ∧ later.head?.any isDigit then scanParameter later
        else if startsWord c then scanWord (c :: later)
        else .fault (.unexpectedCharacter c) 1

end Lexeme

-- ============================================== steps of a scanner

/-- A place in a text: the bytes before it, and the text from there on. -/
structure Scanner where
  offset : Nat
  rest : List Char
  deriving DecidableEq

/-- What one step finds: a token or a fault, and its place. -/
structure Step where
  found : Except LexicalFault Kind
  span : Span

namespace Scanner

/-- The start of a text. -/
def start (source : List Char) : Scanner := ⟨0, source⟩

/-- The place behind so many characters. -/
def drop (s : Scanner) (count : Nat) : Scanner :=
  ⟨s.offset + byteLength (s.rest.take count), s.rest.drop count⟩

/-- Skips trivia and reads one token. -/
def step (s : Scanner) : Step × Scanner :=
  match Trivia.skip 0 s.rest with
  | .unclosed count =>
    let stop := s.drop s.rest.length
    (⟨.error .unterminatedComment, ⟨(s.drop count).offset, stop.offset⟩⟩, stop)
  | .token count =>
    let start := s.drop count
    let lexeme := Lexeme.scan start.rest
    let stop := start.drop lexeme.length
    (⟨lexeme.found, ⟨start.offset, stop.offset⟩⟩, stop)

/-- What `count` steps find, faults and ends of input included. -/
def steps : Nat → Scanner → List Step
  | 0, _ => []
  | count + 1, s =>
    let (found, next) := s.step
    found :: next.steps count

/-- The tokens from here to the end of the input, or the first fault and
its place. `count` bounds the tokens before the end, so with none left the
end is all there is. -/
def tokens : Nat → Scanner → Except (LexicalFault × Span) (List Token)
  | 0, s => .ok [⟨.eof, ⟨s.offset, s.offset⟩⟩]
  | count + 1, s =>
    match s.step with
    | (⟨.error fault, span⟩, _) => .error (fault, span)
    | (⟨.ok .eof, span⟩, _) => .ok [⟨.eof, span⟩]
    | (⟨.ok kind, span⟩, next) =>
      match next.tokens count with
      | .ok later => .ok (⟨kind, span⟩ :: later)
      | .error fault => .error fault

end Scanner

/-- The tokens of a text, the last of which is the end of the input, or the
first lexical error. A token takes at least one character. -/
def tokenize (source : String) : Except Error (List Token) :=
  let text := source.toList
  match (Scanner.start text).tokens text.length with
  | .ok tokens => .ok tokens
  | .error (fault, span) => .error (Error.locate text (.lexical fault) span)

/-- What the first `count` steps through a text find, with every fault
located. -/
def lexSteps (source : String) (count : Nat) : List (Except Error Token) :=
  let text := source.toList
  ((Scanner.start text).steps count).map fun step =>
    match step.found with
    | .ok kind => .ok ⟨kind, step.span⟩
    | .error fault => .error (Error.locate text (.lexical fault) step.span)

end SqlSelect
