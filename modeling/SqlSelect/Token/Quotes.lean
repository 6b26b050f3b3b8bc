/-
String literals and quoted names.

Between its quotes a text stands for itself, except that a doubled quote
stands for one.
-/
import SqlSelect.Token.Lexeme

namespace SqlSelect.Quotes

/-- Reads up to the closing quote. Yields the value and the number of
characters up to and including that quote, or nothing if there is none. -/
def unquote? (quote : Char) : List Char → Option (List Char × Nat)
  | [] => none
  | [c] => if c = quote then some ([], 1) else none
  | c :: d :: later =>
    if c = quote then
      if d = quote then
        (unquote? quote later).map fun (value, count) => (quote :: value, count + 2)
      else some ([], 1)
    else (unquote? quote (d :: later)).map fun (value, count) => (c :: value, count + 1)

/-- Reads a string literal, given what follows its opening quote. -/
def scanString (later : List Char) : Lexeme :=
  match unquote? '\'' later with
  | some (value, count) => .ok (.string (String.ofList value)) (count + 1)
  | none => .fault .unterminatedString (later.length + 1)

/-- Reads a quoted name, given what follows its opening quote. A name is
not empty. -/
def scanName (later : List Char) : Lexeme :=
  match unquote? '"' later with
  | some ([], count) => .fault .emptyQuotedName (count + 1)
  | some (value, count) => .ok (.quoted (String.ofList value)) (count + 1)
  | none => .fault .unterminatedQuotedName (later.length + 1)

end SqlSelect.Quotes
