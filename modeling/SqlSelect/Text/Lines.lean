/-
The lines of a text as a reader sees them.

A line feed ends a line and belongs to none; so does a carriage return
directly before it. A text that ends in a line feed has no further, empty
line after it.
-/
namespace SqlSelect.Text

/-- The line's characters up to its line feed, and what follows the line
feed; no text follows a line that none ends. -/
def splitLine : List Char → List Char × Option (List Char)
  | [] => ([], none)
  | c :: later =>
    if c = '\n' then ([], some later)
    else
      let (line, rest) := splitLine later
      (c :: line, rest)

/-- Drops a carriage return at the end. -/
def dropReturn (line : List Char) : List Char :=
  if line.getLast? = some '\r' then line.dropLast else line

/-- The characters of the first line, without what ends it. -/
def firstLine (cs : List Char) : List Char :=
  match splitLine cs with
  | (line, none) => line
  | (line, some _) => dropReturn line

/-- The line with the given number, counted from zero. -/
def lineAt? : Nat → List Char → Option (List Char)
  | _, [] => none
  | 0, cs => some (firstLine cs)
  | n + 1, cs => (splitLine cs).2.bind (lineAt? n)

end SqlSelect.Text
