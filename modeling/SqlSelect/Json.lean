/-
JSON values and their text.

An object keeps its members in the order in which they are listed. Text
comes on one line, or indented by two blanks a level.
-/
import SqlSelect.Number.Layout

namespace SqlSelect

/-- A JSON value. Whole and other numbers are told apart. -/
inductive Json where
  | null
  | bool (value : Bool)
  | int (value : Int)
  | real (value : Double)
  | str (value : String)
  | arr (items : List Json)
  | obj (members : List (String × Json))
  deriving Inhabited

namespace Json

/-- The member with the given key, unless its value is absent. -/
def member? (key : String) (value : Option Json) : List (String × Json) :=
  match value with
  | some value => [(key, value)]
  | none => []

/-- The value, or null where it is absent. -/
def orNull (value : Option Json) : Json := value.getD .null

/-- The two hexadecimal digits of a number below 256. -/
def hexPair (n : Nat) : List Char := [Nat.digitChar (n / 16), Nat.digitChar (n % 16)]

/-- A character inside a JSON string. Only the quote, the backslash and the
control characters below the blank are written in another way. -/
def escapeChar (c : Char) : List Char :=
  match c with
  | '"' => ['\\', '"']
  | '\\' => ['\\', '\\']
  | '\n' => ['\\', 'n']
  | '\r' => ['\\', 'r']
  | '\t' => ['\\', 't']
  | '\x08' => ['\\', 'b']
  | '\x0c' => ['\\', 'f']
  | _ => if c.toNat < 0x20 then ['\\', 'u', '0', '0'] ++ hexPair c.toNat else [c]

/-- A JSON string. -/
def quote (s : String) : String :=
  "\"" ++ String.ofList (s.toList.flatMap escapeChar) ++ "\""

mutual

/-- The text on one line, without blanks. -/
def compact : Json → String
  | .null => "null"
  | .bool value => toString value
  | .int value => toString value
  | .real value => value.text .json
  | .str value => quote value
  | .arr items => "[" ++ String.intercalate "," (compactItems items) ++ "]"
  | .obj members => "\x7b" ++ String.intercalate "," (compactMembers members) ++ "\x7d"

/-- The items of an array, each on its own. -/
def compactItems : List Json → List String
  | [] => []
  | item :: later => item.compact :: compactItems later

/-- The members of an object, each on its own. -/
def compactMembers : List (String × Json) → List String
  | [] => []
  | (key, value) :: later => (quote key ++ ":" ++ value.compact) :: compactMembers later

end

/-- The start of a line at the given depth. -/
def newline (depth : Nat) : String := "\n" ++ String.ofList (List.replicate (2 * depth) ' ')

/-- Lines between brackets, one level deeper than the brackets. Without
lines the brackets close at once. -/
def block (opening closing : String) (depth : Nat) (lines : List String) : String :=
  if lines.isEmpty then opening ++ closing
  else
    opening ++ newline (depth + 1) ++ String.intercalate ("," ++ newline (depth + 1)) lines
      ++ newline depth ++ closing

mutual

/-- The text at the given depth, an item or a member on each line. -/
def prettyAt (depth : Nat) : Json → String
  | .arr items => block "[" "]" depth (prettyItems (depth + 1) items)
  | .obj members => block "\x7b" "\x7d" depth (prettyMembers (depth + 1) members)
  | .null => "null"
  | .bool value => toString value
  | .int value => toString value
  | .real value => value.text .json
  | .str value => quote value

/-- The items of an array at the given depth. -/
def prettyItems (depth : Nat) : List Json → List String
  | [] => []
  | item :: later => item.prettyAt depth :: prettyItems depth later

/-- The members of an object at the given depth. -/
def prettyMembers (depth : Nat) : List (String × Json) → List String
  | [] => []
  | (key, value) :: later =>
    (quote key ++ ": " ++ value.prettyAt depth) :: prettyMembers depth later

end

/-- The indented text. -/
def pretty (value : Json) : String := value.prettyAt 0

end Json

end SqlSelect
