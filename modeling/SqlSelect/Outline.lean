/-
Outlines: the parts of a value by name, one to a line.

A record lists its fields in braces, a variant its contents in
parentheses, a list its items in brackets. Each level is indented by four
blanks, and a comma follows every part.
-/
namespace SqlSelect

/-- A value laid out by its parts. -/
inductive Outline where
  | leaf (text : String)
  | record (name : String) (fields : List (String × Outline))
  | variant (name : String) (content : Outline)
  | list (items : List Outline)

namespace Outline

/-- A value that may be absent. -/
def option : Option Outline → Outline
  | none => .leaf "None"
  | some content => .variant "Some" content

/-- A yes or no. -/
def bool (value : Bool) : Outline := .leaf (toString value)

/-- The start of a line at the given depth. -/
def newline (depth : Nat) : String := "\n" ++ String.ofList (List.replicate (4 * depth) ' ')

/-- Lines between brackets, one level deeper than the brackets. -/
def block (opening closing : String) (depth : Nat) (lines : List String) : String :=
  opening ++ String.join (lines.map fun line => newline (depth + 1) ++ line ++ ",")
    ++ newline depth ++ closing

mutual

/-- The text at the given depth. A record without fields is its name. -/
def textAt (depth : Nat) : Outline → String
  | .leaf text => text
  | .record name [] => name
  | .record name fields => block (name ++ " \x7b") "\x7d" depth (fieldLines (depth + 1) fields)
  | .variant name content => block (name ++ "(") ")" depth [content.textAt (depth + 1)]
  | .list [] => "[]"
  | .list items => block "[" "]" depth (itemLines (depth + 1) items)

/-- The fields of a record at the given depth. -/
def fieldLines (depth : Nat) : List (String × Outline) → List String
  | [] => []
  | (name, value) :: later => (name ++ ": " ++ value.textAt depth) :: fieldLines depth later

/-- The items of a list at the given depth. -/
def itemLines (depth : Nat) : List Outline → List String
  | [] => []
  | item :: later => item.textAt depth :: itemLines depth later

end

/-- The text of an outline. -/
def text (outline : Outline) : String := outline.textAt 0

end Outline

end SqlSelect
