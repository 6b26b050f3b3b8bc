/-
Type names, as the target of a cast.

Some names are made of several words. The words after the first act only
where they are bare, while the first may be quoted.
-/
import SqlSelect.Grammar.Parser

namespace SqlSelect.Grammar

variable {σ μ π ε : Type} [Cursor σ μ π ε]

/-- The word that may follow the first word of a type name. -/
def secondWord? : String → Option String
  | "double" => some "precision"
  | "character" | "char" | "bit" => some "varying"
  | _ => none

/-- Reads the second word of a type name, if one belongs to it and stands
here. -/
def typeName (first : String) : ParserOf σ ε String := do
  match secondWord? first with
  | none => return first
  | some second =>
    if (← current) = .word second then
      advance
      return first ++ " " ++ second
    else return first

/-- Reads a whole number. -/
def typeModifier : ParserOf σ ε Int64 := do
  match ← current with
  | .integer value =>
    advance
    return value
  | _ => unexpected "integer"

/-- Reads the modifiers of a type, if it has any. -/
def typeConfig : ParserOf σ ε (Option (List Int64)) := do
  if ← consume .leftParen then
    let config ← commaSeparated typeModifier
    let _ ← expect .rightParen
    return some config
  else return none

/-- The words that say whether a time has a zone, if they stand here. -/
def zone? (first second third : Kind) : Option String :=
  match first, second, third with
  | .word "with", .word "time", .word "zone" => some " with time zone"
  | .word "without", .word "time", .word "zone" => some " without time zone"
  | _, _, _ => none

/-- Reads the words about a time zone, which the types `time` and
`timestamp` take after their modifiers. -/
def zonedName (name : String) : ParserOf σ ε String := do
  if name = "time" ∨ name = "timestamp" then
    match zone? (← peek 0) (← peek 1) (← peek 2) with
    | some zone =>
      skip 3
      return name ++ zone
    | none => return name
  else return name

/-- Reads a type. -/
def dataType : ParserOf σ ε DataType := do
  match (← current).identifier? with
  | none => unexpected "type name"
  | some first =>
    advance
    let name ← typeName first
    let config ← typeConfig
    return { name := ← zonedName name, config }

end SqlSelect.Grammar
