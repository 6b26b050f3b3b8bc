/-
Parsers over a list of tokens.

The grammar is written once, for every sort of `Cursor`: something that
stands in a list of tokens, shows their kinds, and marks tokens so that what
is wrong can be placed later. What a mark, a place and a fault are is up to
the cursor, and no production looks into them.

The cursor of this file, `State`, walks a bare list of kinds. It marks a
token by its index, and of a text it knows nothing. Texts are parsed with
the cursor of `Grammar/Reader.lean`, which holds the tokens with their spans.

A parser never moves past the end of the input, and it keeps its state when
it fails, so that a failed attempt can be looked into and taken back. Loops
are bounded by the number of tokens left, of which every round takes at
least one; with none left a list has no further item.
-/
import SqlSelect.Event

namespace SqlSelect.Grammar

-- ========================================================== cursors

/-- Something that stands in a list of tokens. A token is marked by a `μ`,
the place of what is wrong is a `π`, and with its cause it is an `ε`. -/
class Cursor (σ : Type) (μ π ε : outParam Type) where
  /-- The kind `ahead` tokens after the current one. Past the last token
  there is only the end of the input. -/
  kindAt : σ → Nat → Kind
  /-- The kinds of the current token and of those after it. -/
  upcoming : σ → List Kind
  /-- The number of tokens left, the end of the input included or not. -/
  left : σ → Nat
  /-- The index of the current token. -/
  index : σ → Nat
  /-- The mark of the token `ahead` tokens after the current one. -/
  markAt : σ → Nat → μ
  /-- The mark of the token before the current one. -/
  previous : σ → μ
  /-- The place from one token to another, or of one alone. -/
  between : σ → μ → μ → π
  /-- The fault with a cause and a place. -/
  fault : σ → Cause → π → ε
  /-- One token further on, the end of the input apart. -/
  step : σ → σ
  /-- Back to where the first cursor stands. -/
  back : σ → σ → σ
  /-- Whether this is an attempt that may be taken back. Broken rules are not
  reported then. -/
  trial : σ → Bool
  setTrial : Bool → σ → σ
  report : Event π → σ → σ

/-- A parser: from a cursor to a result or a fault, and the cursor after. -/
abbrev ParserOf (σ ε : Type) := EStateM ε σ

-- ======================================================== bare kinds

/-- A run of tokens, by the indices of its first and its last. -/
structure Stretch where
  first : Nat
  last : Nat
  deriving DecidableEq

/-- A cause and the tokens at fault. -/
structure Fault where
  cause : Cause
  place : Stretch
  deriving DecidableEq

/-- A cursor in a list of kinds. -/
structure State where
  /-- The index of the current token. -/
  position : Nat
  /-- The current token and those after it. -/
  rest : List Kind
  /-- Whether this is an attempt. -/
  trial : Bool
  events : List (Event Stretch)
  deriving DecidableEq

namespace State

/-- The kind `ahead` tokens after the current one. -/
def kindAt (s : State) (ahead : Nat) : Kind := s.rest.getD ahead .eof

/-- The state one token further on, the end of the input apart. -/
def advance (s : State) : State :=
  match s.rest with
  | [] | .eof :: _ => s
  | _ :: rest => { s with position := s.position + 1, rest }

/-- The state after a report. -/
def report (s : State) (event : Event Stretch) : State :=
  { s with events := s.events ++ [event] }

@[default_instance]
instance : Cursor State Nat Stretch Fault where
  kindAt := kindAt
  upcoming := rest
  left s := s.rest.length
  index := position
  markAt s ahead := s.position + ahead
  previous s := s.position - 1
  between _ first last := ⟨first, last⟩
  fault _ cause place := ⟨cause, place⟩
  step := advance
  back before s := { s with position := before.position, rest := before.rest }
  trial := trial
  setTrial trial s := { s with trial }
  report event s := s.report event

end State

/-- A parser of bare kinds. -/
abbrev Parser := ParserOf State Fault

variable {σ μ π ε α : Type} [Cursor σ μ π ε]

-- ========================================================== looking

/-- The kind `ahead` tokens after the current one. -/
def peek (ahead : Nat) : ParserOf σ ε Kind := fun s => .ok (Cursor.kindAt s ahead) s

/-- The kind of the current token. -/
def current : ParserOf σ ε Kind := peek 0

/-- The mark of the token `ahead` tokens after the current one. -/
def positionAt (ahead : Nat) : ParserOf σ ε μ := fun s => .ok (Cursor.markAt s ahead) s

/-- The mark of the current token. -/
def position : ParserOf σ ε μ := positionAt 0

/-- The mark of the token before the current one. -/
def previous : ParserOf σ ε μ := fun s => .ok (Cursor.previous s) s

/-- The number of tokens left, the end of the input included or not. -/
def tokensLeft : ParserOf σ ε Nat := fun s => .ok (Cursor.left s) s

/-- Whether the current token is the given symbol. -/
def atSymbol (symbol : Symbol) : ParserOf σ ε Bool :=
  return (← current) == .symbol symbol

/-- Whether the current token is the given keyword. -/
def atKeyword (keyword : Keyword) : ParserOf σ ε Bool :=
  return (← current).keyword? == some keyword

-- ========================================================== failing

/-- Fails at the current token, which tells the cause. -/
def failHere (cause : Kind → Cause) : ParserOf σ ε α := fun s =>
  let here := Cursor.markAt s 0
  .error (Cursor.fault s (cause (Cursor.kindAt s 0)) (Cursor.between s here here)) s

/-- Fails at the current token, where something else is expected. -/
def unexpected (expected : String) : ParserOf σ ε α := failHere (Cause.ofFound expected)

/-- Fails because the tokens from `first` to `last` break a rule, and
reports it unless this is only an attempt. -/
def reject (rule : Rule) (first last : μ) : ParserOf σ ε α := fun s =>
  let place := Cursor.between s first last
  .error (Cursor.fault s (.invalid rule) place)
    (if Cursor.trial s then s else Cursor.report (.rejected rule place) s)

-- =========================================================== moving

/-- Moves to the next token. -/
def advance : ParserOf σ ε Unit := modify Cursor.step

/-- Moves over a number of tokens. -/
def skip : Nat → ParserOf σ ε Unit
  | 0 => return ()
  | count + 1 => do
    advance
    skip count

/-- Moves over the symbol if it is the current token. -/
def consume (symbol : Symbol) : ParserOf σ ε Bool := do
  if ← atSymbol symbol then
    advance
    return true
  else return false

/-- Moves over the keyword if it is the current token. -/
def consumeKeyword (keyword : Keyword) : ParserOf σ ε Bool := do
  if ← atKeyword keyword then
    advance
    return true
  else return false

/-- Moves over the symbol, which must be the current token, and yields its
mark. -/
def expect (symbol : Symbol) : ParserOf σ ε μ := do
  let here ← position
  if ← consume symbol then return here
  else unexpected ("`" ++ symbol.text ++ "`")

/-- Moves over the keyword, which must be the current token. -/
def expectKeyword (keyword : Keyword) : ParserOf σ ε Unit := do
  if ← consumeKeyword keyword then return ()
  else unexpected keyword.spelling

/-- Reads a name. -/
def identifier : ParserOf σ ε String := do
  match (← current).identifier? with
  | some name =>
    advance
    return name
  | none => unexpected "identifier"

-- ======================================================== combining

/-- Reads what follows the keyword, if the keyword stands here. -/
def clause (keyword : Keyword) (body : ParserOf σ ε α) : ParserOf σ ε (Option α) := do
  if ← consumeKeyword keyword then return some (← body)
  else return none

/-- Reads at most `count` further items, each after a comma. -/
def moreItems (item : ParserOf σ ε α) : Nat → ParserOf σ ε (List α)
  | 0 => return []
  | count + 1 => do
    if ← consume .comma then
      let head ← item
      let tail ← moreItems item count
      return head :: tail
    else return []

/-- Reads one item or more, with commas between them. -/
def commaSeparated (item : ParserOf σ ε α) : ParserOf σ ε (List α) := do
  let head ← item
  let tail ← moreItems item (← tokensLeft)
  return head :: tail

/-- Runs an attempt: what it reads, if it succeeds. The caller goes on from
where the attempt ended, or takes it back with `rewind`. -/
def attempt (body : ParserOf σ ε α) : ParserOf σ ε (Option α) := fun s =>
  match body (Cursor.setTrial true s) with
  | .ok a s' => .ok (some a) (Cursor.setTrial (Cursor.trial s) s')
  | .error _ s' => .ok none (Cursor.setTrial (Cursor.trial s) s')

/-- Moves back to where the parser stood before. -/
def rewind (before : σ) : ParserOf σ ε Unit := modify (Cursor.back before)

end SqlSelect.Grammar
