/-
Building expressions on a stack.

A step pushes an operand, or combines the expressions on top into one. The
stack lists its top first; arguments are taken in the order in which they
were pushed.
-/
import SqlSelect.Session

namespace SqlSelect

/-- One step of building. -/
inductive BuildStep where
  | push (e : Expr)
  /-- Calls with the top `count` expressions as arguments. -/
  | call (function : Callee) (count : Nat)
  /-- Makes a list of the top `count` expressions. -/
  | list (count : Nat)
  | binary (op : BinaryOp)
  | unary (op : UnaryOp)
  | cast (target : DataType)
  /-- Pushes the last expression of a select list given as text. -/
  | parse (text : String)
  /-- Asks whether the two expressions on top are built alike. -/
  | same
  /-- Shows the top as an entry of a select list. -/
  | column (aliasName : Option String)
  /-- Shows a table. -/
  | table (name : String)

/-- What a step has to say beside the stack it leaves. -/
inductive BuildNote where
  | type (target : DataType)
  | same (answer : Bool)
  | refused (error : Error)
  | column (c : Column)
  | table (entry : Source)

/-- Expressions, the last one pushed first. -/
abbrev ExprStack := List Expr

namespace ExprStack

/-- The top `count` expressions in the order in which they were pushed, and
the stack below them. -/
def take? (stack : ExprStack) (count : Nat) : Option (List Expr × ExprStack) :=
  if count ≤ stack.length then some ((stack.take count).reverse, stack.drop count) else none

/-- The stack after a step and the step's note. A step that needs more
expressions than there are is refused. -/
def step? (stack : ExprStack) : BuildStep → Option (ExprStack × Option BuildNote)
  | .push e => some (e :: stack, none)
  | .call function count =>
    (stack.take? count).map fun (args, below) => (.call function args :: below, none)
  | .list count => (stack.take? count).map fun (items, below) => (.list items :: below, none)
  | .binary op =>
    match stack with
    | right :: left :: below => some (.binary op left right :: below, none)
    | _ => none
  | .unary op =>
    match stack with
    | operand :: below => some (.unary op operand :: below, none)
    | [] => none
  | .cast target =>
    match stack with
    | operand :: below => some (.cast operand target :: below, some (.type target))
    | [] => none
  | .parse text =>
    match SqlSelect.parse ("select " ++ text) with
    | .ok statement =>
      match (statement.columns.getD []).getLast? with
      | some c => some (c.expr :: stack, none)
      | none => some (stack, none)
    | .error error => some (stack, some (.refused error))
  | .same =>
    match stack with
    | a :: b :: _ => some (stack, some (.same (b.same a)))
    | _ => none
  | .column aliasName =>
    match stack with
    | top :: _ => some (stack, some (.column ⟨top, aliasName⟩))
    | [] => none
  | .table name => some (stack, some (.table (.plain name)))

end ExprStack

end SqlSelect
