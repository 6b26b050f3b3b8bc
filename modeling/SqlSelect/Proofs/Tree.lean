/-
Expressions as trees.

`Expr.children` are the expressions directly in an expression, whatever
holds them: an operand, a list, an option or an arm of a `CASE`. What
holds of an expression whenever it holds of its children holds of every
expression, and the nodes of an expression are itself and the nodes of
its children. Statements stand in the `FROM` entries of statements, with an
induction of the same kind over entries.
-/
import SqlSelect.Statement.Survey

namespace SqlSelect.Expr

/-- The expressions directly in an expression, from left to right. -/
def children : Expr → List Expr
  | .call _ args => args
  | .binary _ left right => [left, right]
  | .unary _ operand => [operand]
  | .between _ value low high => [value, low, high]
  | .cast operand _ => [operand]
  | .case operand arms otherwise =>
    operand.toList ++ arms.flatMap (fun arm => [arm.1, arm.2]) ++ otherwise.toList
  | .list items => items
  | _ => []

/-- What stands in an arm of a `CASE` is a child of it. -/
theorem mem_children_of_arm {operand otherwise : Option Expr} {arms : List (Expr × Expr)}
    {arm : Expr × Expr} (mem : arm ∈ arms) {x : Expr} (h : x ∈ [arm.1, arm.2]) :
    x ∈ (Expr.case operand arms otherwise).children :=
  List.mem_append_left _ (List.mem_append_right _ (List.mem_flatMap.2 ⟨arm, mem, h⟩))

/-- Whether the expression is the right side of an `IN`. -/
def isList : Expr → Bool
  | .list _ => true
  | _ => false

/-- Whether the expression can be in parentheses and have an operator
before or behind it. A wildcard cannot, and a list has parentheses of its
own. -/
def isOperand (e : Expr) : Bool := !e.isWildcard && !e.isList

/-- A child is smaller than what it is in. -/
theorem sizeOf_lt_of_mem_children {e x : Expr} (h : x ∈ e.children) : sizeOf x < sizeOf e := by
  have inOption : ∀ {o : Option Expr}, x ∈ o.toList → sizeOf x < sizeOf o := by
    intro o hx
    obtain rfl := Option.mem_toList.1 hx
    simp only [Option.some.sizeOf_spec]
    omega
  have inPair : ∀ {a b : Expr}, x ∈ [a, b] → x = a ∨ x = b := by
    intro a b hx
    simpa using hx
  cases e with
  | call function args =>
      have : sizeOf x < sizeOf args := List.sizeOf_lt_of_mem h
      simp only [call.sizeOf_spec]
      omega
  | list items =>
      have : sizeOf x < sizeOf items := List.sizeOf_lt_of_mem h
      simp only [list.sizeOf_spec]
      omega
  | binary op left right =>
      simp only [binary.sizeOf_spec]
      rcases inPair h with rfl | rfl <;> omega
  | unary op operand =>
      obtain rfl := List.mem_singleton.1 h
      simp only [unary.sizeOf_spec]
      omega
  | cast operand target =>
      obtain rfl := List.mem_singleton.1 h
      simp only [cast.sizeOf_spec]
      omega
  | between negated value low high =>
      simp only [between.sizeOf_spec]
      simp only [children, List.mem_cons, List.not_mem_nil, or_false] at h
      rcases h with rfl | rfl | rfl <;> omega
  | case operand arms otherwise =>
      simp only [case.sizeOf_spec]
      rcases List.mem_append.1 h with h | h
      · rcases List.mem_append.1 h with h | h
        · have := inOption h
          omega
        · obtain ⟨arm, harm, hx⟩ := List.mem_flatMap.1 h
          have := List.sizeOf_lt_of_mem harm
          obtain ⟨condition, value⟩ := arm
          simp only [Prod.mk.sizeOf_spec] at this
          rcases inPair hx with rfl | rfl <;> omega
      · have := inOption h
        omega
  | _ => cases h

/-- What holds whenever it holds of the children holds of every
expression. -/
theorem childInduction {P : Expr → Prop} (step : ∀ e, (∀ x ∈ e.children, P x) → P e)
    (e : Expr) : P e :=
  step e fun x _ => childInduction step x
termination_by sizeOf e
decreasing_by exact sizeOf_lt_of_mem_children ‹_›

-- ============================================================ nodes

theorem nodesList_eq (es : List Expr) : nodesList es = es.flatMap nodes := by
  induction es with
  | nil => rfl
  | cons e es ih => rw [nodesList, ih, List.flatMap_cons]

theorem nodesOption_eq (o : Option Expr) : nodesOption o = o.toList.flatMap nodes := by
  cases o with
  | none => rfl
  | some e => simp [nodesOption]

theorem nodesArms_eq (arms : List (Expr × Expr)) :
    nodesArms arms = (arms.flatMap fun arm => [arm.1, arm.2]).flatMap nodes := by
  induction arms with
  | nil => rfl
  | cons arm arms ih =>
      obtain ⟨condition, value⟩ := arm
      rw [nodesArms, ih]
      simp

/-- The nodes of an expression are itself and the nodes of its children. -/
theorem nodes_eq (e : Expr) : e.nodes = e :: e.children.flatMap nodes := by
  cases e with
  | call function args => rw [nodes, nodesList_eq]; rfl
  | list items => rw [nodes, nodesList_eq]; rfl
  | case operand arms otherwise =>
      rw [nodes, nodesOption_eq, nodesArms_eq, nodesOption_eq]
      simp [children]
  | _ => simp [nodes, children]

theorem mem_nodes_self (e : Expr) : e ∈ e.nodes := by
  rw [nodes_eq]
  exact List.mem_cons_self

/-- A node is the expression itself or a node of one of its children. -/
theorem mem_nodes_iff {e x : Expr} : x ∈ e.nodes ↔ x = e ∨ ∃ c ∈ e.children, x ∈ c.nodes := by
  rw [nodes_eq, List.mem_cons, List.mem_flatMap]

/-- What holds of a node and of the nodes of its children holds of its
nodes. -/
theorem forall_nodes {P : Expr → Prop} {e : Expr} (node : P e)
    (children : ∀ c ∈ e.children, ∀ x ∈ c.nodes, P x) : ∀ x ∈ e.nodes, P x := by
  intro x hx
  rcases mem_nodes_iff.1 hx with rfl | ⟨c, hc, hx⟩
  · exact node
  · exact children c hc x hx

end SqlSelect.Expr

-- ========================================================= entries

namespace SqlSelect

/-- An entry of the `FROM` list is smaller than the statement. -/
theorem Select.sizeOf_lt_of_mem_sources {s : Select} {entries : List Source}
    (h : s.sources = some entries) {x : Source} (mem : x ∈ entries) : sizeOf x < sizeOf s := by
  have small := List.sizeOf_lt_of_mem mem
  cases s
  cases h
  simp only [Select.mk.sizeOf_spec, Option.some.sizeOf_spec]
  omega

/-- What holds of an entry of the `FROM` list whenever it holds of the
entries of the statement in it, if there is one, holds of every entry. -/
theorem Source.entryInduction {P : Source → Prop}
    (table : ∀ name schema aliasName join, P (.table name schema aliasName join))
    (derived : ∀ (statement : Select) aliasName join,
      (∀ entries, statement.sources = some entries → ∀ x ∈ entries, P x) →
        P (.derived statement aliasName join))
    (entry : Source) : P entry :=
  match entry with
  | .table name schema aliasName join => table name schema aliasName join
  | .derived statement aliasName join =>
    derived statement aliasName join fun _ _ x _ => entryInduction table derived x
termination_by sizeOf entry
decreasing_by
  have := Select.sizeOf_lt_of_mem_sources ‹statement.sources = some _› ‹x ∈ _›
  simp only [Source.derived.sizeOf_spec]
  omega

end SqlSelect
