/-
Where wildcards stand.

A star is an operator and a value. In the statements of texts the two are
told apart: a wildcard is a whole entry of a select list or a whole
argument of a call, and every star of the text is one of these or a
product. Where it stands is read off from the tokens of each part of the
statement, how many there are from the tally of the whole.
-/
import SqlSelect.Proofs.Sound.Select
import SqlSelect.Proofs.Tally

namespace SqlSelect

-- ========================================================= placement

namespace Expr

/-- Whether the expression is a product. -/
def isProduct : Expr → Bool
  | .binary .mul _ _ => true
  | _ => false

/-- Below the expression wildcards are arguments of calls only. -/
def WildcardsInCalls (e : Expr) : Prop :=
  ∀ x ∈ e.nodes, ∀ c ∈ x.children, c.isWildcard = true →
    ∃ function args, x = .call function args

end Expr

/-- Wildcards stand where they may: as an entry of the select list without
an alias, or as an argument. -/
structure Select.WildcardsPlaced (s : Select) : Prop where
  unnamed : ∀ c ∈ s.columns.getD [], c.expr.isWildcard = true → c.aliasName = none
  clauses : ∀ e ∈ s.clauseExpressions, e.isWildcard = false
  inside : ∀ e ∈ s.expressions, e.WildcardsInCalls

/-- A child that is no argument is an operand or a list. -/
theorem Expr.Formed.isWildcard_child {x c : Expr} (formed : x.Formed) (hc : c ∈ x.children)
    (wild : c.isWildcard = true) : ∃ function args, x = .call function args := by
  have operand : c.isOperand = true → False := by
    intro h
    exact absurd (wild.symm.trans (isOperand_iff.1 h).1) nofun
  cases x with
  | call function args => exact ⟨function, args, rfl⟩
  | binary op left right =>
      simp only [children, List.mem_cons, List.not_mem_nil, or_false] at hc
      rcases hc with rfl | rfl
      · exact (operand formed.1).elim
      · have hright := formed.2
        split at hright
        next =>
          cases c with
          | list items => cases wild
          | _ => cases hright
        next => exact (operand hright).elim
  | unary op inner =>
      obtain rfl := List.mem_singleton.1 hc
      exact (operand formed.1).elim
  | between negated value low high =>
      simp only [children, List.mem_cons, List.not_mem_nil, or_false] at hc
      rcases hc with rfl | rfl | rfl
      · exact (operand formed.1).elim
      · exact (operand formed.2.1).elim
      · exact (operand formed.2.2).elim
  | cast inner target =>
      obtain rfl := List.mem_singleton.1 hc
      exact (operand formed.1).elim
  | case inner arms otherwise => exact (operand (formed.2 c hc)).elim
  | list items => exact (operand (formed.2 c hc)).elim
  | _ => cases hc

theorem wildcardsInCalls_of_formed {e : Expr} (formed : ∀ x ∈ e.nodes, x.Formed) :
    e.WildcardsInCalls :=
  fun x hx _ hc wild => (formed x hx).isWildcard_child hc wild

/-- In a statement that was read from a text the wildcards stand where they
may. -/
theorem wildcardsPlaced_of_yieldsSelect {s : Select} {ks : List Kind} (h : YieldsSelect s ks)
    (lexed : ∀ k ∈ ks, k.Lexed) : s.WildcardsPlaced := by
  refine ⟨fun c hc wild => ?_, fun e he => ?_, fun e he => ?_⟩
  · rcases normal_columns h lexed c hc with ⟨-, unnamed⟩ | normal
    · exact unnamed
    · exact absurd (wild.symm.trans (Expr.isOperand_iff.1 normal.operand).1) nofun
  · exact (Expr.isOperand_iff.1 (normal_clauseExpressions h lexed e he).operand).1
  · exact wildcardsInCalls_of_formed (formed_of_yieldsSelect h lexed e he)

-- ============================================================= stars

namespace Tally

/-- Counts the bare stars alone. -/
def bareStars : Tally := ⟨1, 0⟩

theorem names_bareStars (ns : List String) : bareStars.names ns = 0 := by
  induction ns with
  | nil => rfl
  | cons name ns ih =>
      rw [names_cons, ih]
      exact ite_self 0

theorem kinds_bareStars (ks : List Kind) : bareStars.kinds ks = ks.count (.symbol .star) := by
  refine kinds_eq_count rfl (fun k other => ?_) ks
  cases k with
  | symbol mark => exact kind_symbol fun star => other (congrArg _ star)
  | quoted name => exact ite_self 0
  | _ => rfl

/-- Of nodes the wildcards and the products count. -/
theorem nodes_bareStars (es : List Expr) :
    bareStars.nodes es = es.countP Expr.isWildcard + es.countP Expr.isProduct := by
  refine nodes_eq_countP (fun e => ?_) es
  cases e with
  | ref table name =>
      have qualifier : table.elim 0 bareStars.name = 0 := by
        cases table with
        | none => rfl
        | some table => exact ite_self 0
      have one : bareStars.bare = 1 := rfl
      simp [node, qualifier, one, Expr.isWildcard, Expr.isProduct]
  | binary op left right => cases op <;> rfl
  | cast operand target => exact ite_self 0
  | _ => rfl

end Tally

/-- In every text that is accepted a wildcard is a whole entry of a select
list, without an alias, or a whole argument of a call, also in derived
tables; and each star of the text is a wildcard or a product. -/
theorem wildcards_of_parse {source : String} {statement : Select}
    (h : parse source = .ok statement) :
    (∀ inner ∈ statement.statements, inner.WildcardsPlaced)
      ∧ ∃ tokens, tokenize source = .ok tokens
        ∧ (tokens.map Token.kind).count (.symbol .star)
          = statement.nodes.countP Expr.isWildcard + statement.nodes.countP Expr.isProduct := by
  refine ⟨forall_statements_of_parse wildcardsPlaced_of_yieldsSelect h, ?_⟩
  obtain ⟨tokens, htokens, total⟩ := Tally.kinds_of_parse h
  have stars := total Tally.bareStars
  rw [Tally.kinds_bareStars, Tally.nodes_bareStars, Tally.names_bareStars] at stars
  exact ⟨tokens, htokens, stars⟩

/-- Stars of every sort, one of them in a derived table. -/
theorem wildcards_of_product :
    ∃ statement tokens,
      parse "SELECT *, count(*), x.a * 2 FROM (SELECT t.* FROM t) x" = .ok statement
      ∧ tokenize "SELECT *, count(*), x.a * 2 FROM (SELECT t.* FROM t) x" = .ok tokens
      ∧ (∀ inner ∈ statement.statements, inner.WildcardsPlaced)
      ∧ (tokens.map Token.kind).count (.symbol .star)
        = statement.nodes.countP Expr.isWildcard + statement.nodes.countP Expr.isProduct := by
  have accepted : (parse
      "SELECT *, count(*), x.a * 2 FROM (SELECT t.* FROM t) x").toOption.isSome := by
    decide +kernel
  obtain ⟨statement, h⟩ := exists_of_toOption_isSome accepted
  obtain ⟨placed, tokens, htokens, stars⟩ := wildcards_of_parse h
  exact ⟨statement, tokens, h, htokens, placed, stars⟩

end SqlSelect
