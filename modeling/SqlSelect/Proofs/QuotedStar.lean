/-
What a star in double quotes names.

In double quotes a star is a name like any other: an alias, a table, a
schema, a type. In an expression it is refused, as a column, as a function
and as the table of a column. The one place where the grammar does not look
is the table of a wildcard, so that `"*".*` is accepted. The form of the
nodes rules out the other places; the tally of the text shows that no
quoted star goes anywhere else.
-/
import SqlSelect.Proofs.Wildcard

namespace SqlSelect

namespace Expr

/-- Whether the expression is a cast to a type whose name is a star. -/
def castsToStar : Expr → Bool
  | .cast _ target => target.name == star
  | _ => false

/-- Whether the expression is a column, or all columns, of a table whose
name is a star. -/
def ofStarTable : Expr → Bool
  | .ref (some table) _ => table == star
  | _ => false

end Expr

namespace Tally

/-- Counts the stars in double quotes alone. -/
def quotedStars : Tally := ⟨0, 1⟩

theorem name_quotedStars (name : String) :
    quotedStars.name name = if name = Expr.star then 1 else 0 := rfl

theorem names_quotedStars (ns : List String) : quotedStars.names ns = ns.count Expr.star := by
  induction ns with
  | nil => rfl
  | cons name ns ih =>
      rw [names_cons, ih, name_quotedStars, List.count_cons, Nat.add_comm]
      simp

theorem kinds_quotedStars (ks : List Kind) :
    quotedStars.kinds ks = ks.count (.quoted Expr.star) := by
  refine kinds_eq_count rfl (fun k other => ?_) ks
  cases k with
  | symbol mark => cases mark <;> rfl
  | quoted name => exact name_eq_zero fun star => other (congrArg _ star)
  | _ => rfl

/-- Of nodes the casts to such a type and the columns of such a table
count. -/
theorem nodes_quotedStars (es : List Expr) :
    quotedStars.nodes es = es.countP Expr.castsToStar + es.countP Expr.ofStarTable := by
  refine nodes_eq_countP (fun e => ?_) es
  cases e with
  | ref table name =>
      have bare : quotedStars.bare = 0 := rfl
      cases table <;> simp [node, bare, name_quotedStars, Expr.castsToStar, Expr.ofStarTable]
  | binary op left right => cases op <;> rfl
  | cast operand target =>
      simp [node, name_quotedStars, Expr.castsToStar, Expr.ofStarTable]
  | _ => rfl

end Tally

/-- In every text that is accepted no function is named by a star, and a
table is only where all its columns are meant. Each star in double quotes
is an alias, a name in a `FROM` list, a type or the table of such a
wildcard, and none is a column: what is named by a star goes back to a bare
one. -/
theorem quotedStars_of_parse {source : String} {statement : Select}
    (h : parse source = .ok statement) :
    (∀ args, Expr.call (.name Expr.star) args ∉ statement.nodes)
      ∧ (∀ name, Expr.ref (some Expr.star) name ∈ statement.nodes → name = Expr.star)
      ∧ ∃ tokens, tokenize source = .ok tokens
        ∧ (tokens.map Token.kind).count (.quoted Expr.star)
          = (statement.statements.flatMap Select.names).count Expr.star
            + statement.nodes.countP Expr.castsToStar + statement.nodes.countP Expr.ofStarTable
        ∧ (tokens.map Token.kind).count (.symbol .star)
          = statement.nodes.countP Expr.isWildcard + statement.nodes.countP Expr.isProduct := by
  have formed := formed_of_parse h
  refine ⟨fun args mem => ?_, fun name mem => ?_, ?_⟩
  · exact (formed _ mem).1 rfl
  · exact (formed _ mem).resolve_right fun other => other rfl
  · obtain ⟨tokens, htokens, total⟩ := Tally.kinds_of_parse h
    have quoted := total Tally.quotedStars
    have bare := total Tally.bareStars
    rw [Tally.kinds_quotedStars, Tally.nodes_quotedStars, Tally.names_quotedStars] at quoted
    rw [Tally.kinds_bareStars, Tally.nodes_bareStars, Tally.names_bareStars] at bare
    exact ⟨tokens, htokens, by omega, bare⟩

/-- A star as an alias, a type, a schema, a table and the table of a
wildcard. -/
theorem quotedStars_of_everyName :
    ∃ statement tokens,
      parse "select a \"*\", b::\"*\", \"*\".* from \"*\".\"*\"" = .ok statement
      ∧ tokenize "select a \"*\", b::\"*\", \"*\".* from \"*\".\"*\"" = .ok tokens
      ∧ (∀ args, Expr.call (.name Expr.star) args ∉ statement.nodes)
      ∧ (∀ name, Expr.ref (some Expr.star) name ∈ statement.nodes → name = Expr.star)
      ∧ (tokens.map Token.kind).count (.quoted Expr.star)
        = (statement.statements.flatMap Select.names).count Expr.star
          + statement.nodes.countP Expr.castsToStar + statement.nodes.countP Expr.ofStarTable := by
  have accepted : (parse
      "select a \"*\", b::\"*\", \"*\".* from \"*\".\"*\"").toOption.isSome := by
    decide +kernel
  obtain ⟨statement, h⟩ := exists_of_toOption_isSome accepted
  obtain ⟨called, qualified, tokens, htokens, quoted, -⟩ := quotedStars_of_parse h
  exact ⟨statement, tokens, h, htokens, called, qualified, quoted⟩

/-- The table of a wildcard can be named by a star. -/
theorem quotedStar_of_wildcard :
    ∃ statement, parse "select \"*\".* from t" = .ok statement
      ∧ ∃ name, Expr.ref (some Expr.star) name ∈ statement.nodes := by
  have found : (parse "select \"*\".* from t").toOption.any
      fun statement => statement.nodes.any Expr.ofStarTable := by
    decide +kernel
  obtain ⟨statement, h, given⟩ := exists_of_toOption_any found
  obtain ⟨x, mem, hx⟩ := List.any_eq_true.1 given
  refine ⟨statement, h, ?_⟩
  cases x with
  | ref table name =>
      cases table with
      | none => cases hx
      | some table =>
          obtain rfl := eq_of_beq hx
          exact ⟨name, mem⟩
  | _ => cases hx

end SqlSelect
