/-
A statement that is written is read back.

What a text is read as is normal, and its tokens have spellings; the
scanner reads the spellings as these tokens, and the grammar reads the
tokens of a normal statement as that statement.
-/
import SqlSelect.Proofs.Complete.Select
import SqlSelect.Proofs.Print.Decimal
import SqlSelect.Proofs.Sound.Select
import SqlSelect.Proofs.Spellable

namespace SqlSelect

/-- A statement and its tokens: the statement is normal and can be
spelled. -/
theorem normal_and_spellable {source : String} {statement : Select}
    (h : parse source = .ok statement) : statement.Normal ∧ Spellable statement.kinds := by
  obtain ⟨tokens, -, yields, lexed⟩ := parse_yields h
  generalize tokens.map Token.kind = kinds at yields lexed
  cases yields with
  | plain yields | terminated yields =>
      have inside := fun k hk => lexed k (List.mem_append_left _ hk)
      exact ⟨normal_of_yieldsSelect yields inside, spellable_select yields inside⟩

/-- A statement that was read from a text is read again from the text it is
written as, however its decimals are spelled. -/
theorem parse_print (decimals : DecimalSpelling) {source : String} {statement : Select}
    (h : parse source = .ok statement) : parse (statement.print decimals) = .ok statement := by
  obtain ⟨normal, spellable⟩ := normal_and_spellable h
  obtain ⟨tokens, htokens, kinds⟩ := tokenize_spellAll decimals spellable
  obtain ⟨after, -, -, hinput⟩ := Grammar.reads_input normal
    { position := 0, rest := statement.kinds ++ [.eof], trial := false, events := [] } rfl
  rw [← kinds] at hinput
  exact parse_of_input htokens hinput

/-- A text with signs, quotes, a wildcard, a derived table and a list of
groups in parentheses. -/
theorem parse_print_derivedTable :
    ∃ statement : Select,
      statement = {
        distinct := false
        columns := some [⟨.ref (some "x") "*", none⟩,
          ⟨.numeric ⟨true, 0x3FF8000000000000, by decide⟩, some "a\"b"⟩]
        sources := some [.derived ⟨false, some [⟨.ref none "c", none⟩],
          some [.table "t" none none none], none, none, none, none, some ⟨some 3, none⟩⟩ "x" none]
        filter := none
        groups := some [.integer (-1), .string "it's"]
        having := none
        order := none
        limit := none }
      ∧ parse
        "SELECT x.*, -1.5 AS \"a\"\"b\" FROM (SELECT c FROM t LIMIT 3) x GROUP BY (-1, 'it''s')"
        = .ok statement
      ∧ parse (statement.print .exact) = .ok statement := by
  have text : (tokenize
      "SELECT x.*, -1.5 AS \"a\"\"b\" FROM (SELECT c FROM t LIMIT 3) x GROUP BY (-1, 'it''s')"
      ).toOption.map (List.map Token.kind)
      = some [.word "select", .word "x", .symbol .dot, .symbol .star, .symbol .comma,
        .symbol .minus, .numeric ⟨false, 0x3FF8000000000000, by decide⟩, .word "as",
        .quoted "a\"b", .word "from", .symbol .leftParen, .word "select", .word "c",
        .word "from", .word "t", .word "limit", .integer 3, .symbol .rightParen, .word "x",
        .word "group", .word "by", .symbol .leftParen, .symbol .minus, .integer 1,
        .symbol .comma, .string "it's", .symbol .rightParen, .eof] := by
    decide +kernel
  have h := parse_of_kinds text rfl
  exact ⟨_, rfl, h, parse_print .exact h⟩

example :
    (parse "select a.*, -1 x from (select b) a order by b").toOption.map (Select.print .exact)
      = some ("SELECT \"a\" . * , ( - 1 ) AS \"x\" FROM ( SELECT ( \"b\" ) ) AS \"a\""
        ++ " ORDER BY ( \"b\" )") := by
  decide +kernel

end SqlSelect
