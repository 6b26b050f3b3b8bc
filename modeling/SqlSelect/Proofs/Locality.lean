/-
Errors are local to where they stand.

An error of a text that divides into tokens shows from the tokens up to its
end and from two more: any other text that starts with tokens of these kinds
has the same error, so nothing that stands behind can mend it. There is one
exception. An opening parenthesis behind `GROUP BY` may hold the whole list,
and if that comes to nothing the list is read as one that only starts with a
parenthesis. The error is then the one of the second reading, at the first
comma, although what is wrong stands behind that comma; and with other tokens
there the list may well be in parentheses.
-/
import SqlSelect.Proofs.Kinds
import SqlSelect.Proofs.Layout.Places
import SqlSelect.Proofs.Local.Groups

namespace SqlSelect

/-- A token that stops where another behind it stops is the last one before
the end of the input. -/
theorem succ_of_same_stop {source : String} {tokens : List Token}
    (h : tokenize source = .ok tokens) {i j : Nat} {a b : Token} (ha : tokens[i]? = some a)
    (hb : tokens[j]? = some b) (lt : i < j) (same : a.span.stop = b.span.stop) :
    j = i + 1 ∧ j + 1 = tokens.length := by
  have within : j < tokens.length := (List.getElem?_eq_some_iff.1 hb).1
  have last : j + 1 = tokens.length := by
    rcases Nat.lt_or_eq_of_le (Nat.succ_le_of_lt within) with more | last
    · have inner := inner_of_tokenize h j (by rwa [List.length_map])
      rw [getD_map_kind hb] at inner
      exact absurd same (Nat.ne_of_lt (stop_lt_stop h ha hb lt inner))
    · exact last
  rcases Nat.lt_or_eq_of_le (Nat.succ_le_of_lt lt) with next | next
  · -- a token between the two has some text
    have hc := List.getElem?_eq_getElem (Nat.lt_trans next within)
    have inner := inner_of_tokenize h (i + 1) (by rw [List.length_map]; omega)
    rw [getD_map_kind hc] at inner
    have above := stop_lt_stop h ha hc (Nat.lt_succ_self i) inner
    have below := before_of_lt h hc hb next
    have width := start_le_stop h hb hb (Nat.le_refl _)
    unfold Token.Before at below
    omega
  · exact ⟨next.symm, last⟩

theorem getD_eof_of_length_le {kinds : List Kind} {i : Nat} (h : kinds.length ≤ i) :
    kinds.getD i .eof = .eof := by
  rw [List.getD_eq_getElem?_getD, List.getElem?_eq_none h]
  rfl

/-- Tokens that agree up to two behind the end of an error of the one text
agree up to two behind the last token of its fault. -/
theorem agree_of_stop {a b : String} {ts us : List Token} (ha : tokenize a = .ok ts)
    (hb : tokenize b = .ok us) {i last : Nat} {token stop : Token} (place : ts[i]? = some token)
    (hstop : ts[last]? = some stop) (ends : token.span.stop = stop.span.stop)
    (same : (us.map Token.kind).take (i + 3) = (ts.map Token.kind).take (i + 3)) :
    ∀ j < last + 3, (ts.map Token.kind).getD j .eof = (us.map Token.kind).getD j .eof := by
  have agree {j : Nat} (near : j < i + 3) :
      (us.map Token.kind).getD j .eof = (ts.map Token.kind).getD j .eof := by
    rw [List.getD_eq_getElem?_getD, List.getD_eq_getElem?_getD, ← List.getElem?_take_of_lt near,
      same, List.getElem?_take_of_lt near]
  intro j within
  rcases Nat.lt_or_ge j (i + 3) with near | far
  · exact (agree near).symm
  · -- the fault is the end of the input, and the other text ends there too
    obtain ⟨next, length⟩ := succ_of_same_stop ha place hstop (by omega) ends
    have left : (ts.map Token.kind).length ≤ i + 2 := by
      rw [List.length_map]
      omega
    have right : (us.map Token.kind).length ≤ i + 3 := by
      rcases Nat.lt_or_ge (i + 3) (us.map Token.kind).length with more | done
      · have inner := inner_of_tokenize hb (i + 2) more
        rw [agree (Nat.lt_succ_self _), getD_eof_of_length_le left] at inner
        exact absurd rfl inner
      · exact done
    rw [getD_eof_of_length_le (by omega), getD_eof_of_length_le (by omega)]

/-- Errors are local, a comma in the parentheses behind `GROUP BY` apart. Let
a text fail at tokens of which the last is the one at `i`, and let another
start with tokens of the same kinds up to two behind that one. Then the other
fails for the same cause and at the same tokens. Otherwise the error is that a
closing parenthesis is expected at a comma, and in the other text this comma
is the first of a `GROUP BY` list in parentheses. -/
theorem parse_error_local {a b : String} {ts us : List Token} {e : Error} {i : Nat}
    {token : Token} (ha : tokenize a = .ok ts) (hb : tokenize b = .ok us)
    (h : parse a = .error e) (place : ts[i]? = some token)
    (ends : token.span.stop = e.span.stop)
    (same : (us.map Token.kind).take (i + 3) = (ts.map Token.kind).take (i + 3)) :
    (∃ f first last, parse b = .error f ∧ f.cause = e.cause ∧ e.span.Runs ts first last
        ∧ f.span.Runs us first last)
      ∨ e.cause = .unexpected "`)`" (.symbol .comma)
        ∧ ∃ j, e.span.Runs ts j j ∧ Grammar.FirstGroupComma (us.map Token.kind) j := by
  obtain ⟨fault, after, hinput, cause, -, runs⟩ := fault_of_parse ha h
  obtain ⟨x, y, hx, hy, span⟩ := id runs
  have stops : token.span.stop = y.span.stop := by rw [ends, span]
  let k : Grammar.Overlap := ⟨ts.map Token.kind, us.map Token.kind, fault.place.last + 3,
    agree_of_stop ha hb place hy stops same⟩
  have abreast : k.Abreast (.ofKinds (ts.map Token.kind)) (.ofKinds (us.map Token.kind)) :=
    ⟨standsIn_of_tokenize hb, rfl⟩
  obtain ⟨-, -, -, follows⟩ :=
    (Grammar.local_input (k := k) (standsIn_of_tokenize ha)).error hinput
  rcases follows (Nat.le_refl _) _ abreast with
    ⟨fault', after', hinput', faults, -⟩ | ⟨j, comma, rfl⟩
  · obtain rfl := Grammar.Overlap.fault_eq (Nat.le_refl _) faults
    obtain ⟨f, hf, cause', -, runs'⟩ := parse_of_fault hb hinput'
    exact Or.inl ⟨f, _, _, hf, cause'.trans cause.symm, runs, runs'⟩
  · exact Or.inr ⟨cause, j, runs, comma⟩

/-- A token of a text, and another text that starts with the same kinds up to
two behind it. -/
theorem exists_shared {a b : String} {i : Nat} {token : Token}
    (found : (tokenize a).toOption.bind (·[i]?) = some token)
    (same : (tokenize b).toOption.map (fun us => (us.map Token.kind).take (i + 3))
      = (tokenize a).toOption.map fun ts => (ts.map Token.kind).take (i + 3)) :
    ∃ ts us, tokenize a = .ok ts ∧ tokenize b = .ok us ∧ ts[i]? = some token
      ∧ (us.map Token.kind).take (i + 3) = (ts.map Token.kind).take (i + 3) := by
  cases ha : tokenize a with
  | error e =>
      rw [ha] at found
      cases found
  | ok ts =>
      cases hb : tokenize b with
      | error e =>
          rw [ha, hb] at same
          cases same
      | ok us =>
          rw [ha] at found
          rw [ha, hb] at same
          exact ⟨ts, us, rfl, rfl, found, Option.some.inj same⟩

/-- A call that is not closed, whatever the limit is: either text is refused
for the word in place of the parenthesis. -/
theorem parse_error_local_call :
    ∃ ts us e f token, tokenize "select f(a from t limit 1" = .ok ts
      ∧ tokenize "select f(a from t limit all offset 2" = .ok us
      ∧ parse "select f(a from t limit 1" = .error e
      ∧ ts[4]? = some token ∧ token.span.stop = e.span.stop
      ∧ (us.map Token.kind).take 7 = (ts.map Token.kind).take 7
      ∧ parse "select f(a from t limit all offset 2" = .error f
      ∧ e.cause = .unexpected "`)`" (.word "from") ∧ f.cause = e.cause
      ∧ e.span.Runs ts 4 4 ∧ f.span.Runs us 4 4 := by
  have refused : error? "select f(a from t limit 1"
      = some ⟨.unexpected "`)`" (.word "from"), ⟨11, 15⟩, ⟨1, 12⟩⟩ := by
    decide +kernel
  have found : (tokenize "select f(a from t limit 1").toOption.bind (·[4]?)
      = some ⟨.word "from", ⟨11, 15⟩⟩ := by
    decide +kernel
  have h := parse_of_error? refused
  obtain ⟨ts, us, ha, hb, place, same⟩ := exists_shared found
    (show (tokenize "select f(a from t limit all offset 2").toOption.map _ = _ by decide +kernel)
  rcases parse_error_local ha hb h place rfl same with
    ⟨f, first, last, hf, cause, runs, runs'⟩ | ⟨other, -⟩
  · obtain ⟨rfl, rfl⟩ := runs.unique ha ⟨_, _, place, place, rfl⟩ (by decide)
    exact ⟨ts, us, _, f, _, ha, hb, h, place, rfl, same, hf, rfl, cause, runs, runs'⟩
  · exact absurd other (by decide)

/-- With a comma in the parentheses behind `GROUP BY` errors are not local.
The first text is refused for that comma, although its last expression lacks
an operand; the second starts with the same tokens up to two behind the
comma, has the operand and is accepted. -/
theorem parse_error_not_local :
    ∃ ts us e token statement, tokenize "select a from t group by (a, b +)" = .ok ts
      ∧ tokenize "select a from t group by (a, b + 1)" = .ok us
      ∧ parse "select a from t group by (a, b +)" = .error e
      ∧ ts[8]? = some token ∧ token.span.stop = e.span.stop
      ∧ (us.map Token.kind).take 11 = (ts.map Token.kind).take 11
      ∧ parse "select a from t group by (a, b + 1)" = .ok statement := by
  have refused : error? "select a from t group by (a, b +)"
      = some ⟨.unexpected "`)`" (.symbol .comma), ⟨27, 28⟩, ⟨1, 28⟩⟩ := by
    decide +kernel
  have accepted : (parse "select a from t group by (a, b + 1)").toOption.isSome := by
    decide +kernel
  have found : (tokenize "select a from t group by (a, b +)").toOption.bind (·[8]?)
      = some ⟨.symbol .comma, ⟨27, 28⟩⟩ := by
    decide +kernel
  obtain ⟨ts, us, ha, hb, place, same⟩ := exists_shared found
    (show (tokenize "select a from t group by (a, b + 1)").toOption.map _ = _ by decide +kernel)
  obtain ⟨statement, h⟩ := exists_of_toOption_isSome accepted
  exact ⟨ts, us, _, _, statement, ha, hb, parse_of_error? refused, place, rfl, same, h⟩

end SqlSelect
