/-
What a production does with the token at hand.

The grammar is written for every sort of cursor, and so are the facts of this
file: none of them opens a state. There are three groups of them.

# The first step of a production

Whatever takes a token looks at it first. The equations that end in `_eq`
spell this step out, as one look at the current token and a case split on
what is found there. A proof about a production starts with such an equation
and goes on along the cases.

# What is taken is no end of the input

A cursor cannot pass the end of the input, so whoever counts the tokens that
are passed has to know that what was looked at is not the end. The lemmas
`ne_eof_of_…` and `…_inner` say so of each question that the grammar asks
before it takes a token.

# Loops as rounds

The loops of the grammar come in two forms, one that lists what its rounds
yield (`collect`) and one that hands a value on from round to round
(`iterate`). Here both say what they answer when no round is left, which the
grammar only ever says for want of a better answer.
-/
import SqlSelect.Grammar.Select
import SqlSelect.Proofs.Mark

namespace SqlSelect.Grammar

section Results

variable {σ ε α β : Type}

/-- A parser goes on where the one before it succeeds, and fails where it
fails. -/
theorem bind_apply (p : ParserOf σ ε α) (f : α → ParserOf σ ε β) (s : σ) :
    (p >>= f) s = match p s with
      | .ok a s' => f a s'
      | .error e s' => .error e s' := by
  show EStateM.bind p f s = _
  unfold EStateM.bind
  cases p s <;> rfl

/-- A sequence succeeds through a state between its parts. -/
theorem bind_ok {p : ParserOf σ ε α} {f : α → ParserOf σ ε β} {s s' : σ} {b : β} :
    (p >>= f) s = .ok b s' ↔ ∃ a t, p s = .ok a t ∧ f a t = .ok b s' := by
  rw [bind_apply]
  constructor
  · intro h
    cases hp : p s with
    | ok a t =>
        rw [hp] at h
        exact ⟨a, t, rfl, h⟩
    | error e t =>
        rw [hp] at h
        cases h
  · rintro ⟨a, t, hp, hf⟩
    rw [hp]
    exact hf

/-- A sequence fails in its first part, or in the second behind a first part
that succeeds. -/
theorem bind_error {p : ParserOf σ ε α} {f : α → ParserOf σ ε β} {s s' : σ} {e : ε}
    (h : (p >>= f) s = .error e s') :
    p s = .error e s' ∨ ∃ a t, p s = .ok a t ∧ f a t = .error e s' := by
  rw [bind_apply] at h
  cases hp : p s with
  | ok a t =>
      rw [hp] at h
      exact Or.inr ⟨a, t, rfl, h⟩
  | error e' t =>
      rw [hp] at h
      cases h
      exact Or.inl rfl

/-- What yields a value at once moves nowhere. -/
theorem pure_ok {a b : α} {s s' : σ} :
    (pure a : ParserOf σ ε α) s = .ok b s' ↔ a = b ∧ s = s' := by
  show EStateM.Result.ok a s = .ok b s' ↔ _
  rw [EStateM.Result.ok.injEq]

/-- What is done behind a choice is done behind either side of it. -/
theorem if_bind {c : Prop} [Decidable c] (p q : ParserOf σ ε α) (f : α → ParserOf σ ε β) :
    (if c then p else q) >>= f = if c then p >>= f else q >>= f := by
  split <;> rfl

end Results

variable {σ μ π ε α β : Type} [Cursor σ μ π ε]

-- ================================================= the token at hand

/-- Nothing is done behind a failure. -/
theorem unexpected_bind (expected : String) (f : α → ParserOf σ ε β) :
    unexpected expected >>= f = unexpected expected := rfl

/-- A symbol is taken if it is the token at hand. -/
theorem consume_eq (symbol : Symbol) :
    (consume symbol : ParserOf σ ε Bool) = current >>= fun kind =>
      if kind = .symbol symbol then advance >>= fun _ => pure true else pure false := by
  unfold consume atSymbol
  rw [bind_assoc]
  refine bind_congr fun kind => ?_
  simp only [pure_bind, beq_iff_eq]

/-- So is a keyword. -/
theorem consumeKeyword_eq (keyword : Keyword) :
    (consumeKeyword keyword : ParserOf σ ε Bool) = current >>= fun kind =>
      if kind.keyword? = some keyword then advance >>= fun _ => pure true
      else pure false := by
  unfold consumeKeyword atKeyword
  rw [bind_assoc]
  refine bind_congr fun kind => ?_
  simp only [pure_bind, beq_iff_eq]

/-- What must be there is taken, and its place is handed on. -/
theorem expect_bind_eq (symbol : Symbol) (f : μ → ParserOf σ ε α) :
    expect symbol >>= f = position >>= fun here => current >>= fun kind =>
      if kind = .symbol symbol then advance >>= fun _ => f here
      else unexpected ("`" ++ symbol.text ++ "`") := by
  rw [expect, bind_assoc]
  refine bind_congr fun here => ?_
  rw [consume_eq, bind_assoc, bind_assoc]
  refine bind_congr fun kind => ?_
  rw [if_bind]
  rfl

/-- A keyword that must be there is taken, or its spelling was expected. -/
theorem expectKeyword_eq (keyword : Keyword) :
    (expectKeyword keyword : ParserOf σ ε Unit) = current >>= fun kind =>
      if kind.keyword? = some keyword then advance >>= fun _ => pure ()
      else unexpected keyword.spelling := by
  rw [expectKeyword, consumeKeyword_eq, bind_assoc]
  refine bind_congr fun kind => ?_
  rw [if_bind]
  rfl

/-- A clause goes on behind its keyword. -/
theorem clause_eq (keyword : Keyword) (body : ParserOf σ ε α) :
    clause keyword body = current >>= fun kind =>
      if kind.keyword? = some keyword then advance >>= fun _ => body >>= fun a => pure (some a)
      else pure none := by
  rw [clause, consumeKeyword_eq, bind_assoc]
  refine bind_congr fun kind => ?_
  rw [if_bind]
  rfl

/-- An alias starts with `AS`, or is a name. -/
theorem optionalAlias_eq :
    (optionalAlias : ParserOf σ ε (Option String)) = current >>= fun kind =>
      if kind.keyword? = some .AS then
        advance >>= fun _ => identifier >>= fun name => pure (some name)
      else current >>= fun kind =>
        if kind.identifier?.isSome then identifier >>= fun name => pure (some name)
        else pure none := by
  rw [optionalAlias, consumeKeyword_eq, bind_assoc]
  refine bind_congr fun kind => ?_
  rw [if_bind]
  rfl

/-- Whether an alias starts with the token. -/
def StartsAlias (kind : Kind) : Prop :=
  kind.keyword? = some .AS ∨ kind.identifier?.isSome = true

/-- Where no alias starts there is none. -/
theorem optionalAlias_none {s : σ} (h : ¬StartsAlias (Cursor.kindAt s 0)) :
    (optionalAlias : ParserOf σ ε (Option String)) s = .ok none s := by
  rw [optionalAlias_eq]
  show (if (Cursor.kindAt s 0).keyword? = some .AS then _ else _ : ParserOf σ ε _) s = _
  rw [if_neg fun found => h (Or.inl found)]
  show (if (Cursor.kindAt s 0).identifier?.isSome = true then _ else _ : ParserOf σ ε _) s = _
  rw [if_neg fun found => h (Or.inr found)]
  rfl

/-- The rest of a type behind the words that stand before its modifiers. -/
def typeTail (name : String) : ParserOf σ ε DataType := do
  let config ← typeConfig
  return { name := ← zonedName name, config }

/-- A type starts with a name, on which all its further words depend. -/
theorem dataType_eq :
    (dataType : ParserOf σ ε DataType) = (current : ParserOf σ ε Kind) >>= fun kind =>
      match kind.identifier? with
      | none => unexpected "type name"
      | some first => advance >>= fun _ => typeName first >>= typeTail := rfl

/-- Behind an operand a cast is told from a test by its first token. -/
theorem applyPostfix_eq (operand : Expr) :
    (applyPostfix operand : ParserOf σ ε Expr) = current >>= fun kind =>
      if kind = .symbol .doubleColon then
        advance >>= fun _ => dataType >>= fun target => pure (.cast operand target)
      else expectKeyword .IS >>= fun _ => test operand := by
  rw [applyPostfix, consume_eq, bind_assoc]
  refine bind_congr fun kind => ?_
  rw [if_bind]
  rfl

/-- Every token is looked at once. -/
theorem extend?_eq (expr : Nat → ParserOf σ ε Expr) (floor : Nat) (left : Expr) :
    extend? expr floor left = current >>= fun kind =>
      match postfixTier? kind with
      | some tier =>
        if tier.rank < floor then pure none
        else applyPostfix left >>= fun longer => pure (some longer)
      | none => peek 1 >>= fun second =>
        match Connective.at? kind second with
        | none => pure none
        | some connective =>
          if connective.tier.rank < floor then pure none
          else skip connective.width >>= fun _ =>
            applyConnective expr connective left >>= fun longer => pure (some longer) := by
  funext s
  -- the second look at the token is at the same one, since no token was taken
  -- between them
  show (match postfixTier? (Cursor.kindAt s 0) with | some _ => _ | none => _ : ParserOf σ ε _) s
    = (match postfixTier? (Cursor.kindAt s 0) with | some _ => _ | none => _ : ParserOf σ ε _) s
  cases postfixTier? (Cursor.kindAt s 0) <;> rfl

/-- The tokens that are taken where a token may be there. -/
abbrev taken (found : Bool) : Nat := if found then 1 else 0

/-- It is one token at most. -/
theorem taken_le (found : Bool) : taken found ≤ 1 := by cases found <;> decide

/-- The tokens that are taken where something may be there. -/
abbrev drawn (found : Option α) : Nat := if found.isSome then 1 else 0

/-- It is one at most. -/
theorem drawn_le (found : Option α) : drawn found ≤ 1 := by
  cases found with
  | none => exact Nat.zero_le 1
  | some a => exact Nat.le_refl 1

-- ============================================ what is taken is no end

/-- A name is no end of the input. -/
theorem ne_eof_of_identifier? {kind : Kind} {name : String}
    (h : kind.identifier? = some name) : kind ≠ .eof := by
  rintro rfl
  cases h

/-- Nor is a token that may be a name. -/
theorem ne_eof_of_anyName? {kind : Kind} {name : String} (h : kind.anyName? = some name) :
    kind ≠ .eof := by
  rintro rfl
  cases h

/-- Nor is a keyword. -/
theorem ne_eof_of_keyword? {kind : Kind} {keyword : Keyword}
    (h : kind.keyword? = some keyword) : kind ≠ .eof := by
  rintro rfl
  cases h

/-- Nor is a symbol. -/
theorem ne_eof_of_symbol {kind : Kind} {symbol : Symbol} (h : kind = .symbol symbol) :
    kind ≠ .eof := by
  rintro rfl
  cases h

/-- Nor is what starts a prefix operator. -/
theorem ne_eof_of_prefixOp? {kind : Kind} {op : UnaryOp} (h : prefixOp? kind = some op) :
    kind ≠ .eof := by
  rintro rfl
  cases h

/-- Nor is what names a test. -/
theorem ne_eof_of_testOp? {kind : Kind} {negated : Bool} {op : UnaryOp}
    (h : testOp? kind.keyword? negated = some op) : kind ≠ .eof := by
  rintro rfl
  cases h

/-- Three tokens that are seen can be passed if none is the end. -/
theorem forall_three {seen : Nat → Kind} (h : .eof ∉ [seen 0, seen 1, seen 2]) :
    ∀ i < 3, seen i ≠ .eof := by
  simp only [List.mem_cons, List.not_mem_nil, or_false, not_or] at h
  intro i hi
  rcases i with _ | _ | _ | i
  · exact fun eof => h.1 eof.symm
  · exact fun eof => h.2.1 eof.symm
  · exact fun eof => h.2.2 eof.symm
  · omega

/-- The words of a time zone are three tokens before the end. -/
theorem zone?_inner {first second third : Kind} {zone : String}
    (h : zone? first second third = some zone) : .eof ∉ [first, second, third] := by
  unfold zone? at h
  split at h
  next => simp
  next => simp
  next => cases h

/-- So are those of the wildcard of a table. -/
theorem wildcardAt?_inner {first second third : Kind} {e : Expr} {width : Nat}
    (star : first ≠ .symbol .star) (h : wildcardAt? first second third = some (e, width)) :
    width = 3 ∧ .eof ∉ [first, second, third] := by
  unfold wildcardAt? at h
  rw [if_neg star] at h
  split at h
  next dotted =>
    obtain ⟨table, named, h⟩ := Option.map_eq_some_iff.1 h
    cases h
    obtain ⟨rfl, rfl⟩ := dotted
    exact ⟨rfl, by simpa using (ne_eof_of_identifier? named).symm⟩
  next => cases h

/-- The tokens of a wildcard, at least one, are not the end. -/
theorem wildcardAt?_seen {seen : Nat → Kind} {e : Expr} {width : Nat}
    (h : wildcardAt? (seen 0) (seen 1) (seen 2) = some (e, width)) :
    1 ≤ width ∧ ∀ i < width, seen i ≠ .eof := by
  by_cases star : seen 0 = .symbol .star
  · rw [wildcardAt?, if_pos star] at h
    cases h
    refine ⟨Nat.le_refl 1, fun i hi => ?_⟩
    rw [Nat.lt_one_iff.1 hi, star]
    exact nofun
  · obtain ⟨rfl, inner⟩ := wildcardAt?_inner star h
    exact ⟨by decide, forall_three inner⟩

/-- The tokens of an operator are one, or a `NOT` and the word behind it. -/
theorem Connective.inner_of_at? {kind second : Kind} {connective : Connective}
    (h : Connective.at? kind second = some connective) :
    kind ≠ .eof ∧ (connective.width = 1 ∨ connective.width = 2 ∧ second ≠ .eof) := by
  obtain ⟨-, -, ⟨mark, rfl, -, width⟩ | ⟨word, found, -, width⟩ | ⟨word, first, found, -, width⟩⟩ :=
    Connective.marks_of_at? h
  · exact ⟨nofun, Or.inl width⟩
  · exact ⟨ne_eof_of_keyword? found, Or.inl width⟩
  · exact ⟨ne_eof_of_keyword? first, Or.inr ⟨width, ne_eof_of_keyword? found⟩⟩

/-- The tokens of an operator, at least one, are not the end. -/
theorem Connective.seen {seen : Nat → Kind} {connective : Connective}
    (h : Connective.at? (seen 0) (seen 1) = some connective) :
    1 ≤ connective.width ∧ ∀ i < connective.width, seen i ≠ .eof := by
  obtain ⟨inner, width⟩ := Connective.inner_of_at? h
  refine ⟨by omega, fun i hi => ?_⟩
  rcases i with _ | _ | i
  · exact inner
  · exact (width.resolve_left (by omega)).2
  · omega

/-- A pair of empty parentheses can be passed. -/
theorem forall_pair {seen : Nat → Kind}
    (h : seen 0 = .symbol .leftParen ∧ seen 1 = .symbol .rightParen) :
    ∀ i < 2, seen i ≠ .eof := by
  intro i hi
  rcases i with _ | _ | i
  · exact ne_eof_of_symbol h.1
  · exact ne_eof_of_symbol h.2
  · omega

/-- The words before `JOIN` are as many tokens, none of them the end of the
input. -/
theorem joinWords_inner (ls : List Kind) :
    (joinWords ls).length ≤ ls.length ∧ .eof ∉ ls.take (joinWords ls).length := by
  induction ls with
  | nil => exact ⟨Nat.le_refl 0, nofun⟩
  | cons kind ls ih =>
      obtain ⟨within, inner⟩ := ih
      cases found : kind.keyword? with
      | none => simp [joinWords, found]
      | some keyword =>
          by_cases modifies : isJoinModifier keyword = true
          · simp only [joinWords, found, modifies, if_true, List.length_cons, List.take_succ_cons,
              List.mem_cons, not_or]
            exact ⟨Nat.succ_le_succ within, (ne_eof_of_keyword? found).symm, inner⟩
          · simp [joinWords, found, modifies]

/-- The words before `JOIN` are tokens that can be passed. -/
theorem joinWords_seen (ls : List Kind) :
    ∀ i < (joinWords ls).length, ls.getD i .eof ≠ .eof := by
  obtain ⟨within, inner⟩ := joinWords_inner ls
  intro i hi eof
  have here := List.getElem?_eq_getElem (Nat.lt_of_lt_of_le hi within)
  rw [List.getD_eq_getElem?_getD, here, Option.getD_some] at eof
  refine inner (List.mem_iff_getElem?.2 ⟨i, ?_⟩)
  rw [List.getElem?_take_of_lt hi, here, eof]

-- ============================================================= rounds

/-- What rounds yield one behind the other, until one yields nothing. With no
round left `spent` answers. -/
def collect (spent : ParserOf σ ε (List α)) (round : ParserOf σ ε (Option α)) :
    Nat → ParserOf σ ε (List α)
  | 0 => spent
  | count + 1 => do
    match ← round with
    | some a =>
      let later ← collect spent round count
      return a :: later
    | none => return []

/-- What rounds make of a value one behind the other, until one yields
nothing. With no round left `spent` answers. -/
def iterate (spent : β → ParserOf σ ε β) (round : β → ParserOf σ ε (Option β)) :
    Nat → β → ParserOf σ ε β
  | 0, b => spent b
  | count + 1, b => do
    match ← round b with
    | some next => iterate spent round count next
    | none => return b

/-- Reads an item behind a comma, if a comma stands here. -/
def afterComma (item : ParserOf σ ε α) : ParserOf σ ε (Option α) := do
  if ← consume .comma then return some (← item) else return none

/-- The further items of a list are what rounds behind commas yield. -/
theorem moreItems_eq_collect (item : ParserOf σ ε α) (count : Nat) :
    moreItems item count = collect (pure []) (afterComma item) count := by
  induction count with
  | zero => rfl
  | succ count ih =>
      rw [moreItems, collect, afterComma, bind_assoc, ih]
      refine bind_congr fun found => ?_
      cases found with
      | true =>
          show _ = (item >>= fun a => pure (some a)) >>= _
          rw [bind_assoc]
          rfl
      | false => rfl

/-- Reads an arm of a `CASE`, if one stands here. -/
def caseArm (expr : Nat → ParserOf σ ε Expr) : ParserOf σ ε (Option (Expr × Expr)) := do
  if ← consumeKeyword .WHEN then
    let condition ← expr 0
    expectKeyword .THEN
    let value ← expr 0
    return some (condition, value)
  else return none

/-- The arms of a `CASE` are what rounds behind `WHEN` yield. -/
theorem caseArms_eq_collect (expr : Nat → ParserOf σ ε Expr) (count : Nat) :
    caseArms expr count = collect (pure []) (caseArm expr) count := by
  induction count with
  | zero => rfl
  | succ count ih =>
      rw [caseArms, collect, caseArm, bind_assoc, ih]
      refine bind_congr fun found => ?_
      cases found with
      | true =>
          show _ = (expr 0 >>= fun condition => expectKeyword .THEN >>= fun _ =>
            expr 0 >>= fun value => pure (some (condition, value))) >>= _
          simp only [bind_assoc]
          rfl
      | false => rfl

/-- An expression is extended from round to round. -/
theorem extendAll_eq_iterate (expr : Nat → ParserOf σ ε Expr) (floor count : Nat) :
    extendAll expr floor count = iterate pure (extend? expr floor) count := by
  induction count with
  | zero => rfl
  | succ count ih =>
      funext left
      rw [extendAll, iterate, ih]
      refine bind_congr fun found => ?_
      cases found <;> rfl

/-- Reads a further entry of the `FROM` list, if one stands here. -/
def furtherSource (select : ParserOf σ ε Select) : ParserOf σ ε (Option Source) := do
  if ← consume .comma then return some (← source select)
  else if startsJoin (← current) then return some (← joinedSource select)
  else return none

/-- Further entries of `FROM` are what rounds behind commas and joins yield. -/
theorem moreSources_eq_collect (select : ParserOf σ ε Select) (count : Nat) :
    moreSources select count = collect (pure []) (furtherSource select) count := by
  induction count with
  | zero => rfl
  | succ count ih =>
      rw [moreSources, collect, furtherSource, bind_assoc, ih]
      refine bind_congr fun found => ?_
      cases found with
      | true =>
          show _ = (source select >>= fun entry => pure (some entry)) >>= _
          rw [bind_assoc]
          rfl
      | false =>
          show current >>= _ = (current >>= fun kind =>
            if startsJoin kind then joinedSource select >>= fun entry => pure (some entry)
            else pure none) >>= _
          rw [bind_assoc]
          refine bind_congr fun kind => ?_
          cases startsJoin kind with
          | true =>
              show _ = (joinedSource select >>= fun entry => pure (some entry)) >>= _
              rw [bind_assoc]
              rfl
          | false => rfl

/-- The clauses about rows add up from round to round. -/
theorem rowLimits_eq_iterate (count : Nat) :
    (rowLimits count : RowLimits → ParserOf σ ε RowLimits) = iterate pure rowLimit? count := by
  induction count with
  | zero => rfl
  | succ count ih =>
      funext limits
      rw [rowLimits, iterate, ih]
      refine bind_congr fun found => ?_
      cases found <;> rfl

-- ============================================================== knots

/-- Reads an expression as `expressionWithin` does, save that it asks what to
answer with no round left: `spent` before the first operand, and `stuck`
behind the operand read so far. -/
def expressionOver (spent : Nat → ParserOf σ ε Expr) (stuck : Expr → ParserOf σ ε Expr) :
    Nat → Nat → ParserOf σ ε Expr
  | 0, floor => spent floor
  | bound + 1, floor => do
    let left ← prefixed (expressionOver spent stuck bound)
    iterate stuck (extend? (expressionOver spent stuck bound) floor) bound left

/-- The bounded expression is the open one, with a failure where it is spent.
-/
theorem expressionWithin_eq_over (bound : Nat) :
    (expressionWithin bound : Nat → ParserOf σ ε Expr)
      = expressionOver (fun _ => unexpected "expression") pure bound := by
  induction bound with
  | zero => rfl
  | succ bound ih =>
      funext floor
      rw [expressionWithin, expressionOver, ← ih, extendAll_eq_iterate]

/-- Reads a statement as `selectWithin` does, save that it asks what to answer
with no round left. -/
def selectOver (spent : ParserOf σ ε Select) : Nat → ParserOf σ ε Select
  | 0 => spent
  | bound + 1 => selectOf (selectOver spent bound)

/-- So is the bounded statement. -/
theorem selectWithin_eq_over (bound : Nat) :
    (selectWithin bound : ParserOf σ ε Select)
      = selectOver (unexpected Keyword.SELECT.spelling) bound := by
  induction bound with
  | zero => rfl
  | succ bound ih => rw [selectWithin, selectOver, ih]

/-- Reads a statement, with a round for every token left. -/
def statement : ParserOf σ ε Select := do
  selectWithin (← tokensLeft)

/-- Reads what may follow a statement at the end of the input. -/
def ending (statement : Select) : ParserOf σ ε Select := do
  let _ ← consume .semicolon
  match ← current with
  | .eof => return statement
  | _ => failHere .trailing

/-- The input is a statement and what ends it. -/
theorem input_eq : (input : ParserOf σ ε Select) = statement >>= ending := rfl

end SqlSelect.Grammar
