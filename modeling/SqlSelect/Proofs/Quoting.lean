/-
What double quotes do.

Quotes make a name of any text. They are transparent where the text could
have stood bare, and they are opaque: what stands in them acts neither as a
keyword nor as part of a construct of several words.

# Two lists of tokens

Both say that two lists of tokens are read alike, and `read_of_reworded`
compares them. `toOption_parse` takes what holds of the tokens to the texts
that divide into them: `parse_of_quotes` and `parse_of_renamed` say of two
texts what `read_quotes` and `read_renamed` say of two lists.

# The first word of a type

Quotes are not opaque around the first word of a type, which goes on with
bare words whether or not it is in quotes itself. That is the one exception:
a change of names that leaves it alone where such types go on leaves
everything else alone. `SpansWords` says of a place that a type goes on
there.
-/
import SqlSelect.Proofs.Kinds
import SqlSelect.Proofs.Lockstep.DataType

namespace SqlSelect

-- ========================================================= outcomes

namespace Grammar

/-- What the grammar makes of a list of tokens. -/
def read (kinds : List Kind) : Except Fault Select :=
  match input (.ofKinds kinds) with
  | .ok statement _ => .ok statement
  | .error fault _ => .error fault

end Grammar

/-- A text is parsed to what the grammar makes of its tokens. -/
theorem toOption_parse {source : String} {tokens : List Token} (h : tokenize source = .ok tokens) :
    (parse source).toOption = (Grammar.read (tokens.map Token.kind)).toOption := by
  unfold Grammar.read
  cases hinput : Grammar.input (.ofKinds (tokens.map Token.kind)) with
  | ok statement after =>
      rw [parse_of_input h hinput]
      rfl
  | error fault after =>
      obtain ⟨e, he, -⟩ := parse_of_fault h hinput
      rw [he]
      rfl

namespace Grammar

/-- What a view shows of a fault. -/
def Fault.seen (see : String → String) (fault : Fault) : Fault :=
  { fault with cause := fault.cause.seen see }

/-- Lists of tokens that differ in names only are read alike. -/
theorem read_of_reworded {v : View} {ks ls : List Kind} (h : Reworded v ks ls)
    (left : (State.ofKinds ks).StandsIn ks) :
    (∃ a b, read ks = .ok a ∧ read ls = .ok b ∧ a.mapNames v.see = b.mapNames v.see)
      ∨ ∃ e f, read ks = .error e ∧ read ls = .error f ∧ e.seen v.see = f.seen v.see := by
  have abreast : h.tandem.abreast (.ofKinds ks) (.ofKinds ls) :=
    ⟨⟨rfl, h.ends left.ends⟩, rfl, rfl, rfl⟩
  have whole : h.tandem.At (.ofKinds ks) none? (Select.mapNames v.see) input input :=
    tandem_input h.types (h.rewinds.groups h.types) left
  unfold read
  cases hs : input (.ofKinds ks) with
  | ok a s =>
      obtain ⟨-, -, follows⟩ := whole.ok hs
      obtain ⟨b, t, ht, same, -⟩ := follows trivial _ abreast
      rw [ht]
      exact Or.inl ⟨a, b, rfl, rfl, same⟩
  | error e s =>
      obtain ⟨-, -, -, follows⟩ := whole.error hs
      obtain ⟨f, t, ht, faults, -⟩ := (follows trivial _ abreast).resolve_right id
      obtain ⟨seen, -, -, -⟩ := faults
      rw [ht]
      exact Or.inr ⟨_, _, rfl, rfl, congrArg (Fault.mk · _) seen⟩

/-- They are accepted alike, with statements that differ in those names. -/
theorem toOption_read_of_reworded {v : View} {ks ls : List Kind} (h : Reworded v ks ls)
    (left : (State.ofKinds ks).StandsIn ks) :
    (read ls).toOption.map (Select.mapNames v.see)
      = (read ks).toOption.map (Select.mapNames v.see) := by
  rcases read_of_reworded h left with ⟨a, b, ha, hb, same⟩ | ⟨e, f, he, hf, -⟩
  · rw [ha, hb]
    exact congrArg some same.symm
  · rw [he, hf]
    rfl

end Grammar

/-- Texts whose tokens differ in names only are accepted alike, with
statements that differ in those names. -/
theorem parse_of_reworded {v : View} {source other : String} {tokens others : List Token}
    (h : tokenize source = .ok tokens) (hother : tokenize other = .ok others)
    (reworded : Reworded v (tokens.map Token.kind) (others.map Token.kind)) :
    (parse other).toOption.map (Select.mapNames v.see)
      = (parse source).toOption.map (Select.mapNames v.see) := by
  rw [toOption_parse h, toOption_parse hother]
  exact Grammar.toOption_read_of_reworded reworded (standsIn_of_tokenize h)

open Grammar (words_of_secondWord? mem_typeWords_of_secondWord?)

-- ======================================================= transparency

/-- The token, or the same word in double quotes if it spells no keyword and
is no part of a type name of several words. -/
inductive Kind.Quotes : Kind → Kind → Prop
  | same (k : Kind) : Quotes k k
  | word {w : String} (free : Keyword.ofWord? w = none) (other : w ∉ typeWords) :
    Quotes (.word w) (.quoted w)

section Transport

variable {R : Kind → Kind → Prop} (fixed : ∀ k l, R k l → k.Fixed → l = k)

include fixed

/-- Types go on where they did, if the words that count are left alone. -/
theorem SpansWords.transport
    (quoted : ∀ x l, R (.quoted x) l → x ∈ typeWords → l = .quoted x) {ks ls : List Kind}
    (h : List.Forall₂ R ks ls) (spans : SpansWords ks) : SpansWords ls := by
  cases spans with
  | @second _ _ second _ marks belongs =>
      obtain ⟨type, -⟩ := words_of_secondWord? belongs
      cases h with
      | cons mark h =>
      cases h with
      | cons first h =>
      cases h with
      | cons second h =>
          rw [fixed _ _ mark marks.fixed, quoted _ _ first type,
            fixed _ _ second (Kind.fixed_word (mem_typeWords_of_secondWord? belongs))]
          exact .second marks belongs
  | @zone _ name word config modifiers later marks timed hmodifiers hfirst =>
      cases h with
      | cons mark h =>
      cases h with
      | cons first h =>
          have words : ∀ k ∈ modifiers ++ [.word word, .word "time", .word "zone"], k.Fixed := by
            refine List.forall_mem_append.2 ⟨hmodifiers.fixed, fun k hk => ?_⟩
            simp only [List.mem_cons, List.not_mem_nil, or_false] at hk
            rcases hk with rfl | rfl | rfl
            · exact Kind.fixed_word (by rcases hfirst with rfl | rfl <;> decide)
            · exact Kind.fixed_word (by decide)
            · exact Kind.fixed_word (by decide)
          have split : modifiers ++ .word word :: .word "time" :: .word "zone" :: later
              = (modifiers ++ [.word word, .word "time", .word "zone"]) ++ later := by simp
          rw [split] at h
          obtain ⟨later', rfl⟩ := forall₂_fixed_append fixed h words
          have type : name ∈ typeWords := Timed.mem_typeWords timed
          rw [fixed _ _ mark marks.fixed, quoted _ _ first type, List.append_assoc]
          exact .zone marks timed hmodifiers hfirst

end Transport

namespace Kind.Quotes

variable {k l : Kind}

/-- No word of a text is the star, so quotes make no name the star. -/
theorem alike (h : k.Quotes l) (hk : k.Lexed) : k.Alike .whole l := by
  cases h with
  | same => exact .same k
  | @word w free other =>
      refine .plain (.word free other) (.quoted w) rfl (iff_of_false nofun fun star => ?_)
      obtain rfl := Kind.quoted.inj star
      exact (hk.2 '*' (by decide)).2 rfl

theorem eq_of_fixed (h : k.Quotes l) (fixed : k.Fixed) : l = k := by
  cases h with
  | same => rfl
  | word free other => exact absurd (.word free other) (fixed _)

theorem eq_of_fixed_right (h : k.Quotes l) (fixed : l.Fixed) : k = l := by
  cases h with
  | same => rfl
  | word => exact absurd (.quoted _) (fixed _)

end Kind.Quotes

theorem reworded_of_quotes {ks ls : List Kind} (h : List.Forall₂ Kind.Quotes ks ls)
    (lexed : ∀ k ∈ ks, k.Lexed) : Reworded .whole ks ls := by
  have alike : List.Forall₂ (Kind.Alike .whole) ks ls := by
    induction h with
    | nil => exact .nil
    | cons first _ ih =>
        obtain ⟨here, later⟩ := List.forall_mem_cons.1 lexed
        exact .cons (first.alike here) (ih later)
  refine ⟨alike, lexed, fun i => ⟨?_, ?_⟩⟩
  · refine SpansWords.transport (fun _ _ => Kind.Quotes.eq_of_fixed) ?_ (List.forall₂_drop i h)
    intro x l quotes type
    cases quotes
    rfl
  · refine SpansWords.transport (R := flip Kind.Quotes)
      (fun _ _ => Kind.Quotes.eq_of_fixed_right) ?_ (List.forall₂_drop i h).flip
    intro x l quotes type
    cases quotes with
    | same => rfl
    | word _ other => exact absurd type other

/-- Texts that differ in quotes around plain words spell the same statement,
or both spell none. -/
theorem parse_of_quotes {source other : String} {tokens others : List Token}
    (h : tokenize source = .ok tokens) (hother : tokenize other = .ok others)
    (quotes : List.Forall₂ Kind.Quotes (tokens.map Token.kind) (others.map Token.kind)) :
    (parse other).toOption = (parse source).toOption := by
  have same := parse_of_reworded h hother (reworded_of_quotes quotes (lexed_of_tokenize h))
  have whole : Select.mapNames View.whole.see = id := funext Select.mapNames_id
  rwa [whole, Option.map_id_fun, id, id] at same

/-- Quotes around plain words are transparent. If some words of a text that
spell no keyword and belong to no type name of several words are put in
double quotes, the outcome stays: the same statement, or a fault for the
same cause at the same tokens, up to whether the token found there is in
quotes. -/
theorem read_quotes {source : String} {tokens : List Token} {quoted : List Kind}
    (h : tokenize source = .ok tokens)
    (quotes : List.Forall₂ Kind.Quotes (tokens.map Token.kind) quoted) :
    (Grammar.read quoted).mapError (Grammar.Fault.seen id)
      = (Grammar.read (tokens.map Token.kind)).mapError (Grammar.Fault.seen id) := by
  have reworded := reworded_of_quotes quotes (lexed_of_tokenize h)
  rcases Grammar.read_of_reworded reworded (standsIn_of_tokenize h) with
    ⟨a, b, ha, hb, same⟩ | ⟨e, f, he, hf, same⟩
  · have same : a.mapNames id = b.mapNames id := same
    rw [Select.mapNames_id, Select.mapNames_id] at same
    rw [ha, hb, same]
  · rw [he, hf]
    exact congrArg Except.error same.symm

/-- A column, a table and a type that are put in quotes one by one. -/
theorem read_quotes_names :
    ∃ tokens, tokenize "select a, b::int from t where time" = .ok tokens
      ∧ List.Forall₂ Kind.Quotes (tokens.map Token.kind)
        [.word "select", .quoted "a", .symbol .comma, .word "b", .symbol .doubleColon,
          .quoted "int", .word "from", .quoted "t", .word "where", .word "time", .eof]
      ∧ (Grammar.read
          [.word "select", .quoted "a", .symbol .comma, .word "b", .symbol .doubleColon,
            .quoted "int", .word "from", .quoted "t", .word "where", .word "time", .eof]).mapError
            (Grammar.Fault.seen id)
        = (Grammar.read (tokens.map Token.kind)).mapError (Grammar.Fault.seen id) := by
  have lexed : (tokenize "select a, b::int from t where time").toOption.map (List.map Token.kind)
      = some [.word "select", .word "a", .symbol .comma, .word "b", .symbol .doubleColon,
        .word "int", .word "from", .word "t", .word "where", .word "time", .eof] := by
    decide +kernel
  obtain ⟨tokens, h, kinds⟩ := exists_of_toOption_map lexed
  have name {w : String} (free : Keyword.ofWord? w = none) (other : w ∉ typeWords) :
      (Kind.word w).Quotes (.quoted w) := .word free other
  have quotes : List.Forall₂ Kind.Quotes (tokens.map Token.kind)
      [.word "select", .quoted "a", .symbol .comma, .word "b", .symbol .doubleColon,
        .quoted "int", .word "from", .quoted "t", .word "where", .word "time", .eof] := by
    rw [kinds]
    refine .cons (.same _) (.cons (name ?_ ?_) (.cons (.same _) (.cons (.same _)
      (.cons (.same _) (.cons (name ?_ ?_) (.cons (.same _) (.cons (name ?_ ?_)
        (.cons (.same _) (.cons (.same _) (.cons (.same _) .nil)))))))))) <;> decide +kernel
  exact ⟨tokens, h, quotes, read_quotes h quotes⟩

-- ============================================================ opacity

/-- The token with a name in double quotes replaced by another. -/
def Kind.renamed (r : String → String) : Kind → Kind
  | .quoted name => .quoted (r name)
  | kind => kind

theorem reworded_renamed {r : String → String} {kinds : List Kind}
    (lexed : ∀ k ∈ kinds, k.Lexed)
    (star : ∀ x, x ≠ "" → (r x = Expr.star ↔ x = Expr.star))
    (spans : ∀ i, SpansWords (kinds.drop i)
      ↔ SpansWords ((kinds.map (Kind.renamed r)).drop i)) :
    Reworded .starOnly kinds (kinds.map (Kind.renamed r)) := by
  have alike {k : Kind} (hk : k.Lexed) : k.Alike .starOnly (k.renamed r) := by
    cases k with
    | quoted name =>
        have same := star name hk
        refine .plain (.quoted name) (.quoted (r name)) ?_ ?_
        · simp only [View.starOnly, same]
        · show Kind.quoted name = _ ↔ Kind.quoted (r name) = _
          rw [Kind.quoted.injEq, Kind.quoted.injEq, same]
    | _ => exact .same _
  refine ⟨?_, lexed, spans⟩
  rw [List.forall₂_map_right_iff, List.forall₂_same]
  exact fun k hk => alike (lexed k hk)

/-- Statements with the same names up to a view are the same without
names. -/
theorem map_nameless_of_map_mapNames {see : String → String} {a b : Option Select}
    (same : a.map (Select.mapNames see) = b.map (Select.mapNames see)) :
    a.map Select.nameless = b.map Select.nameless := by
  have nameless := congrArg (Option.map Select.nameless) same
  simpa only [Option.map_map, Function.comp_def, Select.nameless_mapNames] using nameless

/-- Texts that differ in the names in quotes spell statements that differ in
names, or both spell none. -/
theorem parse_of_renamed {source other : String} {tokens others : List Token}
    {r : String → String} (h : tokenize source = .ok tokens) (hother : tokenize other = .ok others)
    (renamed : others.map Token.kind = (tokens.map Token.kind).map (Kind.renamed r))
    (star : ∀ x, x ≠ "" → (r x = Expr.star ↔ x = Expr.star))
    (spans : ∀ i, SpansWords ((tokens.map Token.kind).drop i)
      ↔ SpansWords ((others.map Token.kind).drop i)) :
    (parse other).toOption.map Select.nameless = (parse source).toOption.map Select.nameless := by
  rw [renamed] at spans
  have reworded := reworded_renamed (lexed_of_tokenize h) star spans
  exact map_nameless_of_map_mapNames (parse_of_reworded h hother (renamed ▸ reworded))

/-- What stands in double quotes is opaque: other names in quotes change
neither whether a text is accepted nor the statement without its names, if
the star stays the star and types whose first word is in quotes go on at the
same places. -/
theorem read_renamed {source : String} {tokens : List Token} {r : String → String}
    (h : tokenize source = .ok tokens)
    (star : ∀ x, x ≠ "" → (r x = Expr.star ↔ x = Expr.star))
    (spans : ∀ i, SpansWords ((tokens.map Token.kind).drop i)
      ↔ SpansWords (((tokens.map Token.kind).map (Kind.renamed r)).drop i)) :
    (Grammar.read ((tokens.map Token.kind).map (Kind.renamed r))).toOption.map Select.nameless
      = (Grammar.read (tokens.map Token.kind)).toOption.map Select.nameless := by
  have reworded := reworded_renamed (lexed_of_tokenize h) star spans
  exact map_nameless_of_map_mapNames
    (Grammar.toOption_read_of_reworded reworded (standsIn_of_tokenize h))

/-- A type goes on behind one of few names. -/
theorem SpansWords.exists_mem {ks : List Kind} (h : SpansWords ks) :
    ∃ x ∈ typeWords, .quoted x ∈ ks := by
  cases h with
  | second _ belongs =>
      exact ⟨_, (words_of_secondWord? belongs).1, List.mem_cons_of_mem _ List.mem_cons_self⟩
  | zone _ timed =>
      exact ⟨_, Timed.mem_typeWords timed, List.mem_cons_of_mem _ List.mem_cons_self⟩

/-- Without such a name in quotes no type goes on anywhere. -/
theorem not_spansWords_drop {ks : List Kind} (free : ∀ x ∈ typeWords, .quoted x ∉ ks) (i : Nat) :
    ¬SpansWords (ks.drop i) := by
  intro spans
  obtain ⟨x, type, mem⟩ := spans.exists_mem
  exact free x type (List.mem_of_mem_drop mem)

/-- A column, its alias, a function, a type and a table that are all renamed
to a keyword. -/
theorem read_renamed_keyword :
    ∃ (tokens : List Token) (r : String → String),
      (∀ x, r x = if x = Expr.star then x else "select")
      ∧ tokenize "select \"f\"(\"a\"::\"int\") \"*\" from \"t\"" = .ok tokens
      ∧ (∀ x, x ≠ "" → (r x = Expr.star ↔ x = Expr.star))
      ∧ (∀ i, SpansWords ((tokens.map Token.kind).drop i)
        ↔ SpansWords (((tokens.map Token.kind).map (Kind.renamed r)).drop i))
      ∧ (Grammar.read ((tokens.map Token.kind).map (Kind.renamed r))).toOption.map Select.nameless
        = (Grammar.read (tokens.map Token.kind)).toOption.map Select.nameless := by
  have free : (tokenize "select \"f\"(\"a\"::\"int\") \"*\" from \"t\"").toOption.any fun tokens =>
      decide ((∀ x ∈ typeWords, .quoted x ∉ tokens.map Token.kind)
        ∧ ∀ x ∈ typeWords, .quoted x ∉ (tokens.map Token.kind).map
          (Kind.renamed fun x => if x = Expr.star then x else "select")) := by
    decide +kernel
  obtain ⟨tokens, h, holds⟩ := exists_of_toOption_any free
  obtain ⟨before, after⟩ := of_decide_eq_true holds
  have star : ∀ x : String, x ≠ "" →
      ((if x = Expr.star then x else "select") = Expr.star ↔ x = Expr.star) := by
    intro x _
    split
    next same => exact iff_of_true same same
    next other => exact iff_of_false (by decide) other
  have spans := fun i => iff_of_false (not_spansWords_drop before i) (not_spansWords_drop after i)
  exact ⟨tokens, _, fun _ => rfl, h, star, spans, read_renamed h star spans⟩

/-- The first word of a type of two words, in double quotes: under another
name the second word does not belong to it, and the text is refused. -/
theorem read_renamed_double :
    ∃ (tokens : List Token) (r : String → String),
      tokenize "select a from t where b::\"double\" precision" = .ok tokens
        ∧ (∀ x, x ≠ "" → r x ≠ "") ∧ (∀ x, x ≠ "" → (r x = Expr.star ↔ x = Expr.star))
        ∧ (Grammar.read (tokens.map Token.kind)).toOption.isSome = true
        ∧ (Grammar.read ((tokens.map Token.kind).map (Kind.renamed r))).toOption.isSome
          = false := by
  have outcomes : (tokenize "select a from t where b::\"double\" precision").toOption.map
      (fun tokens => ((Grammar.read (tokens.map Token.kind)).toOption.isSome,
        (Grammar.read ((tokens.map Token.kind).map (Kind.renamed fun x =>
          if x = "double" then "number" else x))).toOption.isSome)) = some (true, false) := by
    decide +kernel
  obtain ⟨tokens, h, both⟩ := exists_of_toOption_map outcomes
  obtain ⟨taken, refused⟩ := Prod.mk.inj both
  refine ⟨tokens, fun x => if x = "double" then "number" else x, h, fun x hx => ?_,
    fun x _ => ?_, taken, refused⟩
  · dsimp only
    split
    next => decide
    next => exact hx
  · dsimp only
    split
    next same => exact iff_of_false (by decide) (by rw [same]; decide)
    next => exact Iff.rfl

end SqlSelect
