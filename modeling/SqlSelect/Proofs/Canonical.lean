/-
Tokens and their canonical spelling.

Every kind of token but the numbers with a point or an exponent has one
spelling that says exactly what the token is: a symbol, a parameter or a word
in lower case stands for itself, a whole number is its digits, and a text
stands between quotes with the quotes in it doubled. Spellings with single
blanks between them are read back as the tokens they spell (`Divided.spelled`
takes such a text apart, whatever the spellings are).

For the texts in quotes there is no other spelling: what the scanner resolves
between two quotes comes back when its quotes are doubled again
(`Quotes.escape_of_unquote?`), so every such token of a text is spelled so.
-/
import SqlSelect.Proofs.Folding

namespace SqlSelect

open Text (lowercase)

-- =========================================================== quotes

/-- What is read up to the closing quote is the value with its quotes doubled,
and the quote. -/
theorem Quotes.escape_of_unquote? {quote : Char} : ∀ {cs value : List Char} {count : Nat},
    unquote? quote cs = some (value, count) → cs.take count = escape quote value ++ [quote]
  | [], _, _, h => nomatch h
  | [c], _, _, h => by
      rw [unquote?] at h
      split at h
      next closes =>
        cases h
        rw [closes]
        rfl
      next => cases h
  | c :: d :: more, _, _, h => by
      rw [unquote?] at h
      split at h
      next closes =>
        split at h
        next doubled =>
          obtain ⟨⟨value, count⟩, found, h⟩ := Option.map_eq_some_iff.1 h
          cases h
          have inner := escape_of_unquote? found
          simp [closes, doubled, escape, inner]
        next =>
          cases h
          simp [closes, escape]
      next other =>
        obtain ⟨⟨value, count⟩, found, h⟩ := Option.map_eq_some_iff.1 h
        cases h
        have inner := escape_of_unquote? found
        rw [List.take_succ_cons, inner]
        simp [escape, other]

/-- A text in quotes that is read as a whole is its value in quotes. -/
theorem Quotes.inQuotes_of_unquote? {quote : Char} {more later value : List Char}
    (h : unquote? quote (more ++ later) = some (value, more.length)) :
    quote :: more = inQuotes quote value := by
  have text := escape_of_unquote? h
  rw [List.take_left] at text
  rw [text]
  rfl

theorem Quotes.string_of_scanString {more later : List Char} {kind : Kind}
    (h : scanString (more ++ later) = .ok kind (more.length + 1)) :
    ∃ value, kind = .string value ∧ '\'' :: more = inQuotes '\'' value.toList := by
  unfold scanString at h
  split at h
  next value count found =>
    have width : count = more.length := Nat.succ.inj (congrArg Lexeme.length h)
    rw [width] at found
    refine ⟨String.ofList value, (Except.ok.inj (congrArg Lexeme.found h)).symm, ?_⟩
    rw [String.toList_ofList]
    exact inQuotes_of_unquote? found
  next => cases h

theorem Quotes.quoted_of_scanName {more later : List Char} {kind : Kind}
    (h : scanName (more ++ later) = .ok kind (more.length + 1)) :
    ∃ name, kind = .quoted name ∧ '"' :: more = inQuotes '"' name.toList := by
  unfold scanName at h
  split at h
  next => cases h
  next value count _ found =>
    have width : count = more.length := Nat.succ.inj (congrArg Lexeme.length h)
    rw [width] at found
    refine ⟨String.ofList value, (Except.ok.inj (congrArg Lexeme.found h)).symm, ?_⟩
    rw [String.toList_ofList]
    exact inQuotes_of_unquote? found
  next => cases h

/-- A number literal is read as a number. -/
theorem Numeral.kind_of_scan {cs : List Char} {kind : Kind} {length : Nat}
    (h : scan cs = .ok kind length) :
    (∃ value, kind = .integer value) ∨ ∃ value, kind = .numeric value := by
  obtain ⟨-, -, named, -⟩ := scan_eq_ok.1 h
  unfold kind? at named
  split at named
  · simp only at named
    split at named
    · exact Or.inl ⟨_, (Option.some.inj named).symm⟩
    · cases named
  · obtain ⟨value, -, same⟩ := Option.map_eq_some_iff.1 named
    exact Or.inr ⟨value, same.symm⟩

/-- A string and a quoted name are read from their values in quotes only. -/
theorem Lexeme.inQuotes_of_scan {word later : List Char} {kind : Kind} (filled : word ≠ [])
    (h : scan (word ++ later) = .ok kind word.length) :
    (∀ value, kind = .string value → word = inQuotes '\'' value.toList)
      ∧ ∀ name, kind = .quoted name → word = inQuotes '"' name.toList := by
  cases word with
  | nil => exact absurd rfl filled
  | cons c more =>
      cases (scan_ok.1 h : Scanned c (more ++ later) kind (more.length + 1)) with
      | number _ reads =>
          rcases Numeral.kind_of_scan reads with ⟨_, rfl⟩ | ⟨_, rfl⟩
          · exact ⟨nofun, nofun⟩
          · exact ⟨nofun, nofun⟩
      | symbol _ _ named =>
          subst named
          exact ⟨nofun, nofun⟩
      | string first reads =>
          obtain ⟨_, rfl, text⟩ := Quotes.string_of_scanString reads
          refine ⟨?_, nofun⟩
          rintro _ ⟨⟩
          rw [first, text]
      | name first reads =>
          obtain ⟨_, rfl, text⟩ := Quotes.quoted_of_scanName reads
          refine ⟨nofun, ?_⟩
          rintro _ ⟨⟩
          rw [first, text]
      | parameter _ _ reads =>
          obtain rfl := Except.ok.inj (congrArg Lexeme.found reads)
          exact ⟨nofun, nofun⟩
      | word _ _ _ reads =>
          obtain rfl := Except.ok.inj (congrArg Lexeme.found reads)
          exact ⟨nofun, nofun⟩

-- ========================================================== canonical

namespace Kind

/-- The kinds that have a canonical spelling. -/
def Canonical : Kind → Prop
  | .integer value => 0 ≤ value
  | .parameter name => IsParameter name
  | .word name => Lexeme.IsWord name.toList ∧ lowercase name.toList = name.toList
  | .quoted name => name ≠ ""
  | .string _ | .symbol _ => True
  | .numeric _ | .eof => False

/-- The canonical spelling of a token. The numbers with a point or an exponent
and the end of the input have none. -/
def canonical : Kind → List Char
  | .integer value => digitChars value.toNatClampNeg
  | .string value => inQuotes '\'' value.toList
  | .parameter name => name.toList
  | .word name => name.toList
  | .quoted name => inQuotes '"' name.toList
  | .symbol mark => mark.text.toList
  | .numeric _ | .eof => []

theorem Canonical.spells {kind : Kind} (h : kind.Canonical) : Spells kind.canonical kind := by
  cases kind with
  | integer value => exact spells_integer h
  | numeric value => exact h.elim
  | string value => exact spells_string value
  | parameter name => exact spells_parameter h
  | word name =>
      have spells := spells_letters h.1
      rwa [h.2, String.ofList_toList] at spells
  | quoted name => exact spells_quoted h
  | symbol mark => exact spells_symbol mark
  | eof => exact h.elim

end Kind

/-- Tokens as a text: their canonical spellings with single blanks between
them. -/
def canonicalText (kinds : List Kind) : List Char := [' '].intercalate (kinds.map Kind.canonical)

/-- Canonical spellings are exact. Any list of kinds that have one is what the
text of their spellings divides into, before the end of the input; and in any
text that divides into tokens, the text of a string or of a quoted name is its
canonical spelling. -/
theorem canonical_exact :
    (∀ kinds : List Kind, (∀ kind ∈ kinds, kind.Canonical) →
      ∃ tokens, tokenize (String.ofList (canonicalText kinds)) = .ok tokens
        ∧ tokens.map Token.kind = kinds ++ [.eof])
      ∧ ∀ source tokens, tokenize source = .ok tokens → ∀ token ∈ tokens,
        (∀ value, token.kind = .string value →
          Text.slice source.toList token.span.start token.span.stop
            = some (inQuotes '\'' value.toList))
        ∧ ∀ name, token.kind = .quoted name →
          Text.slice source.toList token.span.start token.span.stop
            = some (inQuotes '"' name.toList) := by
  constructor
  · intro kinds each
    exact tokenize_spelled Kind.canonical fun kind mem => (each kind mem).spells
  · intro source tokens htokens token mem
    have found : .ok token ∈ lexSteps source tokens.length := by
      rw [lexSteps_of_tokenize htokens]
      exact List.mem_map_of_mem mem
    by_cases last : token.kind = .eof
    · rw [last]
      exact ⟨nofun, nofun⟩
    · obtain ⟨word, later, slice, filled, reads⟩ := scanned_of_lexSteps found last
      obtain ⟨strings, names⟩ := Lexeme.inQuotes_of_scan filled reads
      rw [slice]
      exact ⟨fun value same => congrArg some (strings value same),
        fun name same => congrArg some (names name same)⟩

/-- A word with a letter of two bytes and a dollar sign, a string with a quote
and what would start comments, a name of nothing but quotes, and the largest
whole number. -/
theorem canonical_exact_quotes :
    ∃ kinds tokens, kinds = [.word "né$1", .string "it's--\n/*", .symbol .doubleColon,
        .quoted "''\"", .integer 9223372036854775807, .parameter "$10"]
      ∧ (∀ kind ∈ kinds, kind.Canonical)
      ∧ tokenize (String.ofList (canonicalText kinds)) = .ok tokens
      ∧ tokens.map Token.kind = kinds ++ [.eof]
      ∧ ∃ token ∈ tokens, token.kind = .string "it's--\n/*"
        ∧ Text.slice (String.ofList (canonicalText kinds)).toList token.span.start token.span.stop
          = some (inQuotes '\'' "it's--\n/*".toList) := by
  have word : Kind.Canonical (.word "né$1") :=
    ⟨⟨by decide +kernel, List.all_eq_true.1 (by decide +kernel)⟩, by decide +kernel⟩
  have parameter : Kind.Canonical (.parameter "$10") :=
    ⟨['1', '0'], by decide, List.all_eq_true.1 (by decide), rfl⟩
  have name : Kind.Canonical (.quoted "''\"") := by
    show "''\"" ≠ ""
    decide
  have number : Kind.Canonical (.integer 9223372036854775807) := by
    show (0 : Int64) ≤ 9223372036854775807
    decide
  have each : ∀ kind ∈ [Kind.word "né$1", .string "it's--\n/*", .symbol .doubleColon,
      .quoted "''\"", .integer 9223372036854775807, .parameter "$10"], kind.Canonical := by
    simp only [List.forall_mem_cons]
    exact ⟨word, trivial, trivial, name, number, parameter, nofun⟩
  obtain ⟨tokens, htokens, kinds⟩ := canonical_exact.1 _ each
  have string : Kind.string "it's--\n/*" ∈ tokens.map Token.kind := by
    simp [kinds]
  obtain ⟨token, mem, same⟩ := List.mem_map.1 string
  exact ⟨_, tokens, rfl, each, htokens, kinds, token, mem, same,
    (canonical_exact.2 _ _ htokens token mem).1 _ same⟩

end SqlSelect
