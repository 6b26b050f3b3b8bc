/-
The scanner reads the tokens that are spelled.

A spelling stands before a blank or at the end of the text (`Apart`), so
no token runs into the next one and no two of them make a comment. For
each kind the scanner reads the spelling and nothing more; the spellings
of several tokens are read one by one.

# By itself, and apart

What is read from a spelling by itself is read from it wherever it stands
apart, since no token goes on with a blank (`Spells.reads_apart`). So the
lemmas named `spells_…` run the scanner on the spelling alone. They go by the
ways in which a token is read (`Lexeme.Scanned`) and never unfold the order in
which the scanner tries them.

# Several tokens

Spellings with single blanks between them are the pieces of their text
(`Divided.spelled`), whatever the spelling is. Two kinds of text are made
that way: the one that is written for a statement, and the canonical text of
a list of tokens.
-/
import SqlSelect.Proofs.Layout.Pieces
import SqlSelect.Proofs.Print.Text

namespace SqlSelect

open Text (isDigit isBlank lowercase)

-- ============================================================ apart

/-- What follows a token: nothing, or a blank. -/
def Apart (later : List Char) : Prop := later = [] ∨ ∃ more, later = ' ' :: more

/-- Either may follow a token that stood at the end of its text. -/
theorem Apart.behind {later : List Char} (apart : Apart later) : Behind [] later := by
  rcases apart with rfl | ⟨more, rfl⟩
  · exact Or.inl rfl
  · exact .blank rfl [] more

/-- The characters spell the kind. -/
structure Spells (cs : List Char) (kind : Kind) : Prop where
  filled : cs ≠ []
  /-- They start with no blank and no comment. -/
  starts : Trivia.Starts cs
  reads : Lexeme.scan cs = .ok kind cs.length

namespace Spells

variable {cs later : List Char} {kind : Kind}

/-- No trivia starts where they stand apart. -/
theorem starts_apart (h : Spells cs kind) (apart : Apart later) : Trivia.Starts (cs ++ later) := by
  refine Trivia.starts_behind apart.behind h.filled ?_
  rw [List.append_nil]
  exact h.starts

/-- And the kind is read there. -/
theorem reads_apart (h : Spells cs kind) (apart : Apart later) :
    Lexeme.scan (cs ++ later) = .ok kind cs.length := by
  refine Lexeme.scan_behind apart.behind h.filled ?_
  rw [List.append_nil]
  exact h.reads

/-- So they are a piece of the text. -/
theorem divided (h : Spells cs kind) {gap : List Char} (filler : Filler gap) (apart : Apart later)
    {pieces : List Piece} (rest : Divided later pieces) :
    Divided (gap ++ (cs ++ later)) (⟨gap, cs, kind⟩ :: pieces) :=
  .more filler (h.starts_apart apart) h.filled (h.reads_apart apart) rest

end Spells

-- =========================================================== quotes

/-- The text between quotes is the text that was put there. -/
theorem unquote?_escape (quote : Char) (text : List Char) :
    Quotes.unquote? quote (escape quote text ++ [quote])
      = some (text, (escape quote text).length + 1) := by
  induction text with
  | nil => simp [escape, Quotes.unquote?]
  | cons c text ih =>
      by_cases doubled : c = quote
      · subst doubled
        have split : escape c (c :: text) = c :: c :: escape c text := by simp [escape]
        rw [split, List.cons_append, List.cons_append, Quotes.unquote?, if_pos rfl, if_pos rfl, ih]
        simp
      · have split : escape quote (c :: text) = c :: escape quote text := by
          simp [escape, doubled]
        rw [split, List.cons_append, Quotes.unquote?_cons doubled, ih]
        simp

theorem length_inQuotes (quote : Char) (text : List Char) :
    (inQuotes quote text).length = (escape quote text).length + 1 + 1 := by
  simp [inQuotes]

theorem spells_string (value : String) : Spells (inQuotes '\'' value.toList) (.string value) := by
  refine ⟨List.cons_ne_nil _ _, Trivia.starts_cons (by decide) _, Lexeme.scan_ok.2 (.string rfl ?_)⟩
  rw [length_inQuotes, Quotes.scanString, unquote?_escape]
  show Lexeme.ok (.string (String.ofList value.toList)) _ = _
  rw [String.ofList_toList]

/-- A name in quotes is not empty. -/
theorem spells_quoted {name : String} (filled : name ≠ "") :
    Spells (inQuotes '"' name.toList) (.quoted name) := by
  refine ⟨List.cons_ne_nil _ _, Trivia.starts_cons (by decide) _, Lexeme.scan_ok.2 (.name rfl ?_)⟩
  rw [length_inQuotes, Quotes.scanName, unquote?_escape]
  cases chars : name.toList with
  | nil => exact absurd (String.toList_eq_nil_iff.1 chars) filled
  | cons c cs =>
      show Lexeme.ok (.quoted (String.ofList (c :: cs))) _ = _
      rw [← chars, String.ofList_toList]

-- ========================================================== numbers

/-- A digit starts no trivia. -/
theorem plain_of_isDigit {c : Char} (digit : isDigit c = true) :
    c ≠ '-' ∧ c ≠ '/' ∧ isBlank c = false := by
  have other : ∀ d : Char, isDigit d = false → c ≠ d := by
    rintro d no rfl
    rw [digit] at no
    cases no
  exact ⟨other _ (by decide), other _ (by decide),
    not_isBlank_of_isMark (isMark_of_isDigit c digit)⟩

open Lexeme (startsNumber)

theorem startsNumber_of_isDigit {c : Char} (digit : isDigit c = true) (more : List Char) :
    startsNumber c more = true :=
  Bool.or_eq_true_iff.2 (Or.inl digit)

/-- A number that is read to its end is spelled. -/
theorem spells_number {c : Char} {more : List Char} {kind : Kind}
    (first : startsNumber c more = true)
    (h : Numeral.scan (c :: more) = .ok kind (c :: more).length) : Spells (c :: more) kind := by
  refine ⟨List.cons_ne_nil c more, Trivia.starts_cons ?_ more, Lexeme.scan_ok.2 (.number first h)⟩
  rcases Bool.or_eq_true_iff.1 first with digit | point
  · exact plain_of_isDigit digit
  · obtain rfl : c = '.' := eq_of_beq (Bool.and_eq_true_iff.1 point).1
    decide

theorem digitsValue_digitChars (n : Nat) : digitsValue (digitChars n) = n :=
  Nat.ofDigitChars_ten_toDigits

theorem isDigit_of_mem_digitChars {n : Nat} {c : Char} (h : c ∈ digitChars n) :
    isDigit c = true := by
  have digit := Nat.isDigit_of_mem_toDigits (by decide) (by decide) h
  simpa [isDigit, Char.isDigit, Char.le_def] using digit

/-- A whole number starts with a digit. -/
theorem digitChars_eq_cons (n : Nat) :
    ∃ c more, digitChars n = c :: more ∧ isDigit c = true := by
  cases digits : digitChars n with
  | nil => exact absurd digits Nat.toDigits_ne_nil
  | cons c more =>
      exact ⟨c, more, rfl, isDigit_of_mem_digitChars (digits ▸ List.mem_cons_self)⟩

/-- Digits are a numeral without a fraction and an exponent. -/
theorem Numeral.read_digits {cs : List Char} (digits : ∀ c ∈ cs, isDigit c = true) :
    read cs = ⟨cs, none, none⟩ := by
  simp only [read, takeWhile_all digits, List.drop_length]
  rfl

theorem Numeral.scan_digitChars {n : Nat} (small : n < twoTo 63) :
    scan (digitChars n) = .ok (.integer (Int64.ofNat n)) (digitChars n).length := by
  have text : Numeral.text ⟨digitChars n, none, none⟩ = digitChars n := by
    simp [Numeral.text, Numeral.fractionText]
  rw [scan_eq_ok, read_digits fun c => isDigit_of_mem_digitChars, text]
  refine ⟨rfl, by rw [List.drop_length]; rfl, ?_, rfl⟩
  show (if digitsValue (digitChars n) < twoTo 63 then _ else _) = _
  rw [digitsValue_digitChars, if_pos small]

theorem spells_integer {value : Int64} (positive : 0 ≤ value) :
    Spells (digitChars value.toNatClampNeg) (.integer value) := by
  have scan := Numeral.scan_digitChars value.toNatClampNeg_lt
  rw [Int64.ofNat_toNatClampNeg value positive] at scan
  obtain ⟨c, more, digits, digit⟩ := digitChars_eq_cons value.toNatClampNeg
  rw [digits] at scan ⊢
  exact spells_number (startsNumber_of_isDigit digit more) scan

/-- What the scanner reads as a number that is not whole starts like one. -/
theorem Lexeme.number_of_scan {c : Char} {more : List Char} {x : Double} {length : Nat}
    (h : scan (c :: more) = .ok (.numeric x) length) :
    startsNumber c more = true ∧ Numeral.scan (c :: more) = .ok (.numeric x) length := by
  cases scan_ok.1 h with
  | number starts reads => exact ⟨starts, reads⟩
  | symbol _ _ named => cases named
  | string _ reads => cases (Quotes.kind_of_scanString reads).choose_spec
  | name _ reads => cases (Quotes.kind_of_scanName reads).choose_spec
  | parameter _ _ reads => cases Except.ok.inj (congrArg found reads)
  | word _ _ _ reads => cases Except.ok.inj (congrArg found reads)

/-- The other numbers are spelled as the parameter spells them. -/
theorem spells_numeric (decimals : DecimalSpelling) {x : Double} (positive : x.negative = false) :
    Spells (decimals.spell x) (.numeric x) := by
  have read := decimals.reads_back x positive
  cases spelling : decimals.spell x with
  | nil =>
      rw [spelling] at read
      cases read
  | cons c more =>
      rw [spelling] at read
      obtain ⟨first, scan⟩ := Lexeme.number_of_scan read
      exact spells_number first scan

-- =========================================== parameters and symbols

theorem spells_parameter {name : String} (h : IsParameter name) :
    Spells name.toList (.parameter name) := by
  obtain ⟨digits, filled, inside, rfl⟩ := h
  have digit : digits.head?.any isDigit = true := by
    cases digits with
    | nil => exact absurd rfl filled
    | cons d digits => exact inside d List.mem_cons_self
  rw [String.toList_ofList]
  refine ⟨List.cons_ne_nil _ _, Trivia.starts_cons (by decide) _,
    Lexeme.scan_ok.2 (.parameter rfl digit ?_)⟩
  rw [Lexeme.scanParameter, takeWhile_all inside]
  rfl

theorem spells_symbol (symbol : Symbol) : Spells symbol.text.toList (.symbol symbol) := by
  refine ⟨?_, ⟨?_, ?_, ?_⟩, ?_⟩
  · cases symbol <;> exact List.cons_ne_nil _ _
  · cases symbol <;> exact fun _ found => Option.some.inj found ▸ rfl
  all_goals cases symbol <;> first | rfl | decide

-- ============================================================ words

namespace Lexeme

/-- The characters that symbols start with. -/
def symbolStarts : List Char :=
  ['<', '>', '!', '|', ':', '=', '+', '-', '*', '/', '%', '^', '(', ')', ',', ';', '.']

/-- A character of a sort that none of them is of starts no symbol. -/
theorem symbol?_eq_none {p : Char → Bool} (none : symbolStarts.any p = false) {c : Char}
    (h : p c = true) (more : List Char) : symbol? (c :: more) = .none := by
  have other : c ∉ symbolStarts := fun mem => List.any_eq_false.1 none c mem h
  unfold symbol?
  split
  case h_21 => rfl
  all_goals
    rename_i same
    obtain ⟨rfl, -⟩ := List.cons.inj same
    exact absurd (by decide) other

/-- Whether the characters have the shape of a bare word. -/
def IsWord (cs : List Char) : Prop :=
  cs.head?.any startsWord = true ∧ ∀ c ∈ cs, continuesWord c = true

/-- No digit starts a word. -/
theorem isDigit_of_startsWord {c : Char} (starts : startsWord c = true) : isDigit c = false := by
  have every : ∀ n ∈ List.range' 48 10, startsWord (Char.ofNat n) = false := by decide
  rw [Bool.eq_false_iff]
  intro digit
  have range : 48 ≤ c.toNat ∧ c.toNat ≤ 57 := by
    simpa [isDigit, Char.le_def, UInt32.le_iff_toNat_le] using digit
  have inside : c.toNat ∈ List.range' 48 10 := by
    rw [List.mem_range'_1]
    omega
  have plain := every c.toNat inside
  rw [Char.ofNat_toNat, starts] at plain
  cases plain

/-- What starts a word starts nothing else. -/
theorem plain_of_startsWord {c : Char} (starts : startsWord c = true) (more : List Char) :
    (c ≠ '-' ∧ c ≠ '/' ∧ isBlank c = false) ∧ startsNumber c more = false
      ∧ symbol? (c :: more) = none := by
  have other : ∀ d : Char, startsWord d = false → c ≠ d := by
    rintro d plain rfl
    rw [starts] at plain
    cases plain
  refine ⟨⟨other _ (by decide), other _ (by decide), ?_⟩, ?_, symbol?_eq_none rfl starts more⟩
  · exact not_isBlank_of_isMark (isMark_of_continuesWord c (continuesWord_of_startsWord starts))
  · unfold startsNumber
    rw [isDigit_of_startsWord starts, beq_false_of_ne (other '.' (by decide))]
    rfl

end Lexeme

/-- A bare word is read as what it folds to. -/
theorem spells_letters {cs : List Char} (shape : Lexeme.IsWord cs) :
    Spells cs (.word (String.ofList (lowercase cs))) := by
  obtain ⟨first, inside⟩ := shape
  cases cs with
  | nil => cases first
  | cons c more =>
      obtain ⟨plain, noNumber, noSymbol⟩ := Lexeme.plain_of_startsWord first more
      refine ⟨List.cons_ne_nil c more, Trivia.starts_cons plain more,
        Lexeme.scan_ok.2 (.word noNumber noSymbol first ?_)⟩
      rw [Lexeme.scanWord, takeWhile_all inside]

/-- The letters of a keyword make up a word, which in lower case is the
word of the keyword. -/
theorem word_of_spelling (keyword : Keyword) :
    Lexeme.IsWord (keyword.word.toList.map Char.toUpper)
      ∧ String.ofList (lowercase (keyword.word.toList.map Char.toUpper)) = keyword.word := by
  have every : ∀ keyword ∈ Keyword.all,
      (keyword.word.toList.map Char.toUpper).head?.any Lexeme.startsWord = true
        ∧ (keyword.word.toList.map Char.toUpper).all Lexeme.continuesWord = true
        ∧ String.ofList (lowercase (keyword.word.toList.map Char.toUpper)) = keyword.word := by
    decide +kernel
  obtain ⟨first, inside, folded⟩ := every keyword keyword.mem_all
  exact ⟨⟨first, List.all_eq_true.1 inside⟩, folded⟩

theorem spells_keyword (keyword : Keyword) :
    Spells (keyword.word.toList.map Char.toUpper) keyword.kind := by
  obtain ⟨shape, folded⟩ := word_of_spelling keyword
  have spells := spells_letters shape
  rwa [folded] at spells

/-- Every kind that has a spelling is read from it. -/
theorem Kind.Spellable.spells {kind : Kind} (decimals : DecimalSpelling)
    (h : kind.Spellable) : Spells (kind.spelling decimals) kind := by
  cases kind with
  | integer value => exact spells_integer h
  | numeric value => exact spells_numeric decimals h
  | string value => exact spells_string value
  | parameter name => exact spells_parameter h
  | word name =>
      obtain ⟨keyword, rfl⟩ := h
      exact spells_keyword keyword
  | quoted name => exact spells_quoted h
  | symbol symbol => exact spells_symbol symbol
  | eof => cases h

-- =========================================================== tokens

/-- Spellings with single blanks between them are the pieces of the text. -/
theorem Divided.spelled (spell : Kind → List Char) {kinds : List Kind}
    (each : ∀ kind ∈ kinds, Spells (spell kind) kind) {gap : List Char} (filler : Filler gap) :
    ∃ pieces, Divided (gap ++ [' '].intercalate (kinds.map spell)) pieces
      ∧ pieces.map Piece.kind = kinds := by
  induction kinds generalizing gap with
  | nil =>
      have skipped := Trivia.skip_filler filler 0 []
      rw [Nat.zero_add] at skipped
      refine ⟨[], .done ?_, rfl⟩
      show Trivia.skip 0 (gap ++ []) = .token (gap ++ []).length
      rw [skipped, List.append_nil]
      rfl
  | cons kind later ih =>
      have spells := each kind List.mem_cons_self
      -- behind the spelling stands the end, or the blank before the next
      cases later with
      | nil =>
          have whole := spells.divided filler (Or.inl rfl) (.done rfl)
          rw [List.append_nil] at whole
          refine ⟨[⟨gap, spell kind, kind⟩], ?_, rfl⟩
          rw [List.map_singleton, List.intercalate_singleton]
          exact whole
      | cons next later =>
          have blank : Filler [' '] := .blank rfl .nil
          obtain ⟨pieces, divided, kinds⟩ :=
            ih (fun k mem => each k (List.mem_cons_of_mem _ mem)) blank
          refine ⟨⟨gap, spell kind, kind⟩ :: pieces, ?_, ?_⟩
          · have apart : Apart ([' '] ++ [' '].intercalate ((next :: later).map spell)) :=
              Or.inr ⟨_, rfl⟩
            rw [List.map_cons, List.map_cons, List.intercalate_cons_cons, List.append_assoc]
            exact spells.divided filler apart divided
          · rw [List.map_cons, kinds]

/-- So their tokens are those that are spelled. -/
theorem tokenize_spelled (spell : Kind → List Char) {kinds : List Kind}
    (each : ∀ kind ∈ kinds, Spells (spell kind) kind) :
    ∃ tokens, tokenize (String.ofList ([' '].intercalate (kinds.map spell))) = .ok tokens
      ∧ tokens.map Token.kind = kinds ++ [.eof] := by
  obtain ⟨pieces, divided, same⟩ := Divided.spelled spell each .nil
  have text : Divided (String.ofList ([' '].intercalate (kinds.map spell))).toList pieces := by
    rw [String.toList_ofList]
    exact divided
  exact ⟨_, tokenize_of_divided text, by rw [map_kind_of_divided, same]⟩

/-- The spellings of tokens have single blanks between them. -/
theorem spellAll_eq (decimals : DecimalSpelling) (kinds : List Kind) :
    spellAll decimals kinds = [' '].intercalate (kinds.map (Kind.spelling decimals)) := by
  induction kinds with
  | nil => rfl
  | cons kind later ih =>
      cases later with
      | nil => exact (List.intercalate_singleton ..).symm
      | cons second later =>
          have blank : spellAll decimals (kind :: second :: later)
              = kind.spelling decimals ++ ' ' :: spellAll decimals (second :: later) := rfl
          rw [blank, ih]
          simp [List.intercalate_cons_cons]

/-- The tokens of a text that spells them. -/
theorem tokenize_spellAll (decimals : DecimalSpelling) {kinds : List Kind}
    (spellable : Spellable kinds) :
    ∃ tokens, tokenize (String.ofList (spellAll decimals kinds)) = .ok tokens
      ∧ tokens.map Token.kind = kinds ++ [.eof] := by
  rw [spellAll_eq]
  exact tokenize_spelled _ fun kind mem => (spellable kind mem).spells decimals

end SqlSelect
