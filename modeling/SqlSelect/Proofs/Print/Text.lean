/-
Tokens written as text.

Each token has one spelling: keywords in upper case, names in double and
strings in single quotes, the quotes inside them doubled, whole numbers in
decimal. The spelling of other numbers is a parameter, of which nothing is
known but that the scanner reads it back. Tokens are set apart by a blank.
-/
import SqlSelect.Proofs.Lexed
import SqlSelect.Proofs.Print.Select

namespace SqlSelect

/-- A way to spell the numbers without a sign, each of which is read back as
one token. -/
structure DecimalSpelling where
  spell : Double → List Char
  reads_back : ∀ x : Double, x.negative = false →
    Lexeme.scan (spell x) = .ok (.numeric x) (spell x).length

/-- A text with each quote in it doubled. -/
def escape (quote : Char) (text : List Char) : List Char :=
  text.flatMap fun c => if c = quote then [quote, quote] else [c]

/-- A text between quotes. -/
def inQuotes (quote : Char) (text : List Char) : List Char :=
  quote :: (escape quote text ++ [quote])

/-- The spelling of a token. The end of the input has none. -/
def Kind.spelling (decimals : DecimalSpelling) : Kind → List Char
  | .integer value => digitChars value.toNatClampNeg
  | .numeric value => decimals.spell value
  | .string value => inQuotes '\'' value.toList
  | .parameter name => name.toList
  | .word name => name.toList.map Char.toUpper
  | .quoted name => inQuotes '"' name.toList
  | .symbol mark => mark.text.toList
  | .eof => []

/-- The spellings of tokens, with blanks between them. -/
def spellAll (decimals : DecimalSpelling) : List Kind → List Char
  | [] => []
  | [kind] => kind.spelling decimals
  | kind :: later => kind.spelling decimals ++ ' ' :: spellAll decimals later

/-- A statement as a text. -/
def Select.print (decimals : DecimalSpelling) (statement : Select) : String :=
  String.ofList (spellAll decimals statement.kinds)

-- ======================================================== spellable

/-- The kinds that have a spelling: keywords are the only bare words, and
numbers have no sign. -/
def Kind.Spellable : Kind → Prop
  | .word name => ∃ keyword : Keyword, name = keyword.word
  | .eof => False
  | kind => kind.Lexed

/-- Tokens that all have a spelling. -/
def Spellable (kinds : List Kind) : Prop := ∀ k ∈ kinds, k.Spellable

namespace Spellable

variable {ks ls : List Kind} {items : List (List Kind)}

theorem nil : Spellable [] := nofun

theorem cons {k : Kind} (first : k.Spellable) (more : Spellable ks) : Spellable (k :: ks) :=
  List.forall_mem_cons.2 ⟨first, more⟩

/-- What can be spelled is spelled behind each other. -/
theorem append (first : Spellable ks) (second : Spellable ls) : Spellable (ks ++ ls) :=
  List.forall_mem_append.2 ⟨first, second⟩

theorem symbol (symbol : Symbol) (more : Spellable ks) : Spellable (.symbol symbol :: ks) :=
  cons trivial more

theorem keyword (word : Keyword) (more : Spellable ks) : Spellable (word.kind :: ks) :=
  cons ⟨word, rfl⟩ more

/-- Keywords are. -/
theorem keywords (words : List Keyword) : Spellable (words.map Keyword.kind) := by
  intro k hk
  obtain ⟨word, -, rfl⟩ := List.mem_map.1 hk
  exact ⟨word, rfl⟩

/-- Parentheses are symbols. -/
theorem inParens (h : Spellable ks) : Spellable (inParens ks) :=
  symbol .leftParen (h.append (symbol .rightParen nil))

/-- So are commas. -/
theorem commas (each : ∀ item ∈ items, Spellable item) : Spellable (commas items) :=
  forall_commas trivial each

/-- With or without parentheses. -/
theorem wrapIf (wrapped : Bool) (h : Spellable ks) : Spellable (wrapIf wrapped ks) := by
  cases wrapped with
  | true => exact h.inParens
  | false => exact h

/-- The marks of an operator are symbols and keywords. -/
theorem marks (marks : List Mark) : Spellable (Mark.kinds marks) := by
  intro k hk
  obtain ⟨mark, -, rfl⟩ := List.mem_map.1 hk
  cases mark with
  | symbol symbol => trivial
  | keyword word => exact ⟨word, rfl⟩

end Spellable

end SqlSelect
