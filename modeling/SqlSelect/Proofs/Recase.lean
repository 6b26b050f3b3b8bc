/-
Letters in another case.

Bare words are folded when they are read, and the only letter that a number
can have is the one that marks its exponent. A text in which such letters are
written in the other case has therefore the same tokens, of the same kinds
and in the same places, and is parsed in the same way. What carries the proof
is that the scanner decides by characters that the case of a letter does not
change, also where a word ends another token.

# One token

The lemmas that end in `_alike` go through the scanner part by part. A string,
a name in quotes and a parameter keep their letters, so `Lexeme.scan_alike`
asks that a token of such a kind is the same text in both
(`Kind.Caseless` says which kinds are free).

# The whole text

Which letters may change is said by byte offset (`Recased`), and offsets mean
the same in both texts, since a letter has one byte in either case. The
induction of `Divided.recased` follows the pieces into which the text divides:
the filler before a token has no free offset, so it is the same in both, and
the token is read again at the same length.
-/
import SqlSelect.Proofs.Kinds
import SqlSelect.Proofs.Layout.Places
import SqlSelect.Proofs.Letters

namespace SqlSelect

open Text (byteLength Alike)

-- ========================================================== numbers

/-- A sign is no letter. -/
theorem Exponent.signOf_alike {a b : List Char} (h : Alike a b) : signOf a = signOf b := by
  cases a with
  | nil => rw [h.of_nil]
  | cons c a =>
      obtain ⟨d, b, rfl, letter, -⟩ := h.of_cons
      have plus : c = '+' ↔ d = '+' := Text.eq_iff_of_not_isAlpha letter (by decide)
      have minus : c = '-' ↔ d = '-' := Text.eq_iff_of_not_isAlpha letter (by decide)
      have none {e : Char} (more : List Char) (noPlus : e ≠ '+') (noMinus : e ≠ '-') :
          signOf (e :: more) = [] := by
        unfold signOf
        split
        next same => exact absurd (List.cons.inj same).1 noPlus
        next same => exact absurd (List.cons.inj same).1 noMinus
        next => rfl
      by_cases isPlus : c = '+'
      · rw [isPlus, plus.1 isPlus]
        rfl
      · by_cases isMinus : c = '-'
        · rw [isMinus, minus.1 isMinus]
          rfl
        · rw [none a isPlus isMinus, none b (mt plus.2 isPlus) (mt minus.2 isMinus)]

/-- The mark of an exponent is a letter, in either case. -/
theorem Exponent.mark_iff {c : Char} : c = 'e' ∨ c = 'E' ↔ c.toLower = 'e' := by
  constructor
  · rintro (rfl | rfl) <;> rfl
  · intro h
    have code := congrArg Char.toNat h
    rw [Text.toNat_toLower] at code
    rw [← Char.toNat_inj, ← Char.toNat_inj]
    have small : 'e'.toNat = 101 := rfl
    have capital : 'E'.toNat = 69 := rfl
    split at code <;> omega

/-- An exponent in another case differs in its mark. -/
theorem Exponent.read?_alike {a b : List Char} (h : Alike a b) :
    (read? a).map (fun e => (e.sign, e.digits)) = (read? b).map fun e => (e.sign, e.digits) := by
  cases a with
  | nil => rw [h.of_nil]
  | cons c a =>
      obtain ⟨d, b, rfl, letter, later⟩ := h.of_cons
      simp only [read?, mark_iff, letter, signOf_alike later]
      split
      · rw [Option.map_some, Option.map_some, (later.drop _).digits]
      · rfl

namespace Numeral

/-- Nor is the point before a fraction. -/
theorem readFraction?_alike {a b : List Char} (h : Alike a b) :
    readFraction? a = readFraction? b := by
  cases a with
  | nil => rw [h.of_nil]
  | cons c a =>
      obtain ⟨d, b, rfl, letter, later⟩ := h.of_cons
      have point : c = '.' ↔ d = '.' := Text.eq_iff_of_not_isAlpha letter (by decide)
      have none {e : Char} (more : List Char) (noPoint : e ≠ '.') :
          readFraction? (e :: more) = none := by
        unfold readFraction?
        split
        next same => exact absurd (List.cons.inj same).1 noPoint
        next => rfl
      by_cases isPoint : c = '.'
      · rw [isPoint, point.1 isPoint]
        exact congrArg some later.digits
      · rw [none a isPoint, none b (mt point.2 isPoint)]

/-- The numerals differ in the mark of their exponents at most. -/
structure Resembles (m n : Numeral) : Prop where
  whole : m.whole = n.whole
  fraction : m.fraction = n.fraction
  exponent : m.exponent.map (fun e => (e.sign, e.digits))
    = n.exponent.map fun e => (e.sign, e.digits)

/-- So numerals in either case differ in the mark of the exponent only. -/
theorem read_alike {a b : List Char} (h : Alike a b) : Resembles (read a) (read b) := by
  have whole : (read a).whole = (read b).whole := h.digits
  have behind := h.drop (read a).whole.length
  have fraction : (read a).fraction = (read b).fraction := by
    show readFraction? (a.drop (read a).whole.length)
        = readFraction? (b.drop (read b).whole.length)
    rw [← whole]
    exact readFraction?_alike behind
  refine ⟨whole, fraction, ?_⟩
  show (Exponent.read? ((a.drop (read a).whole.length).drop
      (fractionText (read a).fraction).length)).map _
    = (Exponent.read? ((b.drop (read b).whole.length).drop
      (fractionText (read b).fraction).length)).map _
  rw [← whole, ← fraction]
  exact Exponent.read?_alike (behind.drop _)

namespace Resembles

variable {m n : Numeral}

/-- What is asked of an exponent does not depend on its mark. -/
theorem exponent_map {α : Type} (h : Resembles m n) (f : List Char × List Char → α) :
    m.exponent.map (fun e => f (e.sign, e.digits))
      = n.exponent.map fun e => f (e.sign, e.digits) := by
  have same := congrArg (Option.map f) h.exponent
  rwa [Option.map_map, Option.map_map] at same

/-- Either both have an exponent or neither has. -/
theorem isNone_exponent (h : Resembles m n) : m.exponent.isNone = n.exponent.isNone := by
  have same := congrArg Option.isNone h.exponent
  rwa [Option.isNone_map, Option.isNone_map] at same

/-- They stand for the same number. -/
theorem kind?_eq (h : Resembles m n) : m.kind? = n.kind? := by
  have power : m.exponent.map Exponent.power = n.exponent.map Exponent.power :=
    h.exponent_map fun part =>
      if part.1 = ['-'] then -(digitsValue part.2 : Int) else digitsValue part.2
  unfold kind? isWhole
  rw [h.whole, h.fraction, h.isNone_exponent, power]

/-- Both lack the digits of an exponent, or neither does. -/
theorem lacksExponent_eq (h : Resembles m n) : m.lacksExponent = n.lacksExponent := by
  have same := congrArg (Option.any fun part => part.2.isEmpty) h.exponent
  rwa [Option.any_map, Option.any_map] at same

/-- They are of one length. -/
theorem length_text (h : Resembles m n) : m.text.length = n.text.length := by
  have exponent : m.exponent.map (fun e => e.text.length)
      = n.exponent.map fun e => e.text.length :=
    h.exponent_map fun part => (part.1 ++ part.2).length + 1
  have length (e : Option Exponent) :
      ((e.map Exponent.text).getD []).length = (e.map fun e => e.text.length).getD 0 := by
    cases e <;> rfl
  simp only [text, List.length_append, h.whole, h.fraction, length, exponent]

end Resembles

/-- A number is read from letters of either case. -/
theorem scan_alike {a b : List Char} {kind : Kind} {length : Nat} (h : Alike a b)
    (reads : scan a = .ok kind length) : scan b = .ok kind length := by
  obtain ⟨complete, apart, named, whole⟩ := scan_eq_ok.1 reads
  have resembles := read_alike h
  rw [resembles.length_text] at apart whole
  refine scan_eq_ok.2 ⟨resembles.lacksExponent_eq ▸ complete, ?_, resembles.kind?_eq ▸ named, whole⟩
  rw [← (h.drop _).head Text.blind_runsOn]
  exact apart

end Numeral

-- =========================================================== lexemes

/-- The kinds of token that letters of either case are read to: bare words,
and numbers, whose exponents are marked by a letter. -/
def Kind.Caseless : Kind → Prop
  | .word _ | .numeric _ => True
  | _ => False

instance : DecidablePred Kind.Caseless
  | .word _ | .numeric _ => isTrue trivial
  | .integer _ | .string _ | .parameter _ | .quoted _ | .symbol _ | .eof => isFalse id

namespace Lexeme

/-- No letter starts a number. -/
theorem startsNumber_alike {c d : Char} {a b : List Char} (letter : c.toLower = d.toLower)
    (h : Alike a b) : startsNumber c a = startsNumber d b := by
  have point : (c == '.') = (d == '.') := Text.blind_eq (by decide) c d letter
  unfold startsNumber
  rw [Text.blind_isDigit c d letter, point, h.head Text.blind_isDigit]

/-- A letter starts no symbol. -/
theorem symbol?_letter {c : Char} (letter : c.isAlpha = true) (more : List Char) :
    symbol? (c :: more) = none :=
  symbol?_eq_none rfl letter more

/-- And none is part of a symbol. -/
theorem symbol?_alike {c d : Char} {a b : List Char} (letter : c.toLower = d.toLower)
    (h : Alike a b) : symbol? (c :: a) = symbol? (d :: b) := by
  -- the second character of a symbol is no letter either
  have second {e : Char} {a b more : List Char} (h : Alike a b) (split : a = e :: more)
      (other : e.isAlpha = false) : ∃ more', b = e :: more' := by
    obtain ⟨e', more', rfl, same, -⟩ := (split ▸ h).of_cons
    exact ⟨more', by rw [Text.eq_of_not_isAlpha same other]⟩
  rcases Text.eq_or_isAlpha letter with rfl | ⟨first, first'⟩
  · rcases symbol?_cons c a with single | ⟨_, e, more, split, -, other, pair⟩
    · rcases symbol?_cons c b with single' | ⟨_, e, more, split, -, other, pair⟩
      · exact single.trans single'.symm
      · obtain ⟨more', split'⟩ := second h.symm split other
        rw [split, split', pair, pair]
    · obtain ⟨more', split'⟩ := second h split other
      rw [split, split', pair, pair]
  · rw [symbol?_letter first, symbol?_letter first']

/-- A parameter has digits only. -/
theorem scanParameter_alike {a b : List Char} (h : Alike a b) :
    scanParameter a = scanParameter b := by
  unfold scanParameter
  rw [h.digits]

/-- A word is folded to the same. -/
theorem scanWord_alike {a b : List Char} (h : Alike a b) : scanWord a = scanWord b := by
  have word := h.takeWhile Text.blind_continuesWord
  simp only [scanWord, Text.lowercase_alike word, word.length]

/-- A token is read again in either case, if it is of a kind that is, or is
left as it was. -/
theorem scan_alike {word later word' later' : List Char} {kind : Kind} (filled : word ≠ [])
    (alike : Alike word word') (behind : Alike later later')
    (kept : kind.Caseless ∨ word = word')
    (h : scan (word ++ later) = .ok kind word.length) :
    scan (word' ++ later') = .ok kind word.length := by
  cases word with
  | nil => exact absurd rfl filled
  | cons c w =>
      obtain ⟨d, w', rfl, letter, inner⟩ := alike.of_cons
      have whole : Alike (w ++ later) (w' ++ later') := inner.append behind
      have stop {quote : Char} (other : quote.isAlpha = false)
          (closed : later.head?.any (· == quote) = false) :
          later'.head?.any (· == quote) = false :=
        (behind.head (Text.blind_eq other)).symm.trans closed
      -- what is in quotes, and its quotes, are as they were
      have same (quoted : ¬kind.Caseless) : d = c ∧ w' = w := by
        have := List.cons.inj (kept.resolve_left quoted)
        exact ⟨this.1.symm, this.2.symm⟩
      refine scan_ok.2 ?_
      cases (scan_ok.1 h : Scanned c (w ++ later) kind (w.length + 1)) with
      | number starts reads =>
          exact .number ((startsNumber_alike letter whole).symm.trans starts)
            (Numeral.scan_alike (.cons letter whole) reads)
      | symbol other reads named =>
          exact .symbol ((startsNumber_alike letter whole).symm.trans other)
            ((symbol?_alike letter whole).symm.trans reads) named
      | string first reads =>
          obtain ⟨value, rfl⟩ := Quotes.kind_of_scanString reads
          obtain ⟨rfl, rfl⟩ := same id
          exact .string first (Quotes.scanString_before (stop (by decide)) reads)
      | name first reads =>
          obtain ⟨value, rfl⟩ := Quotes.kind_of_scanName reads
          obtain ⟨rfl, rfl⟩ := same id
          exact .name first (Quotes.scanName_before (stop (by decide)) reads)
      | parameter first digit reads =>
          have first' := (Text.eq_iff_of_not_isAlpha letter (by decide)).1 first
          exact .parameter first' ((whole.head Text.blind_isDigit).symm.trans digit)
            ((scanParameter_alike whole).symm.trans reads)
      | word other bare starts reads =>
          exact .word ((startsNumber_alike letter whole).symm.trans other)
            ((symbol?_alike letter whole).symm.trans bare)
            ((Text.blind_startsWord c d letter).symm.trans starts)
            ((scanWord_alike (.cons letter whole)).symm.trans reads)

end Lexeme

/-- No trivia starts where none started. -/
theorem Trivia.starts_alike {a b : List Char} (h : Alike a b) (starts : Starts a) : Starts b := by
  refine ⟨?_, fun line => starts.noLine ?_, fun block => starts.noBlock ?_⟩
  · intro c found
    cases b with
    | nil => cases found
    | cons d b =>
        obtain rfl : d = c := Option.some.inj found
        obtain ⟨e, a, rfl, letter, -⟩ := h.symm.of_cons
        rw [Text.blind_isBlank d e letter]
        exact starts.plain e rfl
  · exact h.symm.starts_with (by decide) line
  · exact h.symm.starts_with (by decide) block

-- ============================================================ texts

/-- The texts are the same but for letters at the byte offsets that are free,
which may be in another case. -/
def Recased (free : Nat → Prop) : Nat → List Char → List Char → Prop
  | _, [], [] => True
  | offset, c :: more, d :: more' =>
    (c = d ∨ free offset ∧ c.toLower = d.toLower)
      ∧ Recased free (offset + c.utf8Size) more more'
  | _, _, _ => False

/-- Whether the offset lies in a token that is read from letters of either
case. -/
def InCaseless (tokens : List Token) (offset : Nat) : Prop :=
  ∃ token ∈ tokens, token.kind.Caseless ∧ token.span.start ≤ offset ∧ offset < token.span.stop

instance Recased.decidable {free : Nat → Prop} [DecidablePred free] :
    ∀ offset a b, Decidable (Recased free offset a b)
  | _, [], [] => isTrue trivial
  | _, [], _ :: _ => isFalse id
  | _, _ :: _, [] => isFalse id
  | offset, c :: more, _ :: more' =>
    have : Decidable (Recased free (offset + c.utf8Size) more more') :=
      Recased.decidable (offset + c.utf8Size) more more'
    inferInstanceAs (Decidable (_ ∧ _))

instance (tokens : List Token) : DecidablePred (InCaseless tokens) := fun _ =>
  inferInstanceAs (Decidable (∃ token ∈ tokens, _ ∧ _))

namespace Recased

variable {free : Nat → Prop}

/-- Nothing is recased to nothing. -/
theorem of_nil {offset : Nat} {b : List Char} (h : Recased free offset [] b) : b = [] := by
  cases b with
  | nil => rfl
  | cons d b => cases h

/-- A first character is recased to a first character. -/
theorem of_cons {offset : Nat} {c : Char} {a b : List Char} (h : Recased free offset (c :: a) b) :
    ∃ d more, b = d :: more ∧ (c = d ∨ free offset ∧ c.toLower = d.toLower)
      ∧ Recased free (offset + c.utf8Size) a more := by
  cases b with
  | nil => cases h
  | cons d b => exact ⟨d, b, rfl, h⟩

/-- Where one text divides, so does the other. -/
theorem append {offset : Nat} {front back text : List Char}
    (h : Recased free offset (front ++ back) text) :
    ∃ front' back', text = front' ++ back' ∧ Recased free offset front front'
      ∧ Recased free (offset + byteLength front) back back' := by
  induction front generalizing offset text with
  | nil => exact ⟨[], text, rfl, trivial, h⟩
  | cons c front ih =>
      obtain ⟨d, text, rfl, same, rest⟩ := h.of_cons
      obtain ⟨front', back', rfl, first, second⟩ := ih rest
      refine ⟨d :: front', back', rfl, ⟨same, first⟩, ?_⟩
      rw [Text.byteLength_cons, ← Nat.add_assoc]
      exact second

/-- Texts that are recased are alike. -/
theorem alike {offset : Nat} {a b : List Char} (h : Recased free offset a b) : Alike a b := by
  induction a generalizing offset b with
  | nil =>
      rw [h.of_nil]
      exact .refl []
  | cons c a ih =>
      obtain ⟨d, b, rfl, same, rest⟩ := h.of_cons
      refine .cons ?_ (ih rest)
      rcases same with rfl | ⟨-, letter⟩
      · rfl
      · exact letter

/-- Where no offset is free nothing changes. -/
theorem eq_of_not_free {offset : Nat} {a b : List Char} (h : Recased free offset a b)
    (kept : ∀ i, offset ≤ i → i < offset + byteLength a → ¬free i) : a = b := by
  induction a generalizing offset b with
  | nil => exact h.of_nil.symm
  | cons c a ih =>
      obtain ⟨d, b, rfl, same, rest⟩ := h.of_cons
      have size := c.utf8Size_pos
      rw [Text.byteLength_cons] at kept
      have first : c = d := same.resolve_right fun changed =>
        kept offset (Nat.le_refl _) (by omega) changed.1
      rw [first, ih rest fun i low high => kept i (by omega) (by omega)]

end Recased

/-- A letter has one byte. -/
theorem Text.utf8Size_of_isAlpha {c : Char} (letter : c.isAlpha = true) : c.utf8Size = 1 := by
  have every : letters.all (·.utf8Size == 1) = true := rfl
  exact beq_iff_eq.1 (of_letters every letter)

/-- So has its other form. -/
theorem Text.utf8Size_alike {c d : Char} (h : c.toLower = d.toLower) :
    c.utf8Size = d.utf8Size := by
  rcases eq_or_isAlpha h with rfl | ⟨first, second⟩
  · rfl
  · rw [utf8Size_of_isAlpha first, utf8Size_of_isAlpha second]

/-- And the texts are of one length in bytes. -/
theorem Text.byteLength_alike {a b : List Char} (h : Alike a b) :
    byteLength a = byteLength b := by
  induction a generalizing b with
  | nil => rw [h.of_nil]
  | cons c a ih =>
      obtain ⟨d, b, rfl, letter, later⟩ := h.of_cons
      rw [byteLength_cons, byteLength_cons, utf8Size_alike letter, ih later]

/-- Lines and columns do not depend on the case of letters. -/
theorem Position.advance_alike {a b : List Char} (h : Alike a b) (p : Position) (bytes : Nat) :
    p.advance bytes a = p.advance bytes b := by
  induction a generalizing b p bytes with
  | nil => rw [h.of_nil]
  | cons c a ih =>
      obtain ⟨d, b, rfl, letter, later⟩ := h.of_cons
      have feed : c = '\n' ↔ d = '\n' := Text.eq_iff_of_not_isAlpha letter (by decide)
      have after : p.after c = p.after d := by
        unfold Position.after
        simp only [feed]
      rw [advance, advance, Text.utf8Size_alike letter, after, ih later]

/-- A text with letters of its bare words and numbers in another case divides
into the same tokens. -/
theorem Divided.recased {free : Nat → Prop} {text text' : List Char} {pieces : List Piece}
    (h : Divided text pieces) {offset : Nat} (recased : Recased free offset text text')
    (inside : ∀ i, offset ≤ i → free i → InCaseless (Piece.tokens offset pieces) i) :
    ∃ pieces', Divided text' pieces'
      ∧ Piece.tokens offset pieces' = Piece.tokens offset pieces := by
  induction h generalizing offset text' with
  | done trivia =>
      have same := recased.eq_of_not_free fun i low _ found => by
        obtain ⟨_, none, -⟩ := inside i low found
        cases none
      exact ⟨[], .done (same ▸ trivia), rfl⟩
  | @more gap word later kind pieces filler starts filled reads rest ih =>
      obtain ⟨gap', _, rfl, gapRecased, behindRecased⟩ := recased.append
      obtain ⟨word', later', rfl, wordRecased, laterRecased⟩ := behindRecased.append
      rw [Nat.add_assoc] at laterRecased
      -- an offset that is free lies in the word or in a token behind it
      have place (i : Nat) (low : offset ≤ i) (found : free i) :
          (kind.Caseless ∧ offset + byteLength gap ≤ i
              ∧ i < offset + (byteLength gap + byteLength word))
            ∨ InCaseless (Piece.tokens (offset + (byteLength gap + byteLength word)) pieces) i
              ∧ offset + (byteLength gap + byteLength word) ≤ i := by
        obtain ⟨token, mem, caseless, start, stop⟩ := inside i low found
        rcases List.mem_cons.1 mem with rfl | mem
        · exact Or.inl ⟨caseless, start, stop⟩
        · have behind := ((rest.ordered _).2 token mem).1
          exact Or.inr ⟨⟨token, mem, caseless, start, stop⟩, Nat.le_trans behind start⟩
      obtain rfl : gap = gap' := gapRecased.eq_of_not_free fun i low high found => by
        rcases place i low found with ⟨-, start, -⟩ | ⟨-, start⟩ <;> omega
      have kept : kind.Caseless ∨ word = word' := by
        refine Classical.or_iff_not_imp_left.2 fun other => ?_
        refine wordRecased.eq_of_not_free fun i low high found => ?_
        rcases place i (by omega) found with ⟨caseless, -⟩ | ⟨-, start⟩
        · exact other caseless
        · omega
      obtain ⟨pieces', divided, tokens⟩ := ih laterRecased fun i low found => by
        rcases place i (by omega) found with ⟨-, -, stop⟩ | ⟨within, -⟩
        · omega
        · exact within
      -- the token has as many characters as before, so what is behind it
      -- starts at the same place
      have length := wordRecased.alike.length
      have filled' : word' ≠ [] := by
        rw [← List.length_pos_iff, ← length, List.length_pos_iff]
        exact filled
      have reads' := Lexeme.scan_alike filled wordRecased.alike laterRecased.alike kept reads
      refine ⟨⟨gap, word', kind⟩ :: pieces', .more filler ?_ filled' (length ▸ reads') divided, ?_⟩
      · exact Trivia.starts_alike (wordRecased.alike.append laterRecased.alike) starts
      · have size := Text.byteLength_alike wordRecased.alike
        simp only [Piece.tokens, Piece.token, Piece.size, ← size]
        rw [tokens]

-- ============================================================ parses

/-- Letters of bare words and numbers may be written in either case: the
tokens are the same, in the same places, and so is the statement or the
error, with its place. -/
theorem parse_recased {source source' : String} {tokens : List Token}
    (h : tokenize source = .ok tokens)
    (recased : Recased (InCaseless tokens) 0 source.toList source'.toList) :
    tokenize source' = .ok tokens ∧ parse source' = parse source := by
  have alike := recased.alike
  have size := Text.byteLength_alike alike
  have h' : tokenize source' = .ok tokens := by
    obtain ⟨pieces, divided, rfl⟩ := divided_of_tokenize h
    obtain ⟨pieces', divided', same⟩ := divided.recased recased fun i _ found => by
      obtain ⟨token, mem, caseless, inside⟩ := found
      rcases List.mem_append.1 mem with mem | mem
      · exact ⟨token, mem, caseless, inside⟩
      · rw [List.mem_singleton.1 mem] at caseless
        exact caseless.elim
    rw [tokenize_of_divided divided', same, size]
  refine ⟨h', ?_⟩
  have located (cause : Cause) (span : Span) :
      Error.locate source'.toList cause span = Error.locate source.toList cause span := by
    unfold Error.locate Position.ofOffset
    rw [Position.advance_alike alike]
  have ending : Grammar.Reader.ending source' = Grammar.Reader.ending source := by
    unfold Grammar.Reader.ending
    rw [size]
  rw [parse, parse, parseReporting_eq h, parseReporting_eq h']
  cases Grammar.input (.ofKinds (tokens.map Token.kind)) with
  | ok statement after => rfl
  | error fault after =>
      simp only [Outcome.placed, Grammar.Fault.located, Grammar.Stretch.span, markOf, ending,
        located]

/-- Keywords, an exponent and the letter behind a capital sigma in another
case. -/
theorem parse_recased_sigma :
    ∃ tokens, tokenize "SELECT ΑΣb, 1e5, 'e' \"E\" FROM" = .ok tokens
      ∧ Recased (InCaseless tokens) 0 "SELECT ΑΣb, 1e5, 'e' \"E\" FROM".toList
          "select ΑΣB, 1E5, 'e' \"E\" froM".toList
      ∧ tokenize "select ΑΣB, 1E5, 'e' \"E\" froM" = .ok tokens
      ∧ parse "select ΑΣB, 1E5, 'e' \"E\" froM" = parse "SELECT ΑΣb, 1e5, 'e' \"E\" FROM" := by
  have found : (tokenize "SELECT ΑΣb, 1e5, 'e' \"E\" FROM").toOption.any (fun tokens =>
      decide (Recased (InCaseless tokens) 0 "SELECT ΑΣb, 1e5, 'e' \"E\" FROM".toList
        "select ΑΣB, 1E5, 'e' \"E\" froM".toList)) = true := by decide +kernel
  obtain ⟨tokens, h, holds⟩ := exists_of_toOption_any found
  have recased := of_decide_eq_true holds
  exact ⟨tokens, h, recased, @parse_recased "SELECT ΑΣb, 1e5, 'e' \"E\" FROM"
    "select ΑΣB, 1E5, 'e' \"E\" froM" tokens h recased⟩

end SqlSelect
