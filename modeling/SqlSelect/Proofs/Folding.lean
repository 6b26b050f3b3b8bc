/-
Which words act as keywords.

A bare word is folded to lower case before it is looked up among the
keywords. The folding knows the letters of all scripts, the table only the
letters A to Z, so the two have to be compared on every character. A letter
of another script is never folded into the characters that keywords are
spelled with, but for one: the Kelvin sign, whose lower case is the letter
k. With that sign read as the letter, a word is a keyword exactly when its
characters in the source are those of the keyword in either case.

What a step of the scanner finds is told by the text of its span
(`scanned_of_steps`), so this holds of every bare word that is found in a
text, also behind a fault.

# Comparing the tables

The table of lower case is a list of runs of code points. A run that starts
beyond the letters A to Z never ends among them (`Text.le_lowerCode`,
`Text.lowerRuns_stay`), save for the run of the Kelvin sign. Sigma is the one
letter whose lower case depends on its neighbours, and neither of its forms is
a letter of a keyword.

# From words to tokens

A word and a keyword are compared in upper case, character by character
(`Text.map_toUpper_eq_iff`); no two keywords are spelled alike
(`spelling_inj`), so a word is the keyword that it is spelled like.
-/
import SqlSelect.Proofs.Recase

namespace SqlSelect

open Text (byteLength lowerChar lowerCode lowerRuns lowerAfter lowercase)

namespace Text

-- ================================================ characters of keywords

/-- Whether keywords can be spelled with the character. -/
def spellsKeyword (c : Char) : Bool := c.isUpper || c == '_'

theorem spellsKeyword_of_mem {keyword : Keyword} {c : Char}
    (mem : c ∈ keyword.spelling.toList) : spellsKeyword c = true := by
  have every : Keyword.all.all (fun k => k.spelling.toList.all spellsKeyword) = true := by
    decide +kernel
  exact List.all_eq_true.1 (List.all_eq_true.1 every keyword keyword.mem_all) c mem

/-- Such characters are among the first 128. -/
theorem toNat_lt_of_spellsKeyword {c : Char} (h : spellsKeyword c = true) : c.toNat < 128 := by
  rcases Bool.or_eq_true_iff.1 h with upper | line
  · have := (isUpper_iff.1 upper).2
    omega
  · rw [eq_of_beq line]
    decide

/-- Only the letters A to Z have an upper case here. -/
theorem toUpper_of_le {c : Char} (beyond : 128 ≤ c.toNat) : c.toUpper = c := by
  unfold Char.toUpper
  apply dif_neg
  rintro ⟨-, high⟩
  have high : c.toNat ≤ 122 := high
  omega

theorem not_spellsKeyword_toUpper {c : Char} (beyond : 128 ≤ c.toNat) :
    spellsKeyword c.toUpper = false := by
  rw [toUpper_of_le beyond, Bool.eq_false_iff]
  intro spelled
  have := toNat_lt_of_spellsKeyword spelled
  omega

-- ====================================================== the Kelvin sign

/-- The Kelvin sign, which looks like a capital K and has its lower case. -/
def kelvin : Char := '\u212A'

/-- The character, with the Kelvin sign read as the letter. -/
def asLetter (c : Char) : Char := if c = kelvin then 'k' else c

theorem asLetter_of_ne {c : Char} (other : c ≠ kelvin) : asLetter c = c := if_neg other

theorem map_asLetter {word : List Char} (other : kelvin ∉ word) : word.map asLetter = word := by
  calc word.map asLetter = word.map id := by
        apply List.map_congr_left
        intro c mem
        apply asLetter_of_ne
        rintro rfl
        exact other mem
    _ = word := List.map_id word

/-- A code point beyond the first 128 that a run moves stays beyond them,
that of the Kelvin sign apart. -/
theorem le_lowerCode {n : Nat} (beyond : 128 ≤ n) (other : n ≠ kelvin.toNat)
    {runs : List CaseRun} (each : ∀ run ∈ runs, run.last < 128
      ∨ 128 ≤ (run.first : Int) + run.shift
      ∨ run.first = kelvin.toNat ∧ run.last = kelvin.toNat) : 128 ≤ lowerCode runs n := by
  induction runs with
  | nil => exact beyond
  | cons run later ih =>
      unfold lowerCode
      split
      · exact ih fun r mem => each r (List.mem_cons_of_mem _ mem)
      · split
        next inside =>
          rcases each run List.mem_cons_self with low | stays | ⟨first, last⟩
          · omega
          · omega
          · omega
        next => exact beyond

set_option maxRecDepth 8000 in
theorem lowerRuns_stay : ∀ run ∈ lowerRuns, run.last < 128
    ∨ 128 ≤ (run.first : Int) + run.shift
    ∨ run.first = kelvin.toNat ∧ run.last = kelvin.toNat := by
  decide

/-- A code point beyond the first 128 names no character of a keyword; one
that is no character stands for the null character. -/
theorem not_spellsKeyword_ofNat {n : Nat} (beyond : 128 ≤ n) :
    spellsKeyword (Char.ofNat n).toUpper = false := by
  rcases toNat_ofNat_or n with code | null
  · apply not_spellsKeyword_toUpper
    rwa [code]
  · rw [null]
    decide

-- ============================================================ folding

/-- What lower-casing makes of one character of a text. -/
def lowerHere (before : List Char) (c : Char) (later : List Char) : List Char :=
  if c = 'Σ' then [if meetsCased before && !meetsCased later then 'ς' else 'σ'] else lowerChar c

theorem lowerAfter_cons (before : List Char) (c : Char) (later : List Char) :
    lowerAfter before (c :: later) = lowerHere before c later ++ lowerAfter (c :: before) later :=
  rfl

/-- The first 128 characters come back in upper case. -/
theorem map_toUpper_lowerHere {c : Char} (low : c.toNat < 128) (before later : List Char) :
    (lowerHere before c later).map Char.toUpper = [c.toUpper] := by
  have every : ∀ n ∈ List.range 128, Char.ofNat n ≠ 'Σ'
      ∧ (lowerChar (Char.ofNat n)).map Char.toUpper = [(Char.ofNat n).toUpper] := by
    decide +kernel
  obtain ⟨other, same⟩ := every c.toNat (List.mem_range.2 low)
  rw [Char.ofNat_toNat] at other same
  rw [lowerHere, if_neg other, same]

set_option maxRecDepth 4000 in
theorem lowerHere_kelvin (before later : List Char) :
    lowerHere before kelvin later = ['k'] := by
  have other : kelvin ≠ 'Σ' := by decide
  rw [lowerHere, if_neg other]
  rfl

/-- Any other character but the Kelvin sign leaves one behind that spells no
keyword. -/
theorem exists_mem_lowerHere {c : Char} (beyond : 128 ≤ c.toNat) (other : c ≠ kelvin)
    (before later : List Char) :
    ∃ d ∈ lowerHere before c later, spellsKeyword d.toUpper = false := by
  unfold lowerHere
  split
  · split
    · exact ⟨'ς', List.mem_singleton_self _, by decide⟩
    · exact ⟨'σ', List.mem_singleton_self _, by decide⟩
  · unfold lowerChar
    split
    · exact ⟨'\u0307', by simp, by decide⟩
    · refine ⟨_, List.mem_singleton_self _, not_spellsKeyword_ofNat ?_⟩
      apply le_lowerCode beyond _ lowerRuns_stay
      intro same
      exact other (Char.toNat_inj.1 same)

/-- A character comes back in upper case, the Kelvin sign as the letter, or
it spells no keyword before and after. -/
theorem lowerHere_cases (before : List Char) (c : Char) (later : List Char) :
    (lowerHere before c later).map Char.toUpper = [(asLetter c).toUpper]
      ∨ (∃ d ∈ lowerHere before c later, spellsKeyword d.toUpper = false)
        ∧ spellsKeyword (asLetter c).toUpper = false := by
  by_cases sign : c = kelvin
  · left
    rw [sign, lowerHere_kelvin]
    rfl
  · rw [asLetter_of_ne sign]
    by_cases low : c.toNat < 128
    · exact Or.inl (map_toUpper_lowerHere low before later)
    · have beyond : 128 ≤ c.toNat := Nat.not_lt.1 low
      right
      exact ⟨exists_mem_lowerHere beyond sign before later, not_spellsKeyword_toUpper beyond⟩

/-- A word with a character that no keyword has spells none. -/
theorem map_toUpper_ne {spelling word : List Char} (plain : ∀ c ∈ spelling, spellsKeyword c = true)
    {d : Char} (mem : d ∈ word) (foreign : spellsKeyword d.toUpper = false) :
    word.map Char.toUpper ≠ spelling := by
  rintro rfl
  have spelled := plain d.toUpper (List.mem_map_of_mem mem)
  rw [foreign] at spelled
  cases spelled

/-- In upper case the folded word is the spelling of a keyword if and only if
the word is, with the Kelvin sign read as the letter. -/
theorem map_toUpper_lowerAfter {spelling : List Char}
    (plain : ∀ c ∈ spelling, spellsKeyword c = true) (before word : List Char) :
    (lowerAfter before word).map Char.toUpper = spelling
      ↔ (word.map asLetter).map Char.toUpper = spelling := by
  induction word generalizing before spelling with
  | nil => exact Iff.rfl
  | cons c word ih =>
      rcases lowerHere_cases before c word with same | ⟨⟨d, mem, foreign⟩, foreign'⟩
      · -- one character against one: the rest is the induction
        rw [lowerAfter_cons, List.map_append, same, List.singleton_append, List.map_cons,
          List.map_cons]
        cases spelling with
        | nil => simp
        | cons e spelling =>
            have tail := ih (fun d mem => plain d (List.mem_cons_of_mem _ mem)) (c :: before)
            rw [List.cons.injEq, List.cons.injEq, tail]
      · have left : (lowerAfter before (c :: word)).map Char.toUpper ≠ spelling :=
          map_toUpper_ne plain (List.mem_append_left _ mem) foreign
        have right : ((c :: word).map asLetter).map Char.toUpper ≠ spelling :=
          map_toUpper_ne plain List.mem_cons_self foreign'
        exact iff_of_false left right

theorem toNat_toUpper (c : Char) : c.toUpper.toNat
    = if 97 ≤ c.toNat ∧ c.toNat ≤ 122 then c.toNat - 32 else c.toNat := by
  have range : ('a'.val ≤ c.val ∧ c.val ≤ 'z'.val) ↔ 97 ≤ c.toNat ∧ c.toNat ≤ 122 := Iff.rfl
  unfold Char.toUpper
  by_cases small : 97 ≤ c.toNat ∧ c.toNat ≤ 122
  · rw [if_pos small, dif_pos (range.2 small)]
    show (c.val + ('A'.val - 'a'.val)).toNat = c.toNat - 32
    rw [UInt32.toNat_add]
    show (c.toNat + 4294967264) % 4294967296 = c.toNat - 32
    omega
  · rw [if_neg small, dif_neg fun h => small (range.1 h)]

/-- A character of a keyword is met in upper case by its two forms. -/
theorem toUpper_eq_iff {c d : Char} (spelled : spellsKeyword d = true) :
    c.toUpper = d ↔ c.toLower = d.toLower := by
  have code : 65 ≤ d.toNat ∧ d.toNat ≤ 90 ∨ d.toNat = 95 := by
    rcases Bool.or_eq_true_iff.1 spelled with upper | line
    · exact Or.inl (isUpper_iff.1 upper)
    · rw [eq_of_beq line]
      exact Or.inr rfl
  rw [← Char.toNat_inj, ← Char.toNat_inj, toNat_toUpper, toNat_toLower, toNat_toLower]
  split <;> split <;> split <;> omega

/-- To be a keyword in upper case is to be the keyword up to the case of
letters. -/
theorem map_toUpper_eq_iff {spelling : List Char}
    (plain : ∀ c ∈ spelling, spellsKeyword c = true) (word : List Char) :
    word.map Char.toUpper = spelling ↔ Alike word spelling := by
  induction spelling generalizing word with
  | nil => simp [Alike]
  | cons d spelling ih =>
      cases word with
      | nil => simp [Alike]
      | cons c word =>
          have first := toUpper_eq_iff (c := c) (plain d List.mem_cons_self)
          have later := ih (fun e mem => plain e (List.mem_cons_of_mem _ mem)) word
          unfold Alike at later ⊢
          rw [List.map_cons, List.map_cons, List.map_cons, List.cons.injEq, List.cons.injEq, first,
            later]

end Text

-- ============================================================= keywords

namespace Keyword

/-- Different keywords have different spellings. -/
theorem spelling_inj {k l : Keyword} (same : k.spelling = l.spelling) : k = l := by
  have words : k.word = l.word := by rw [word, word, same]
  have found := k.ofWord?_word
  rw [words, l.ofWord?_word] at found
  exact (Option.some.inj found).symm

theorem ofWord?_eq_some_iff {word : List Char} {keyword : Keyword} :
    ofWord? (String.ofList word) = some keyword
      ↔ word.map Char.toUpper = keyword.spelling.toList := by
  unfold ofWord?
  simp only [String.toList_ofList]
  constructor
  · intro found
    have same := List.find?_some found
    rw [beq_iff_eq] at same
    rw [same, String.toList_ofList]
  · intro same
    have here : keyword.spelling == String.ofList (word.map Char.toUpper) := by
      rw [same, String.ofList_toList]
      exact beq_self_eq_true _
    cases found : all.find? (fun k => k.spelling == String.ofList (word.map Char.toUpper)) with
    | none => exact absurd here (List.find?_eq_none.1 found keyword keyword.mem_all)
    | some other =>
        have first := List.find?_some found
        rw [beq_iff_eq] at first here
        rw [spelling_inj (first.trans here.symm)]

/-- Folding a word does not change the keyword that it is, with the Kelvin
sign read as the letter. -/
theorem ofWord?_lowercase (word : List Char) : ofWord? (String.ofList (lowercase word))
    = ofWord? (String.ofList (word.map Text.asLetter)) := by
  apply Option.ext
  intro keyword
  have plain : ∀ c ∈ keyword.spelling.toList, Text.spellsKeyword c = true :=
    fun c mem => Text.spellsKeyword_of_mem mem
  rw [ofWord?_eq_some_iff, ofWord?_eq_some_iff]
  exact Text.map_toUpper_lowerAfter plain [] word

theorem ofWord?_eq_some_iff_alike {word : List Char} {keyword : Keyword} :
    ofWord? (String.ofList word) = some keyword ↔ Text.Alike word keyword.spelling.toList := by
  rw [ofWord?_eq_some_iff]
  exact Text.map_toUpper_eq_iff (fun c mem => Text.spellsKeyword_of_mem mem) word

end Keyword

-- =========================================================== bare words

/-- A bare word is read from letters only, and folded. -/
theorem Lexeme.lowercase_of_scan {word later : List Char} {name : String} (filled : word ≠ [])
    (h : scan (word ++ later) = .ok (.word name) word.length) :
    name = String.ofList (lowercase word) := by
  cases word with
  | nil => exact absurd rfl filled
  | cons c more =>
      cases (scan_ok.1 h : Scanned c (more ++ later) (.word name) (more.length + 1)) with
      | number _ reads =>
          obtain ⟨-, -, named, -⟩ := Numeral.scan_eq_ok.1 reads
          unfold Numeral.kind? at named
          split at named
          · simp at named
          · simp at named
      | symbol _ _ named => cases named
      | string _ reads =>
          obtain ⟨value, same⟩ := Quotes.kind_of_scanString reads
          cases same
      | name _ reads =>
          obtain ⟨value, same⟩ := Quotes.kind_of_scanName reads
          cases same
      | parameter _ _ reads => cases congrArg Lexeme.found reads
      | word _ _ _ reads =>
          -- the letters that are read are as many as the word has, so they are the word
          have width : ((c :: (more ++ later)).takeWhile continuesWord).length
              = (c :: more).length := congrArg Lexeme.length reads
          have front : (c :: (more ++ later)).takeWhile continuesWord <+: (c :: more) ++ later :=
            List.takeWhile_prefix continuesWord
          have whole := (List.prefix_of_prefix_length_le front (List.prefix_append _ _)
            (Nat.le_of_eq width)).eq_of_length width
          have found := congrArg Lexeme.found reads
          rw [scanWord, whole] at found
          exact (Kind.word.inj (Except.ok.inj found)).symm

namespace Scanner

/-- What steps find in a text is read from the text of its span. -/
theorem scanned_of_steps {text front : List Char} {s : Scanner} {count : Nat} {found : Step}
    {kind : Kind} (whole : text = front ++ s.rest) (offset : s.offset = byteLength front)
    (mem : found ∈ s.steps count) (token : found.found = .ok kind) (inner : kind ≠ .eof) :
    ∃ word later, Text.slice text found.span.start found.span.stop = some word ∧ word ≠ []
      ∧ Lexeme.scan (word ++ later) = .ok kind word.length := by
  induction count generalizing s front with
  | zero => cases mem
  | succ count ih =>
      obtain ⟨offset', rest⟩ := s
      obtain ⟨first, next, hstep⟩ : ∃ first next, (Scanner.mk offset' rest).step = (first, next) :=
        ⟨_, _, rfl⟩
      rw [Scanner.steps, hstep] at mem
      rcases List.mem_cons.1 mem with rfl | mem
      · obtain ⟨_, span⟩ := found
        obtain rfl := token
        rcases text_of_step hstep with ⟨eof, -⟩ |
          ⟨-, gap, word, later, rfl, filler, starts, filled, reads⟩
        · exact absurd eof inner
        · rw [step_piece filler starts reads] at hstep
          have place : ((Piece.mk gap word kind).token offset').span = span :=
            congrArg (Step.span ∘ Prod.fst) hstep
          have offset : offset' = byteLength front := offset
          refine ⟨word, later, ?_, filled, reads⟩
          have slice := Text.slice_append (front ++ gap) word later
          rw [Text.byteLength_append, ← offset] at slice
          rw [whole, ← place]
          simpa [Piece.token, Piece.size, Nat.add_assoc] using slice
      · obtain ⟨-, passed, hrest, hoffset⟩ := passed_of_step hstep
        have whole' : text = (front ++ passed) ++ next.rest := by
          rw [whole, hrest, List.append_assoc]
        have offset' : next.offset = byteLength (front ++ passed) := by
          rw [hoffset, Text.byteLength_append]
          exact congrArg (· + byteLength passed) offset
        exact ih whole' offset' mem

/-- The steps from a place on pass the pieces and then find the end. -/
theorem steps_of_divided {text : List Char} {pieces : List Piece} (h : Divided text pieces)
    (offset : Nat) : (Scanner.mk offset text).steps (pieces.length + 1)
      = (Piece.tokens offset pieces ++ [endToken (offset + byteLength text)]).map
        fun token => ⟨.ok token.kind, token.span⟩ := by
  induction h generalizing offset with
  | done trivia =>
      rw [List.length_nil, Scanner.steps, step_end trivia]
      rfl
  | @more gap word later kind pieces filler starts filled reads rest ih =>
      rw [List.length_cons, Scanner.steps, step_piece filler starts reads]
      show _ :: (Scanner.mk _ later).steps (pieces.length + 1) = _
      rw [ih, endToken_piece]
      rfl

end Scanner

/-- The steps through a text without faults find its tokens. -/
theorem lexSteps_of_tokenize {source : String} {tokens : List Token}
    (h : tokenize source = .ok tokens) : lexSteps source tokens.length = tokens.map .ok := by
  obtain ⟨pieces, divided, rfl⟩ := divided_of_tokenize h
  have steps := Scanner.steps_of_divided divided 0
  rw [Nat.zero_add] at steps
  unfold lexSteps
  rw [List.length_append, Piece.length_tokens, List.length_singleton]
  show ((Scanner.mk 0 source.toList).steps (pieces.length + 1)).map _ = _
  rw [steps, List.map_map]
  rfl

/-- What a scanner finds in a text is read from the text of its span. -/
theorem scanned_of_lexSteps {source : String} {count : Nat} {token : Token}
    (found : .ok token ∈ lexSteps source count) (inner : token.kind ≠ .eof) :
    ∃ word later, Text.slice source.toList token.span.start token.span.stop = some word
      ∧ word ≠ [] ∧ Lexeme.scan (word ++ later) = .ok token.kind word.length := by
  unfold lexSteps at found
  obtain ⟨step, mem, same⟩ := List.mem_map.1 found
  split at same
  next kind hkind =>
    obtain rfl := Except.ok.inj same
    have whole : source.toList = [] ++ (Scanner.start source.toList).rest := rfl
    exact Scanner.scanned_of_steps whole rfl mem hkind inner
  next => cases same

/-- A bare word acts as a keyword exactly when its characters in the source
are those of the keyword in either case, the Kelvin sign being read as the
letter k. Without that sign it is looked up as it is written. -/
theorem keyword?_of_source {source : String} {count : Nat} {token : Token} {name : String}
    (found : .ok token ∈ lexSteps source count) (bare : token.kind = .word name) :
    ∃ word, Text.slice source.toList token.span.start token.span.stop = some word
      ∧ token.kind.keyword? = Keyword.ofWord? (String.ofList (word.map Text.asLetter))
      ∧ (∀ keyword, token.kind.keyword? = some keyword
        ↔ Text.Alike (word.map Text.asLetter) keyword.spelling.toList)
      ∧ (Text.kelvin ∉ word →
        token.kind.keyword? = Keyword.ofWord? (String.ofList word)) := by
  have inner : token.kind ≠ .eof := by
    rw [bare]
    exact nofun
  obtain ⟨word, later, slice, filled, reads⟩ := scanned_of_lexSteps found inner
  have folded : token.kind.keyword? = Keyword.ofWord? (String.ofList (word.map Text.asLetter)) := by
    rw [bare] at reads
    rw [bare, Lexeme.lowercase_of_scan filled reads]
    exact Keyword.ofWord?_lowercase word
  refine ⟨word, slice, folded, fun keyword => ?_, fun plain => ?_⟩
  · rw [folded]
    exact Keyword.ofWord?_eq_some_iff_alike
  · rw [folded, Text.map_asLetter plain]

/-- The word between two others is read with the Kelvin sign in it. -/
theorem keyword?_of_source_kelvin :
    ∃ count, .ok ⟨.word "like", ⟨2, 8⟩⟩ ∈ lexSteps "a LI\u212AE b" count
      ∧ Kind.word "like" = .word "like"
      ∧ ∃ word, Text.slice "a LI\u212AE b".toList 2 8 = some word
        ∧ (Kind.word "like").keyword? = Keyword.ofWord? (String.ofList (word.map Text.asLetter))
        ∧ (∀ keyword, (Kind.word "like").keyword? = some keyword
          ↔ Text.Alike (word.map Text.asLetter) keyword.spelling.toList)
        ∧ (Text.kelvin ∉ word →
          (Kind.word "like").keyword? = Keyword.ofWord? (String.ofList word)) := by
  have divides : (tokenize "a LI\u212AE b").toOption.map (fun tokens => tokens[1]?)
      = some (some ⟨.word "like", ⟨2, 8⟩⟩) := by decide +kernel
  obtain ⟨tokens, h, second⟩ := exists_of_toOption_map divides
  have found : .ok ⟨.word "like", ⟨2, 8⟩⟩ ∈ lexSteps "a LI\u212AE b" tokens.length := by
    rw [lexSteps_of_tokenize h]
    exact List.mem_map_of_mem (List.mem_of_getElem? second)
  exact ⟨tokens.length, found, rfl, keyword?_of_source found rfl⟩

/-- Such a word acts as a keyword and is none as it is written. -/
theorem keyword?_ne_source :
    ∃ token word, (lexSteps "LI\u212AE" 1).map Except.toOption = [some token]
      ∧ token.kind = .word "like"
      ∧ Text.slice "LI\u212AE".toList token.span.start token.span.stop = some word
      ∧ token.kind.keyword? = some .LIKE
      ∧ Keyword.ofWord? (String.ofList word) = none := by
  refine ⟨⟨.word "like", ⟨0, 6⟩⟩, ['L', 'I', Text.kelvin, 'E'], ?_, rfl, ?_, ?_, ?_⟩
  all_goals decide +kernel

end SqlSelect
