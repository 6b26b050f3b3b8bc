/-
What the tokens of a text can be.

`Kind.Lexed` says of each kind what reading it from a text guarantees:
numbers have no sign, names are not empty, a bare word is in lower case
and is no star. Every token of a text is of such a kind, and the end of
the input is the last of them and no other.

# Lower case

The table of lower case moves code points in runs. No run ends on a capital
letter or on a star (`Text.lowerRuns_beyond`), so that folding leaves neither
(`Text.isFolded_of_mem_lowerAfter`), and it never makes a word empty.
-/
import SqlSelect.Token.Lexer

namespace SqlSelect

open Text (isDigit lowerCode lowerRuns lowerChar lowerAfter lowercase)

-- ======================================================= lower case

namespace Text

/-- A character of a bare word in lower case: no capital letter, and no
star. -/
def IsFolded (c : Char) : Prop := c.isUpper = false ∧ c ≠ '*'

instance (c : Char) : Decidable (IsFolded c) := inferInstanceAs (Decidable (_ ∧ _))

/-- The capital letters by their code points. -/
theorem isUpper_iff {c : Char} : c.isUpper = true ↔ 65 ≤ c.toNat ∧ c.toNat ≤ 90 := by
  unfold Char.isUpper
  exact decide_eq_true_iff

/-- A code point that the runs move goes to `a` or beyond. -/
theorem lowerCode_eq_or_le (n : Nat) {runs : List CaseRun}
    (beyond : ∀ run ∈ runs, 97 ≤ (run.first : Int) + run.shift) :
    lowerCode runs n = n ∨ 97 ≤ lowerCode runs n := by
  induction runs with
  | nil => exact Or.inl rfl
  | cons run later ih =>
      unfold lowerCode
      split
      · exact ih fun r hr => beyond r (List.mem_cons_of_mem _ hr)
      · split
        next hin =>
          have := beyond run List.mem_cons_self
          right
          omega
        next => exact Or.inl rfl

/-- Every run of the lower-case mapping ends up at `a` or beyond. -/
theorem lowerRuns_beyond : ∀ run ∈ lowerRuns, 97 ≤ (run.first : Int) + run.shift := by
  decide +kernel

/-- A capital letter is moved. -/
theorem lowerCode_upper {n : Nat} (low : 65 ≤ n) (high : n ≤ 90) :
    lowerCode lowerRuns n = n + 32 := by
  unfold lowerRuns lowerCode
  rw [if_neg (by simp only; omega), if_pos ⟨by simpa using low, Nat.mod_one _⟩]
  simp only
  omega

/-- A number names the character with that code point; one that no character
has stands for the null character. -/
theorem toNat_ofNat_or (n : Nat) : (Char.ofNat n).toNat = n ∨ Char.ofNat n = Char.ofNat 0 := by
  unfold Char.ofNat
  by_cases valid : n.isValidChar
  · rw [dif_pos valid]
    exact Or.inl rfl
  · rw [dif_neg valid]
    exact Or.inr rfl

/-- A code point of `a` or beyond names a folded character. -/
theorem isFolded_ofNat {n : Nat} (beyond : 97 ≤ n) : IsFolded (Char.ofNat n) := by
  rcases toNat_ofNat_or n with code | null
  · constructor
    · rw [← Bool.not_eq_true, isUpper_iff, code]
      omega
    · intro star
      rw [star] at code
      simp at code
      omega
  · rw [null]
    decide

/-- The lower case of a character other than the star is folded. -/
theorem isFolded_of_mem_lowerChar {c d : Char} (hc : c ≠ '*') (hd : d ∈ lowerChar c) :
    IsFolded d := by
  unfold lowerChar at hd
  split at hd
  next =>
    rcases List.mem_cons.1 hd with rfl | hd
    · decide
    · obtain rfl := List.mem_singleton.1 hd
      decide
  next =>
    obtain rfl := List.mem_singleton.1 hd
    rcases lowerCode_eq_or_le c.toNat lowerRuns_beyond with same | beyond
    · rw [same, Char.ofNat_toNat]
      refine ⟨?_, hc⟩
      cases upper : c.isUpper with
      | false => rfl
      | true =>
          -- a capital letter would have been moved
          have range := isUpper_iff.1 upper
          rw [lowerCode_upper range.1 range.2] at same
          omega
    · exact isFolded_ofNat beyond

/-- The lower case of a text without stars is folded throughout. -/
theorem isFolded_of_mem_lowerAfter {before cs : List Char} (hcs : '*' ∉ cs) {d : Char}
    (hd : d ∈ lowerAfter before cs) : IsFolded d := by
  induction cs generalizing before with
  | nil => cases hd
  | cons c cs ih =>
      rw [lowerAfter] at hd
      rcases List.mem_append.1 hd with hd | hd
      · split at hd
        next =>
          obtain rfl := List.mem_singleton.1 hd
          split <;> decide
        next =>
          refine isFolded_of_mem_lowerChar ?_ hd
          rintro rfl
          exact hcs List.mem_cons_self
      · exact ih (fun star => hcs (List.mem_cons_of_mem _ star)) hd

/-- The lower case of a text is empty only if the text is. -/
theorem lowercase_ne_nil {cs : List Char} (hcs : cs ≠ []) : lowercase cs ≠ [] := by
  cases cs with
  | nil => exact absurd rfl hcs
  | cons c cs =>
      unfold lowercase
      rw [lowerAfter]
      split
      · simp
      · unfold lowerChar
        split <;> simp

end Text

-- ============================================================ kinds

/-- Whether a name is that of a positional parameter: a dollar sign and at
least one digit. -/
def IsParameter (name : String) : Prop :=
  ∃ digits : List Char, digits ≠ [] ∧ (∀ d ∈ digits, isDigit d = true)
    ∧ name = String.ofList ('$' :: digits)

/-- What reading a token from a text guarantees of its kind. -/
def Kind.Lexed : Kind → Prop
  | .integer value => 0 ≤ value
  | .numeric value => value.negative = false
  | .parameter name => IsParameter name
  | .word name => name ≠ "" ∧ ∀ c ∈ name.toList, Text.IsFolded c
  | .quoted name => name ≠ ""
  | .string _ | .symbol _ | .eof => True

namespace Lexeme

/-- Whether a lexeme, if it is a token, is one that a text can have; the
end of the input is no such token. -/
def Reads (lexeme : Lexeme) : Prop := ∀ kind, lexeme.found = .ok kind → kind.Lexed ∧ kind ≠ .eof

theorem reads_fault (fault : LexicalFault) (length : Nat) : Reads (.fault fault length) := by
  intro kind found
  cases found

theorem reads_ok {kind : Kind} {length : Nat} (lexed : kind.Lexed) (inner : kind ≠ .eof) :
    Reads (.ok kind length) := by
  intro kind' found
  cases found
  exact ⟨lexed, inner⟩

end Lexeme

/-- A numeral stands for a number without a sign. -/
theorem Numeral.lexed_of_kind? {n : Numeral} {kind : Kind} (h : n.kind? = some kind) :
    kind.Lexed ∧ kind ≠ .eof := by
  unfold kind? at h
  split at h
  next =>
    simp only at h
    split at h
    next small =>
      obtain rfl := Option.some.inj h
      refine ⟨?_, nofun⟩
      show 0 ≤ Int64.ofNat _
      rw [Int64.le_iff_toInt_le, Int64.toInt_ofNat_of_lt small]
      exact Int.natCast_nonneg _
    next => cases h
  next =>
    obtain ⟨value, hvalue, rfl⟩ := Option.map_eq_some_iff.1 h
    refine ⟨?_, nofun⟩
    simp only [Double.ofDecimal?, Option.dite_none_right_eq_some, Option.some.injEq] at hvalue
    obtain ⟨_, rfl⟩ := hvalue
    rfl

theorem Numeral.reads_scan (cs : List Char) : (Numeral.scan cs).Reads := by
  unfold Numeral.scan
  simp only
  split
  · exact Lexeme.reads_fault _ _
  · split
    · exact Lexeme.reads_fault _ _
    · split
      next kind hkind =>
        obtain ⟨lexed, inner⟩ := Numeral.lexed_of_kind? hkind
        exact Lexeme.reads_ok lexed inner
      next => exact Lexeme.reads_fault _ _

theorem Quotes.reads_scanString (later : List Char) : (Quotes.scanString later).Reads := by
  unfold Quotes.scanString
  split
  · exact Lexeme.reads_ok trivial nofun
  · exact Lexeme.reads_fault _ _

theorem Quotes.reads_scanName (later : List Char) : (Quotes.scanName later).Reads := by
  unfold Quotes.scanName
  split
  next => exact Lexeme.reads_fault _ _
  next value _ filled _ =>
    refine Lexeme.reads_ok ?_ nofun
    intro empty
    have : value = [] := by simpa using empty
    exact filled this
  next => exact Lexeme.reads_fault _ _

namespace Lexeme

theorem reads_scanParameter {later : List Char} (digit : later.head?.any isDigit = true) :
    (scanParameter later).Reads := by
  refine reads_ok ⟨later.takeWhile isDigit, ?_, ?_, rfl⟩ nofun
  · cases later with
    | nil => simp at digit
    | cons c cs =>
        have : isDigit c = true := by simpa using digit
        simp [this]
  · intro d hd
    exact List.all_eq_true.1 List.all_takeWhile d hd

/-- A bare word is not empty, and a star is not part of it. -/
theorem reads_scanWord {c : Char} {later : List Char} (start : startsWord c = true) :
    (scanWord (c :: later)).Reads := by
  have continues : continuesWord c = true := by
    simp only [startsWord, Bool.or_eq_true] at start
    simp only [continuesWord, Bool.or_eq_true]
    exact Or.inl (start.imp Or.inl id)
  have filled : (c :: later).takeWhile continuesWord ≠ [] := by simp [continues]
  have noStar : '*' ∉ (c :: later).takeWhile continuesWord := by
    intro star
    have : continuesWord '*' = true := List.all_eq_true.1 List.all_takeWhile _ star
    exact absurd this (by decide)
  refine reads_ok ⟨?_, ?_⟩ nofun
  · intro empty
    refine Text.lowercase_ne_nil filled ?_
    simpa using empty
  · intro d hd
    rw [String.toList_ofList] at hd
    exact Text.isFolded_of_mem_lowerAfter noStar hd

/-- Whatever is read before the end of a text is a token of a text. -/
theorem reads_scan {cs : List Char} (hcs : cs ≠ []) : (scan cs).Reads := by
  cases cs with
  | nil => exact absurd rfl hcs
  | cons c later =>
      rw [scan]
      split
      · exact Numeral.reads_scan _
      · split
        · exact reads_ok trivial nofun
        · split
          · exact Quotes.reads_scanString _
          · split
            · exact Quotes.reads_scanName _
            · split
              next digit => exact reads_scanParameter digit.2
              next =>
                split
                next start => exact reads_scanWord start
                next => exact reads_fault _ _

end Lexeme

-- =========================================================== tokens

namespace Scanner

/-- A step that finds something else than the end finds a token of a
text. -/
theorem lexed_of_step {s next : Scanner} {kind : Kind} {span : Span}
    (h : s.step = (⟨.ok kind, span⟩, next)) (inner : kind ≠ .eof) : kind.Lexed := by
  unfold step at h
  split at h
  next => cases h
  next count _ =>
    simp only [Prod.mk.injEq, Step.mk.injEq] at h
    obtain ⟨⟨found, -⟩, -⟩ := h
    cases hrest : (s.drop count).rest with
    | nil =>
        rw [hrest] at found
        cases found
        exact absurd rfl inner
    | cons c later =>
        rw [hrest] at found
        exact (Lexeme.reads_scan (List.cons_ne_nil c later) kind found).1

/-- The tokens from a place on: tokens of a text, and then the end. -/
theorem tokens_kinds {count : Nat} {s : Scanner} {tokens : List Token}
    (h : s.tokens count = .ok tokens) :
    ∃ body, tokens.map Token.kind = body ++ [.eof] ∧ ∀ k ∈ body, k.Lexed ∧ k ≠ .eof := by
  induction count generalizing s tokens with
  | zero =>
      obtain rfl := Except.ok.inj h
      exact ⟨[], rfl, nofun⟩
  | succ count ih =>
      rw [Scanner.tokens] at h
      split at h
      next => cases h
      next =>
        obtain rfl := Except.ok.inj h
        exact ⟨[], rfl, nofun⟩
      next kind span next inner hstep =>
        split at h
        next later hlater =>
          obtain rfl := Except.ok.inj h
          obtain ⟨body, hbody, lexed⟩ := ih hlater
          have inner : kind ≠ .eof := inner
          refine ⟨kind :: body, by simp [hbody], ?_⟩
          intro k hk
          rcases List.mem_cons.1 hk with rfl | hk
          · exact ⟨lexed_of_step hstep inner, inner⟩
          · exact lexed k hk
        next => cases h

end Scanner

/-- The kinds of the tokens of a text: kinds that a text can have, and then
the end of the input. -/
theorem tokenize_kinds {source : String} {tokens : List Token}
    (h : tokenize source = .ok tokens) :
    ∃ body, tokens.map Token.kind = body ++ [.eof] ∧ ∀ k ∈ body, k.Lexed ∧ k ≠ .eof := by
  unfold tokenize at h
  simp only at h
  split at h
  next found htokens =>
    obtain rfl := Except.ok.inj h
    exact Scanner.tokens_kinds htokens
  next => cases h

/-- Every token of a text is one that a text can have. -/
theorem lexed_of_tokenize {source : String} {tokens : List Token}
    (h : tokenize source = .ok tokens) : ∀ k ∈ tokens.map Token.kind, k.Lexed := by
  obtain ⟨body, hbody, lexed⟩ := tokenize_kinds h
  intro k hk
  rw [hbody] at hk
  rcases List.mem_append.1 hk with hk | hk
  · exact (lexed k hk).1
  · rw [List.mem_singleton.1 hk]
    trivial

end SqlSelect
