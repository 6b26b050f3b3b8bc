/-
Where a token ends.

The scanner stops at the first character that a token cannot go on with
and looks no further. A token that has been read is therefore read again
wherever its characters stand before the same character as then, before one
that goes on with no token, such as a blank, or at the end of the text;
`Behind` says so of what follows. Each part of the scanner is shown to come
to the same there, provided that what it reads lies inside the token.

# Marks

The scanner asks for few characters: those that belong to words and numbers,
and some single ones. Together they are the marks (`isMark`), and no blank is
among them. Whatever stops the scanner at the character that was there stops
it at one that is no mark as well (`Behind.stops`), so the same goes for a run
(`Behind.takeWhile`) and for all that is made of runs.

# Which scanner reads

What reads a token is decided by its first characters, in an order that the
scanner goes through. `Lexeme.Scanned` lists the outcomes, each with the
conditions that put it there, and `Lexeme.scan_ok` says that they are all of
them. Nobody else unfolds that order.

# Bounds

What is read, be it a token or a fault, takes up a character at least and no
more of them than there are (`Lexeme.bounds_scan`).
-/
import SqlSelect.Proofs.Layout.Trivia
import SqlSelect.Proofs.Lexed

namespace SqlSelect

open Text (isDigit isBlank)

-- ============================================================ blanks

/-- Whether the scanner asks for the character anywhere: it belongs to words
and numbers, or is one of the marks. -/
def isMark (c : Char) : Bool :=
  Lexeme.continuesWord c || isDigit c || "'\"./*+-=<>|:".toList.contains c

/-- A code point in a table lies in one of its ranges. -/
theorem Text.exists_range {ranges : List (Nat × Nat)} {n : Nat} (h : inRanges ranges n = true) :
    ∃ range ∈ ranges, range.1 ≤ n ∧ n ≤ range.2 := by
  induction ranges with
  | nil => cases h
  | cons range later ih =>
      rw [inRanges] at h
      split at h
      next =>
        obtain ⟨found, given, inside⟩ := ih h
        exact ⟨found, List.mem_cons_of_mem _ given, inside⟩
      next high =>
        exact ⟨range, List.mem_cons_self, of_decide_eq_true h, Nat.not_lt.1 high⟩

/-- No blank is one of the characters that the scanner asks for. -/
theorem isMark_of_isBlank {c : Char} (blank : isBlank c = true) : isMark c = false := by
  have every : ∀ range ∈ Text.blankRanges, ∀ n ∈ List.range' range.1 (range.2 + 1 - range.1),
      isMark (Char.ofNat n) = false := by
    decide +kernel
  obtain ⟨range, given, low, high⟩ := Text.exists_range blank
  have inside : c.toNat ∈ List.range' range.1 (range.2 + 1 - range.1) := by
    rw [List.mem_range'_1]
    omega
  have found := every range given c.toNat inside
  rwa [Char.ofNat_toNat] at found

/-- So none of these is a blank. -/
theorem not_isBlank_of_isMark {c : Char} (mark : isMark c = true) : isBlank c = false := by
  rw [Bool.eq_false_iff]
  intro blank
  rw [isMark_of_isBlank blank] at mark
  cases mark

-- ============================================================ behind

/-- A run of characters ends before one that does not belong to it. -/
theorem takeWhile_run {p : Char → Bool} {cs later : List Char} (inside : ∀ c ∈ cs, p c = true)
    (stop : later.head?.any p = false) : (cs ++ later).takeWhile p = cs := by
  rw [List.takeWhile_append_of_pos inside]
  cases later with
  | nil => rw [List.takeWhile_nil, List.append_nil]
  | cons c later =>
      have outside : p c = false := stop
      rw [List.takeWhile_cons, outside]
      exact List.append_nil cs

/-- One that belongs to it up to its end is the run. -/
theorem takeWhile_all {p : Char → Bool} {cs : List Char} (inside : ∀ c ∈ cs, p c = true) :
    cs.takeWhile p = cs := by
  have run : (cs ++ []).takeWhile p = cs := takeWhile_run inside rfl
  rwa [List.append_nil] at run

/-- Where no text starts with a character of a kind, none follows. -/
theorem stop_of_cons {p : Char → Bool} {cs : List Char}
    (h : ∀ c more, cs = c :: more → p c = true → False) : cs.head?.any p = false := by
  cases cs with
  | nil => rfl
  | cons c more => exact Bool.eq_false_iff.2 (h c more rfl)

/-- What may follow a token that `seen` followed: text that starts with the
same character or with one that is no mark, or nothing. -/
def Behind (seen later : List Char) : Prop :=
  later.head? = seen.head? ∨ ∀ c ∈ later.head?, isMark c = false

namespace Behind

/-- A blank may stand behind any token. -/
theorem blank {c : Char} (h : isBlank c = true) (seen more : List Char) :
    Behind seen (c :: more) := by
  refine Or.inr ?_
  rintro _ ⟨⟩
  exact isMark_of_isBlank h

variable {seen later : List Char} (behind : Behind seen later)

include behind

/-- What does not go on with a character of a kind does not do so here. -/
theorem stops {p : Char → Bool} (marked : ∀ c, p c = true → isMark c = true)
    (stop : seen.head?.any p = false) : later.head?.any p = false := by
  rcases behind with same | unmarked
  · rw [same]
    exact stop
  · cases hlater : later.head? with
    | none => rfl
    | some c =>
        have plain := unmarked c hlater
        cases hp : p c with
        | false => exact hp
        | true =>
            rw [marked c hp] at plain
            cases plain

/-- A run that ends inside the token ends there again. -/
theorem takeWhile {p : Char → Bool} (marked : ∀ c, p c = true → isMark c = true) {w : List Char}
    (within : ((w ++ seen).takeWhile p).length ≤ w.length) :
    (w ++ later).takeWhile p = (w ++ seen).takeWhile p := by
  induction w with
  | nil =>
      have none {cs : List Char} (stop : cs.head?.any p = false) : cs.takeWhile p = [] := by
        have run : ([] ++ cs).takeWhile p = [] := takeWhile_run nofun stop
        exact run
      have stop : seen.head?.any p = false := by
        refine stop_of_cons fun c more split hp => ?_
        rw [List.nil_append, split, List.takeWhile_cons, hp] at within
        cases within
      rw [List.nil_append, List.nil_append, none stop, none (behind.stops marked stop)]
  | cons c w ih =>
      rw [List.cons_append, List.cons_append, List.takeWhile_cons, List.takeWhile_cons]
      split
      next hp =>
        rw [List.cons_append, List.takeWhile_cons, if_pos hp] at within
        rw [ih (Nat.le_of_succ_le_succ within)]
      next => rfl

end Behind

/-- Digits are marks. -/
theorem isMark_of_isDigit (c : Char) (h : isDigit c = true) : isMark c = true := by
  simp [isMark, h]

/-- So is what words go on with. -/
theorem isMark_of_continuesWord (c : Char) (h : Lexeme.continuesWord c = true) :
    isMark c = true := by
  simp [isMark, h]

/-- A word goes on with what starts one. -/
theorem Lexeme.continuesWord_of_startsWord {c : Char} (starts : startsWord c = true) :
    continuesWord c = true := by
  unfold startsWord at starts
  unfold continuesWord
  rcases Bool.or_eq_true_iff.1 starts with letter | line
  · simp [letter]
  · simp [line]

/-- So is each of the single ones. -/
theorem isMark_of_eq {d : Char} (mark : isMark d = true) (c : Char) (h : (c == d) = true) :
    isMark c = true := by
  rw [eq_of_beq h]
  exact mark

-- =========================================================== quotes

/-- The closing quote is counted, and it stands in the text. -/
theorem Quotes.unquote?_bounds {quote : Char} : ∀ {cs value : List Char} {count : Nat},
    unquote? quote cs = some (value, count) → 0 < count ∧ count ≤ cs.length
  | [], _, _, h => nomatch h
  | [c], _, _, h => by
      rw [unquote?] at h
      split at h
      next =>
        cases h
        exact ⟨Nat.one_pos, Nat.le_refl 1⟩
      next => cases h
  | c :: d :: more, _, _, h => by
      rw [unquote?] at h
      split at h
      next =>
        split at h
        next =>
          obtain ⟨⟨_, count⟩, found, h⟩ := Option.map_eq_some_iff.1 h
          cases h
          exact ⟨Nat.succ_pos _, Nat.add_le_add_right (unquote?_bounds found).2 2⟩
        next =>
          cases h
          exact ⟨Nat.one_pos, Nat.succ_pos _⟩
      next =>
        obtain ⟨⟨_, count⟩, found, h⟩ := Option.map_eq_some_iff.1 h
        cases h
        exact ⟨Nat.succ_pos _, Nat.succ_le_succ (unquote?_bounds found).2⟩

/-- A quote closes a text unless it is doubled. -/
theorem Quotes.unquote?_close {quote : Char} {cs value : List Char} :
    unquote? quote (quote :: cs) = some (value, 1)
      ↔ cs.head?.any (· == quote) = false ∧ value = [] := by
  cases cs with
  | nil => simp [unquote?, eq_comm]
  | cons d cs =>
      by_cases doubled : d = quote
      · subst doubled
        simp [unquote?]
      · simp only [unquote?, if_pos, if_neg doubled, List.head?_cons, Option.any_some,
          beq_false_of_ne doubled, true_and]
        simp [eq_comm]

/-- A character that is no quote is part of the text in quotes. -/
theorem Quotes.unquote?_cons {quote c : Char} (other : c ≠ quote) (cs : List Char) :
    unquote? quote (c :: cs)
      = (unquote? quote cs).map fun (value, count) => (c :: value, count + 1) := by
  cases cs with
  | nil => simp [unquote?, other]
  | cons d cs => rw [unquote?, if_neg other]

/-- The quote that closes a text closes it before any text that does not
double it. -/
theorem Quotes.unquote?_before {seen later : List Char} {quote : Char}
    (stop : seen.head?.any (· == quote) = false → later.head?.any (· == quote) = false) :
    ∀ {w value : List Char},
    unquote? quote (w ++ seen) = some (value, w.length) →
    unquote? quote (w ++ later) = some (value, w.length)
  | [], value, h => absurd (unquote?_bounds h).1 (Nat.lt_irrefl 0)
  | [c], value, h => by
      by_cases closes : c = quote
      · subst closes
        obtain ⟨closed, hvalue⟩ := unquote?_close.1 h
        exact unquote?_close.2 ⟨stop closed, hvalue⟩
      · rw [List.cons_append, unquote?_cons closes] at h
        obtain ⟨⟨_, count⟩, found, same⟩ := Option.map_eq_some_iff.1 h
        have zero : count + 1 = 1 := congrArg Prod.snd same
        have := (unquote?_bounds found).1
        omega
  | c :: d :: w, value, h => by
      by_cases closes : c = quote
      · subst closes
        simp only [List.cons_append] at h ⊢
        rw [unquote?, if_pos rfl] at h ⊢
        split at h
        next doubled =>
          obtain ⟨⟨inner, count⟩, found, same⟩ := Option.map_eq_some_iff.1 h
          have length : count = w.length := by
            have : count + 2 = w.length + 1 + 1 := congrArg Prod.snd same
            omega
          rw [length] at found
          rw [if_pos doubled, unquote?_before stop found, Option.map_some, ← same, length]
        next =>
          have length : 1 = w.length + 1 + 1 := congrArg Prod.snd (Option.some.inj h)
          omega
      · rw [List.cons_append, unquote?_cons closes] at h ⊢
        obtain ⟨⟨inner, count⟩, found, same⟩ := Option.map_eq_some_iff.1 h
        have length : count = (d :: w).length := by
          have : count + 1 = w.length + 1 + 1 := congrArg Prod.snd same
          rw [List.length_cons]
          omega
        rw [length] at found
        rw [unquote?_before stop found, Option.map_some, ← same, length]

/-- A string that has been read is read again. -/
theorem Quotes.scanString_before {seen later w : List Char} {kind : Kind}
    (stop : seen.head?.any (· == '\'') = false → later.head?.any (· == '\'') = false)
    (h : scanString (w ++ seen) = .ok kind (w.length + 1)) :
    scanString (w ++ later) = .ok kind (w.length + 1) := by
  unfold scanString at h ⊢
  cases hread : unquote? '\'' (w ++ seen) with
  | none =>
      rw [hread] at h
      cases h
  | some found =>
      obtain ⟨value, count⟩ := found
      rw [hread] at h
      obtain rfl : count = w.length := Nat.succ.inj (congrArg Lexeme.length h)
      rw [unquote?_before stop hread]
      exact h

/-- So is a name. -/
theorem Quotes.scanName_before {seen later w : List Char} {kind : Kind}
    (stop : seen.head?.any (· == '"') = false → later.head?.any (· == '"') = false)
    (h : scanName (w ++ seen) = .ok kind (w.length + 1)) :
    scanName (w ++ later) = .ok kind (w.length + 1) := by
  unfold scanName at h ⊢
  cases hread : unquote? '"' (w ++ seen) with
  | none =>
      rw [hread] at h
      cases h
  | some found =>
      obtain ⟨value, count⟩ := found
      rw [hread] at h
      cases value with
      | nil => cases h
      | cons c value =>
          obtain rfl : count = w.length := Nat.succ.inj (congrArg Lexeme.length h)
          rw [unquote?_before stop hread]
          exact h

/-- What is read behind a single quote is a string. -/
theorem Quotes.kind_of_scanString {more : List Char} {kind : Kind} {length : Nat}
    (h : scanString more = .ok kind length) : ∃ value, kind = .string value := by
  unfold scanString at h
  split at h
  next =>
    cases h
    exact ⟨_, rfl⟩
  next => cases h

/-- What is read behind a double quote is a name. -/
theorem Quotes.kind_of_scanName {more : List Char} {kind : Kind} {length : Nat}
    (h : scanName more = .ok kind length) : ∃ name, kind = .quoted name := by
  unfold scanName at h
  split at h
  next => cases h
  next =>
    cases h
    exact ⟨_, rfl⟩
  next => cases h

-- ========================================================== numbers

namespace Behind

variable {seen later : List Char} (behind : Behind seen later)

include behind

/-- A fraction that ends inside the token ends there again. -/
theorem readFraction? {w : List Char}
    (within : (Numeral.fractionText (Numeral.readFraction? (w ++ seen))).length ≤ w.length) :
    Numeral.readFraction? (w ++ later) = Numeral.readFraction? (w ++ seen) := by
  have none {cs : List Char} (stop : cs.head?.any (· == '.') = false) :
      Numeral.readFraction? cs = none := by
    unfold Numeral.readFraction?
    split
    next => cases stop
    next => rfl
  cases w with
  | nil =>
      have stop : seen.head?.any (· == '.') = false := by
        refine stop_of_cons fun c more split point => ?_
        rw [List.nil_append, split, eq_of_beq point] at within
        cases within
      rw [List.nil_append, List.nil_append, none stop,
        none (behind.stops (isMark_of_eq (by decide)) stop)]
  | cons c w =>
      by_cases point : c = '.'
      · subst point
        exact congrArg some (behind.takeWhile isMark_of_isDigit (Nat.le_of_succ_le_succ within))
      · have other (more : List Char) : ((c :: more).head?.any (· == '.')) = false :=
          beq_false_of_ne point
        exact (none (other _)).trans (none (other _)).symm

/-- So does the sign of an exponent. -/
theorem signOf {w : List Char} (within : (Exponent.signOf (w ++ seen)).length ≤ w.length) :
    Exponent.signOf (w ++ later) = Exponent.signOf (w ++ seen) := by
  have none {cs : List Char} (stop : cs.head?.any (fun c => c == '+' || c == '-') = false) :
      Exponent.signOf cs = [] := by
    unfold Exponent.signOf
    split
    next => cases stop
    next => cases stop
    next => rfl
  have sign {c : Char} (h : (c == '+' || c == '-') = true) (more : List Char) :
      Exponent.signOf (c :: more) = [c] := by
    rcases Bool.or_eq_true_iff.1 h with plus | minus
    · rw [eq_of_beq plus]
      rfl
    · rw [eq_of_beq minus]
      rfl
  cases w with
  | nil =>
      have marked : ∀ c, (c == '+' || c == '-') = true → isMark c = true := by
        intro c h
        rcases Bool.or_eq_true_iff.1 h with plus | minus
        · exact isMark_of_eq (by decide) c plus
        · exact isMark_of_eq (by decide) c minus
      have stop : seen.head?.any (fun c => c == '+' || c == '-') = false := by
        refine stop_of_cons fun c more split found => ?_
        rw [List.nil_append, split, sign found] at within
        cases within
      rw [List.nil_append, List.nil_append, none stop, none (behind.stops marked stop)]
  | cons c w =>
      cases found : (c == '+' || c == '-') with
      | true => exact (sign found _).trans (sign found _).symm
      | false =>
          have stop (more : List Char) :
              (c :: more).head?.any (fun c => c == '+' || c == '-') = false := found
          exact (none (stop _)).trans (none (stop _)).symm

/-- And the whole exponent, or none is there again. -/
theorem exponent {w : List Char}
    (within : ∀ e, Exponent.read? (w ++ seen) = some e → e.text.length ≤ w.length) :
    Exponent.read? (w ++ later) = Exponent.read? (w ++ seen) := by
  cases w with
  | nil =>
      have marked : ∀ c, (c == 'e' || c == 'E') = true → isMark c = true := by
        intro c h
        rcases Bool.or_eq_true_iff.1 h with small | capital
        · exact isMark_of_eq (by decide) c small
        · exact isMark_of_eq (by decide) c capital
      have stop {cs : List Char} : Exponent.read? cs = none
          ↔ cs.head?.any (fun c => c == 'e' || c == 'E') = false := by
        cases cs <;> simp [Exponent.read?]
      have absent : Exponent.read? seen = none := by
        cases found : Exponent.read? seen with
        | none => rfl
        | some e => cases within e found
      rw [List.nil_append, List.nil_append, absent]
      exact stop.2 (behind.stops marked (stop.1 absent))
  | cons c w =>
      simp only [List.cons_append, Exponent.read?] at within ⊢
      split
      next marked =>
        have whole := within _ (if_pos marked)
        simp only [Exponent.text, List.length_cons, List.length_append] at whole
        have inner : (Exponent.signOf (w ++ seen)).length ≤ w.length := by omega
        have sign := behind.signOf inner
        rw [List.drop_append_of_le_length inner] at whole
        have digits := behind.takeWhile (w := w.drop (Exponent.signOf (w ++ seen)).length)
          isMark_of_isDigit (by rw [List.length_drop]; omega)
        rw [sign, List.drop_append_of_le_length inner, List.drop_append_of_le_length inner, digits]
      next => rfl

end Behind

namespace Numeral

/-- When a number literal is read. -/
theorem scan_eq_ok {cs : List Char} {kind : Kind} {length : Nat} :
    scan cs = .ok kind length ↔ (read cs).lacksExponent = false
      ∧ (cs.drop (read cs).text.length).head?.any runsOn = false
      ∧ (read cs).kind? = some kind ∧ (read cs).text.length = length := by
  unfold scan
  simp only
  cases (read cs).lacksExponent with
  | true => simp [Lexeme.ok, Lexeme.fault]
  | false =>
      cases (cs.drop (read cs).text.length).head?.any runsOn with
      | true => simp [Lexeme.ok, Lexeme.fault]
      | false =>
          cases (read cs).kind? with
          | none => simp [Lexeme.ok, Lexeme.fault]
          | some found => simp [Lexeme.ok]

/-- A numeral that ends inside the token ends there again. -/
theorem read_behind {seen later w : List Char} (behind : Behind seen later)
    (within : (read (w ++ seen)).text.length ≤ w.length) :
    read (w ++ later) = read (w ++ seen) := by
  simp only [text, read, List.length_append] at within
  -- part by part: each lies inside the token, and what is behind it is what is
  -- behind it there
  have inWhole : ((w ++ seen).takeWhile isDigit).length ≤ w.length := by omega
  have whole := behind.takeWhile isMark_of_isDigit inWhole
  simp only [read, whole]
  generalize (w ++ seen).takeWhile isDigit = digits at within inWhole ⊢
  rw [List.drop_append_of_le_length inWhole] at within
  rw [List.drop_append_of_le_length inWhole, List.drop_append_of_le_length inWhole]
  have left : (w.drop digits.length).length = w.length - digits.length := List.length_drop
  generalize w.drop digits.length = v at within left ⊢
  have inFraction : (fractionText (readFraction? (v ++ seen))).length ≤ v.length := by omega
  rw [behind.readFraction? inFraction]
  generalize readFraction? (v ++ seen) = fraction at within inFraction ⊢
  rw [List.drop_append_of_le_length inFraction] at within
  rw [List.drop_append_of_le_length inFraction, List.drop_append_of_le_length inFraction,
    behind.exponent fun e found => ?_]
  rw [found, Option.map_some, Option.getD_some] at within
  rw [List.length_drop]
  omega

/-- A number that has been read is read again. -/
theorem scan_behind {seen later w : List Char} {kind : Kind} (behind : Behind seen later)
    (h : scan (w ++ seen) = .ok kind w.length) : scan (w ++ later) = .ok kind w.length := by
  obtain ⟨complete, apart, named, whole⟩ := scan_eq_ok.1 h
  -- what a number runs into is what starts a word
  have runsOn_marked : ∀ c, runsOn c = true → isMark c = true := fun c h =>
    isMark_of_continuesWord c (Lexeme.continuesWord_of_startsWord h)
  rw [whole, List.drop_left] at apart
  rw [scan_eq_ok, read_behind behind (Nat.le_of_eq whole)]
  refine ⟨complete, ?_, named, whole⟩
  rw [whole, List.drop_left]
  exact behind.stops runsOn_marked apart

end Numeral

-- ========================================================== symbols

namespace Lexeme

/-- A character that is a symbol by itself starts one before any text. -/
theorem symbol?_single {c : Char} {symbol : Symbol} {length : Nat}
    (h : symbol? [c] = some (symbol, length)) :
    length = 1 ∧ ∀ later, symbol? (c :: later) ≠ none := by
  unfold symbol? at h
  split at h
  case h_7 heq =>
    cases heq
    cases h
    refine ⟨rfl, fun later found => ?_⟩
    unfold symbol? at found
    split at found
    all_goals cases found
    exact ‹∀ tail, '<' :: later = '<' :: tail → False› later rfl
  case h_8 heq =>
    cases heq
    cases h
    refine ⟨rfl, fun later found => ?_⟩
    unfold symbol? at found
    split at found
    all_goals cases found
    exact ‹∀ tail, '>' :: later = '>' :: tail → False› later rfl
  case h_21 => cases h
  all_goals
    rename_i heq
    cases heq
  all_goals
    cases h
    exact ⟨rfl, nofun⟩

/-- A symbol is its first character, or it goes on with a second one and no
further. -/
theorem symbol?_cons (c : Char) (later : List Char) :
    symbol? (c :: later) = symbol? [c]
      ∨ ∃ symbol d more, later = d :: more ∧ isMark d = true ∧ d.isAlpha = false
        ∧ ∀ more, symbol? (c :: d :: more) = some (symbol, 2) := by
  generalize hfound : symbol? (c :: later) = found
  have cases := hfound
  unfold symbol? at cases
  split at cases
  case h_21 =>
    refine Or.inl (cases.symm.trans ?_)
    cases hsingle : symbol? [c] with
    | none => rfl
    | some _ => exact absurd (hfound.trans cases.symm) ((symbol?_single hsingle).2 later)
  case h_1 heq | h_2 heq | h_3 heq | h_4 heq | h_5 heq | h_6 heq =>
    obtain ⟨rfl, rfl⟩ := List.cons.inj heq
    exact Or.inr ⟨_, _, _, rfl, by decide, by decide, fun _ => rfl⟩
  all_goals
    rename_i heq
    obtain ⟨rfl, rfl⟩ := List.cons.inj heq
    exact Or.inl cases.symm

variable {seen later w : List Char} (behind : Behind seen later)

include behind

/-- A symbol that ends inside the token ends there again, and none starts
where none did. -/
theorem symbol?_behind {c : Char}
    (within : ∀ symbol length, symbol? (c :: (w ++ seen)) = some (symbol, length) →
      length ≤ w.length + 1) : symbol? (c :: (w ++ later)) = symbol? (c :: (w ++ seen)) := by
  rcases symbol?_cons c (w ++ later) with single | ⟨symbol, d, more, split, mark, -, pair⟩
  · rcases symbol?_cons c (w ++ seen) with single' | ⟨symbol, d, more, split, -, -, pair⟩
    · exact single.trans single'.symm
    · have found : symbol? (c :: (w ++ seen)) = some (symbol, 2) := split ▸ pair more
      cases w with
      | nil => cases within symbol 2 found with
        | step impossible => cases impossible
      | cons e w =>
          obtain rfl : e = d := (List.cons.inj split).1
          exact (pair _).trans (pair _).symm
  · cases w with
    | nil =>
        change later = d :: more at split
        have same : later.head? = seen.head? := by
          rcases behind with same | unmarked
          · exact same
          · have plain := unmarked d (by rw [split]; rfl)
            rw [mark] at plain
            cases plain
        rw [split] at same
        cases seen with
        | nil => cases same
        | cons e seen =>
            obtain rfl : d = e := Option.some.inj same
            rw [split]
            exact (pair _).trans (pair _).symm
    | cons e w =>
        obtain rfl : e = d := (List.cons.inj split).1
        exact (pair _).trans (pair _).symm

omit behind in
/-- A run that starts has a character. -/
theorem takeWhile_pos {p : Char → Bool} {cs : List Char} (h : cs.head?.any p = true) :
    1 ≤ (cs.takeWhile p).length := by
  cases cs with
  | nil => cases h
  | cons c cs =>
      have first : p c = true := h
      rw [List.takeWhile_cons, if_pos first, List.length_cons]
      exact Nat.succ_pos _

omit behind in
/-- A point before a digit is more than one character of a number. -/
theorem scan_point {digits : List Char} {kind : Kind} (digit : digits.head?.any isDigit = true) :
    Numeral.scan ('.' :: digits) ≠ .ok kind 1 := by
  intro h
  obtain ⟨-, -, -, length⟩ := Numeral.scan_eq_ok.1 h
  have whole : ('.' :: digits).takeWhile isDigit = [] := rfl
  have some_digit := takeWhile_pos digit
  simp only [Numeral.text, Numeral.read, whole, List.length_nil, List.drop_zero,
    Numeral.readFraction?, Numeral.fractionText, List.length_append, List.length_cons] at length
  omega

/-- What starts a number starts one here, and nothing else does. -/
theorem startsNumber_behind {c : Char} {kind : Kind}
    (whole : startsNumber c (w ++ seen) = true →
      Numeral.scan (c :: (w ++ seen)) = .ok kind (w.length + 1)) :
    startsNumber c (w ++ later) = startsNumber c (w ++ seen) := by
  cases w with
  | cons d w => rfl
  | nil =>
      by_cases point : c = '.'
      · subst point
        have stop : seen.head?.any isDigit = false := by
          cases digit : seen.head?.any isDigit with
          | false => rfl
          | true => exact absurd (whole digit) (scan_point digit)
        have stop' := behind.stops isMark_of_isDigit stop
        exact stop'.trans stop.symm
      · have plain (more : List Char) : startsNumber c more = isDigit c := by
          simp [startsNumber, point]
        exact (plain _).trans (plain _).symm

omit behind in
/-- A dollar sign before a digit is more than one character of a parameter. -/
theorem scanParameter_ne {digits : List Char} {kind : Kind}
    (digit : digits.head?.any isDigit = true) : scanParameter digits ≠ .ok kind 1 := by
  intro h
  have length : (digits.takeWhile isDigit).length + 1 = 1 := congrArg Lexeme.length h
  have := takeWhile_pos digit
  omega

/-- A parameter that has been read is read again. -/
theorem scanParameter_behind {kind : Kind}
    (h : scanParameter (w ++ seen) = .ok kind (w.length + 1)) :
    scanParameter (w ++ later) = .ok kind (w.length + 1) := by
  have length := Nat.succ.inj (congrArg Lexeme.length h)
  have run := behind.takeWhile isMark_of_isDigit (Nat.le_of_eq length)
  unfold scanParameter at h ⊢
  rw [run]
  exact h

/-- So is a bare word. -/
theorem scanWord_behind {kind : Kind} (h : scanWord (w ++ seen) = .ok kind w.length) :
    scanWord (w ++ later) = .ok kind w.length := by
  have length := congrArg Lexeme.length h
  have run := behind.takeWhile isMark_of_continuesWord (Nat.le_of_eq length)
  unfold scanWord at h ⊢
  rw [run]
  exact h

omit behind in
/-- The ways a token is read from a text that starts with `c`. -/
inductive Scanned (c : Char) (more : List Char) (kind : Kind) (length : Nat) : Prop
  | number (starts : startsNumber c more = true)
    (reads : Numeral.scan (c :: more) = .ok kind length)
  | symbol {symbol : Symbol} (other : startsNumber c more = false)
    (reads : symbol? (c :: more) = some (symbol, length)) (named : kind = .symbol symbol)
  | string (first : c = '\'') (reads : Quotes.scanString more = .ok kind length)
  | name (first : c = '"') (reads : Quotes.scanName more = .ok kind length)
  | parameter (first : c = '$') (digit : more.head?.any isDigit = true)
    (reads : scanParameter more = .ok kind length)
  | word (other : startsNumber c more = false) (bare : symbol? (c :: more) = none)
    (starts : startsWord c = true) (reads : scanWord (c :: more) = .ok kind length)

omit behind in
/-- They are all the ways. -/
theorem scan_ok {c : Char} {more : List Char} {kind : Kind} {length : Nat} :
    scan (c :: more) = .ok kind length ↔ Scanned c more kind length := by
  constructor
  · intro h
    rw [scan] at h
    split at h
    next starts => exact .number starts h
    next other =>
      have other := Bool.eq_false_iff.2 other
      split at h
      next symbol width found =>
        obtain rfl : width = length := congrArg Lexeme.length h
        exact .symbol other found (Except.ok.inj (congrArg Lexeme.found h)).symm
      next bare =>
        split at h
        next first => exact .string first h
        next =>
          split at h
          next first => exact .name first h
          next =>
            split at h
            next found => exact .parameter found.1 found.2 h
            next =>
              split at h
              next starts => exact .word other bare starts h
              next => cases h
  · intro h
    cases h with
    | number starts reads => rw [scan, if_pos starts, reads]
    | symbol other reads named =>
        rw [scan, if_neg (Bool.eq_false_iff.1 other), reads, named]
    | string first reads =>
        subst first
        exact reads
    | name first reads =>
        subst first
        exact reads
    | parameter first digit reads =>
        subst first
        have here : scan ('$' :: more) = if '$' = '$' ∧ more.head?.any isDigit then
            scanParameter more else .fault (.unexpectedCharacter '$') 1 := rfl
        rw [here, if_pos ⟨rfl, digit⟩, reads]
    | word other bare starts reads =>
        have plain : ∀ d, startsWord d = false → c ≠ d := by
          rintro _ no rfl
          rw [starts] at no
          cases no
        rw [scan, if_neg (Bool.eq_false_iff.1 other), bare]
        show (if c = '\'' then _ else if c = '"' then _
            else if c = '$' ∧ more.head?.any isDigit = true then _ else _) = _
        rw [if_neg (plain '\'' (by decide)), if_neg (plain '"' (by decide)),
          if_neg fun found => plain '$' (by decide) found.1, if_pos starts, reads]

/-- A token that has been read is read again. -/
theorem scan_behind {kind : Kind} (filled : w ≠ []) (h : scan (w ++ seen) = .ok kind w.length) :
    scan (w ++ later) = .ok kind w.length := by
  cases w with
  | nil => exact absurd rfl filled
  | cons c w =>
      have numbers (whole : startsNumber c (w ++ seen) = true →
          Numeral.scan (c :: (w ++ seen)) = .ok kind (w.length + 1)) :
          startsNumber c (w ++ later) = startsNumber c (w ++ seen) :=
        startsNumber_behind behind whole
      have noNumber (other : startsNumber c (w ++ seen) = false) :
          startsNumber c (w ++ later) = false := by
        refine (numbers fun found => ?_).trans other
        rw [other] at found
        cases found
      -- the same scanner reads it: what decides between them is in the token
      have known : Scanned c (w ++ seen) kind (w.length + 1) := scan_ok.1 h
      show scan (c :: (w ++ later)) = .ok kind (w.length + 1)
      refine scan_ok.2 ?_
      cases known with
      | number starts reads =>
          refine .number ((numbers fun _ => reads).trans starts) ?_
          exact Numeral.scan_behind (w := c :: w) behind reads
      | symbol other reads named =>
          refine .symbol (noNumber other) ?_ named
          rw [symbol?_behind behind, reads]
          intro symbol length found
          rw [reads] at found
          cases found
          exact Nat.le_refl _
      | string first reads =>
          have stop := behind.stops (isMark_of_eq (d := '\'') (by decide))
          exact .string first (Quotes.scanString_before stop reads)
      | name first reads =>
          have stop := behind.stops (isMark_of_eq (d := '"') (by decide))
          exact .name first (Quotes.scanName_before stop reads)
      | parameter first digit reads =>
          refine .parameter first ?_ (scanParameter_behind behind reads)
          cases w with
          | cons d w => exact digit
          | nil => exact absurd reads (scanParameter_ne digit)
      | word other bare starts reads =>
          refine .word (noNumber other) ?_ starts (scanWord_behind (w := c :: w) behind reads)
          rw [symbol?_behind behind, bare]
          intro symbol length found
          rw [bare] at found
          cases found

end Lexeme

-- =========================================================== bounds

/-- What starts a number has a character that belongs to it. -/
theorem Numeral.bounds_text {c : Char} {more : List Char}
    (starts : Lexeme.startsNumber c more = true) :
    0 < (read (c :: more)).text.length ∧ (read (c :: more)).text.length ≤ (c :: more).length := by
  refine ⟨?_, (text_read_starts (c :: more)).length_le⟩
  rw [text, List.length_append, List.length_append]
  rcases Bool.or_eq_true_iff.1 starts with digit | point
  · have whole : 1 ≤ (read (c :: more)).whole.length := Lexeme.takeWhile_pos digit
    omega
  · obtain rfl : c = '.' := eq_of_beq (Bool.and_eq_true_iff.1 point).1
    have fraction : (read ('.' :: more)).fraction = some (more.takeWhile isDigit) := rfl
    rw [fraction, fractionText, List.length_cons]
    omega

/-- A number, or what is wrong with it, has a character and no more than there
are. -/
theorem Numeral.bounds_scan {c : Char} {more : List Char}
    (starts : Lexeme.startsNumber c more = true) :
    0 < (scan (c :: more)).length ∧ (scan (c :: more)).length ≤ (c :: more).length := by
  have bounds := bounds_text starts
  unfold scan
  generalize hrest : (c :: more).drop (read (c :: more)).text.length = rest
  have further : (rest.takeWhile runsFurther).length ≤ rest.length :=
    (List.takeWhile_prefix _).length_le
  have behind : rest.length = (c :: more).length - (read (c :: more)).text.length := by
    rw [← hrest, List.length_drop]
  simp only [hrest]
  split
  next => exact bounds
  next =>
    split
    next => exact ⟨Nat.add_pos_left bounds.1 _, by simp only [Lexeme.fault]; omega⟩
    next => split <;> exact bounds

/-- So has a string, also one that does not close. -/
theorem Quotes.bounds_scanString (more : List Char) :
    0 < (scanString more).length ∧ (scanString more).length ≤ more.length + 1 := by
  unfold scanString
  split
  next found => exact ⟨Nat.succ_pos _, Nat.succ_le_succ (unquote?_bounds found).2⟩
  next => exact ⟨Nat.succ_pos _, Nat.le_refl _⟩

/-- And a name. -/
theorem Quotes.bounds_scanName (more : List Char) :
    0 < (scanName more).length ∧ (scanName more).length ≤ more.length + 1 := by
  unfold scanName
  split
  next found => exact ⟨Nat.succ_pos _, Nat.succ_le_succ (unquote?_bounds found).2⟩
  next found => exact ⟨Nat.succ_pos _, Nat.succ_le_succ (unquote?_bounds found).2⟩
  next => exact ⟨Nat.succ_pos _, Nat.le_refl _⟩

namespace Lexeme

variable {c : Char} {more : List Char}

/-- A symbol has one or two. -/
theorem symbol?_bounds {symbol : Symbol} {length : Nat}
    (h : symbol? (c :: more) = some (symbol, length)) :
    0 < length ∧ length ≤ (c :: more).length := by
  rcases symbol?_cons c more with single | ⟨_, _, _, rfl, -, -, pair⟩
  · rw [single] at h
    rw [(symbol?_single h).1]
    exact ⟨Nat.one_pos, Nat.succ_pos _⟩
  · rw [pair] at h
    cases h
    exact ⟨Nat.two_pos, Nat.succ_le_succ (Nat.succ_pos _)⟩

/-- A bare word has the character that it starts with. -/
theorem bounds_scanWord (starts : startsWord c = true) :
    0 < (scanWord (c :: more)).length ∧ (scanWord (c :: more)).length ≤ (c :: more).length := by
  have continues : continuesWord c = true := continuesWord_of_startsWord starts
  have filled : 1 ≤ ((c :: more).takeWhile continuesWord).length := takeWhile_pos continues
  exact ⟨filled, (List.takeWhile_prefix continuesWord).length_le⟩

/-- A token or a fault takes up a character, and no more than there are. -/
theorem bounds_scan (c : Char) (more : List Char) :
    0 < (scan (c :: more)).length ∧ (scan (c :: more)).length ≤ (c :: more).length := by
  rw [scan]
  split
  next starts => exact Numeral.bounds_scan starts
  next =>
    split
    next found => exact symbol?_bounds found
    next =>
      split
      next => exact Quotes.bounds_scanString more
      next =>
        split
        next => exact Quotes.bounds_scanName more
        next =>
          split
          next => exact ⟨Nat.succ_pos _, Nat.succ_le_succ (List.takeWhile_prefix isDigit).length_le⟩
          next =>
            split
            next starts => exact bounds_scanWord starts
            next => exact ⟨Nat.one_pos, Nat.succ_pos _⟩

end Lexeme

-- =========================================================== trivia

/-- Two marks stand here only if they stood there. -/
theorem Behind.pair {seen later w : List Char} (behind : Behind seen later) {a b : Char}
    (mark : isMark b = true) (filled : w ≠ []) (h : ¬[a, b] <+: w ++ seen) :
    ¬[a, b] <+: w ++ later := by
  match w with
  | [] => exact absurd rfl filled
  | c :: d :: w =>
      rintro ⟨more, split⟩
      have first : a = c := (List.cons.inj split).1
      have second : b = d := (List.cons.inj (List.cons.inj split).2).1
      subst first second
      exact h ⟨w ++ seen, rfl⟩
  | [c] =>
      rintro ⟨more, split⟩
      obtain rfl : a = c := (List.cons.inj split).1
      have rest : b :: more = later := (List.cons.inj split).2
      have stop : seen.head?.any (· == b) = false := by
        refine stop_of_cons fun d rest hseen same => h ?_
        rw [hseen, eq_of_beq same]
        exact ⟨rest, rfl⟩
      have found := behind.stops (isMark_of_eq mark) stop
      rw [← rest] at found
      simp at found

/-- A token starts here as it did there. -/
theorem Trivia.starts_behind {seen later w : List Char} (behind : Behind seen later)
    (filled : w ≠ []) (h : Starts (w ++ seen)) : Starts (w ++ later) := by
  refine ⟨?_, behind.pair (by decide) filled h.noLine, behind.pair (by decide) filled h.noBlock⟩
  cases w with
  | nil => exact absurd rfl filled
  | cons c w => exact h.plain

end SqlSelect
