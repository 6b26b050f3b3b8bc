/-
Texts that differ in the case of the letters A to Z.

Two characters are forms of one letter if `Char.toLower`, which knows these
letters only, takes them to the same character. What does not tell the forms
of a letter apart is `Blind`, and almost everything that is asked of a
character is; the texts compared here are `Alike`, character by character.

# Checking letter by letter

There are 52 letters, so what is asked of a character is run on each of them
(`of_letters`). No table of characters is looked into by hand: that a class of
characters is blind to case is one evaluation (`blind_of_letters`).

# Folding

Folding a text to lower case knows the letters of all scripts and looks at
the neighbours of a sigma. It still takes texts that are alike to the same
text, since the letters A to Z all count for case, and none of them is
skipped when the neighbours are looked at (`lowerAfter_alike`).
-/
import SqlSelect.Proofs.Lexed

namespace SqlSelect.Text

-- ========================================================== letters

/-- The letters are two ranges of codes. -/
theorem isAlpha_iff {c : Char} : c.isAlpha = true
    ↔ (65 ≤ c.toNat ∧ c.toNat ≤ 90) ∨ 97 ≤ c.toNat ∧ c.toNat ≤ 122 := by
  show (c.isUpper || c.isLower) = true ↔ _
  rw [Bool.or_eq_true, isUpper_iff]
  unfold Char.isLower
  rw [Bool.and_eq_true, decide_eq_true_iff, decide_eq_true_iff]
  rfl

/-- Lower case is 32 codes further. -/
theorem toNat_toLower (c : Char) : c.toLower.toNat
    = if 65 ≤ c.toNat ∧ c.toNat ≤ 90 then c.toNat + 32 else c.toNat := by
  have capital : (c.val ≥ 'A'.val ∧ c.val ≤ 'Z'.val) ↔ 65 ≤ c.toNat ∧ c.toNat ≤ 90 := Iff.rfl
  unfold Char.toLower
  split
  next h =>
    rw [if_pos (capital.1 h)]
    have := (capital.1 h).2
    show (c.val + 32).toNat = _
    rw [UInt32.toNat_add]
    show (c.toNat + 32) % 2 ^ 32 = _
    omega
  next h => rw [if_neg fun g => h (capital.2 g)]

/-- Only letters have another form. -/
theorem eq_or_isAlpha {c d : Char} (h : c.toLower = d.toLower) :
    c = d ∨ c.isAlpha = true ∧ d.isAlpha = true := by
  have codes := congrArg Char.toNat h
  rw [toNat_toLower, toNat_toLower] at codes
  rw [isAlpha_iff, isAlpha_iff, ← Char.toNat_inj]
  split at codes <;> split at codes <;> omega

/-- So a character that is no letter has no other form. -/
theorem eq_of_not_isAlpha {c d : Char} (h : c.toLower = d.toLower) (other : c.isAlpha = false) :
    c = d := by
  rcases eq_or_isAlpha h with same | ⟨letter, -⟩
  · exact same
  · rw [other] at letter
    cases letter

/-- A character that is no letter is told apart from all others in either
case. -/
theorem eq_iff_of_not_isAlpha {c d q : Char} (h : c.toLower = d.toLower)
    (other : q.isAlpha = false) : c = q ↔ d = q := by
  constructor
  · rintro rfl
    exact (eq_of_not_isAlpha h other).symm
  · rintro rfl
    exact (eq_of_not_isAlpha h.symm other).symm

/-- The letters A to Z, in either case. -/
def letters : List Char := (List.range' 65 26 ++ List.range' 97 26).map Char.ofNat

/-- All letters are among them. -/
theorem mem_letters {c : Char} (h : c.isAlpha = true) : c ∈ letters := by
  have range : c.toNat ∈ List.range' 65 26 ++ List.range' 97 26 := by
    rw [List.mem_append, List.mem_range'_1, List.mem_range'_1]
    rw [isAlpha_iff] at h
    omega
  exact List.mem_map.2 ⟨c.toNat, range, Char.ofNat_toNat c⟩

/-- What can be checked letter by letter holds of every letter. -/
theorem of_letters {p : Char → Bool} (h : letters.all p = true) {c : Char}
    (letter : c.isAlpha = true) : p c = true :=
  List.all_eq_true.1 h c (mem_letters letter)

-- ============================================================ blind

/-- Whether what is asked of a character does not depend on the case of a
letter. -/
def Blind (p : Char → Bool) : Prop := ∀ c d, c.toLower = d.toLower → p c = p d

/-- What all letters have in common does not depend on their case. -/
theorem blind_of_letters {p : Char → Bool} {b : Bool} (h : letters.all (p · == b) = true) :
    Blind p := by
  intro c d same
  rcases eq_or_isAlpha same with rfl | ⟨first, second⟩
  · rfl
  · rw [beq_iff_eq.1 (of_letters h first), beq_iff_eq.1 (of_letters h second)]

/-- No letter is a digit. -/
theorem isDigit_letters : letters.all (isDigit · == false) = true := rfl

/-- Digits do not depend on case. -/
theorem blind_isDigit : Blind isDigit := blind_of_letters isDigit_letters

/-- Nor do blanks. -/
theorem blind_isBlank : Blind isBlank := blind_of_letters (b := false) rfl

/-- All letters count for case. -/
theorem blind_isCased : Blind isCased := blind_of_letters (b := true) rfl

/-- None of them is skipped where case is looked for. -/
theorem blind_isCaseIgnorable : Blind isCaseIgnorable := blind_of_letters (b := false) rfl

/-- All of them start words. -/
theorem blind_startsWord : Blind Lexeme.startsWord := blind_of_letters (b := true) rfl

/-- And all go on with words. -/
theorem blind_continuesWord : Blind Lexeme.continuesWord := blind_of_letters (b := true) rfl

/-- All of them may be what a number runs into. -/
theorem blind_runsOn : Blind Numeral.runsOn := blind_of_letters (b := true) rfl

/-- No form of a letter is a given character that is none. -/
theorem blind_eq {q : Char} (other : q.isAlpha = false) : Blind (· == q) := by
  intro c d same
  exact Bool.eq_iff_iff.2 (by simpa using eq_iff_of_not_isAlpha same other)

-- ============================================================ alike

/-- The texts differ in the case of letters at most. -/
def Alike (a b : List Char) : Prop := a.map Char.toLower = b.map Char.toLower

namespace Alike

variable {a b : List Char}

/-- A text is alike to itself. -/
theorem refl (a : List Char) : Alike a a := rfl

/-- And from either side. -/
theorem symm (h : Alike a b) : Alike b a := Eq.symm h

/-- Texts that are alike are of one length. -/
theorem length (h : Alike a b) : a.length = b.length := by
  have lengths := congrArg List.length h
  rwa [List.length_map, List.length_map] at lengths

/-- Letters that are alike go before texts that are. -/
theorem cons {c d : Char} (letter : c.toLower = d.toLower) (later : Alike a b) :
    Alike (c :: a) (d :: b) := by
  unfold Alike at later ⊢
  rw [List.map_cons, List.map_cons, letter, later]

/-- Only the empty text is alike to it. -/
theorem of_nil (h : Alike [] b) : b = [] := List.map_eq_nil_iff.1 (Eq.symm h)

/-- A text that is alike to one with a first character has one. -/
theorem of_cons {c : Char} (h : Alike (c :: a) b) :
    ∃ d more, b = d :: more ∧ c.toLower = d.toLower ∧ Alike a more := by
  obtain ⟨d, more, rfl, letter, later⟩ := List.map_eq_cons_iff.1 (Eq.symm h)
  exact ⟨d, more, rfl, letter.symm, later.symm⟩

/-- Texts that are alike are put behind each other. -/
theorem append {c d : List Char} (first : Alike a b) (second : Alike c d) :
    Alike (a ++ c) (b ++ d) := by
  unfold Alike at first second ⊢
  rw [List.map_append, List.map_append, first, second]

/-- And cut off after as many characters. -/
theorem drop (h : Alike a b) (n : Nat) : Alike (a.drop n) (b.drop n) := by
  unfold Alike at h ⊢
  rw [List.map_drop, List.map_drop, h]

/-- A text without letters has no other form. -/
theorem eq_of_no_letter (h : Alike a b) (other : ∀ c ∈ a, c.isAlpha = false) : a = b := by
  induction a generalizing b with
  | nil => exact h.of_nil.symm
  | cons c a ih =>
      obtain ⟨d, more, rfl, letter, later⟩ := h.of_cons
      rw [eq_of_not_isAlpha letter (other c List.mem_cons_self),
        ih later fun c found => other c (List.mem_cons_of_mem _ found)]

/-- A cut in one text is a cut in the other. -/
theorem of_append {front back : List Char} (h : Alike (front ++ back) b) :
    ∃ front' back', b = front' ++ back' ∧ Alike front front' ∧ Alike back back' := by
  unfold Alike at h
  rw [List.map_append] at h
  obtain ⟨front', back', rfl, first, second⟩ := List.map_eq_append_iff.1 h.symm
  exact ⟨front', back', rfl, first.symm, second.symm⟩

/-- Marks at the start of a text stand there in either case. -/
theorem starts_with {marks : List Char} (h : Alike a b)
    (other : marks.all (!·.isAlpha) = true) (starts : marks <+: a) : marks <+: b := by
  obtain ⟨more, rfl⟩ := starts
  obtain ⟨front, back, rfl, same, -⟩ := h.of_append
  rw [← same.eq_of_no_letter fun c mem => Bool.not_eq_true' _ ▸ List.all_eq_true.1 other c mem]
  exact List.prefix_append _ _

variable {p : Char → Bool}

/-- What starts a text is seen in either. -/
theorem head (h : Alike a b) (blind : Blind p) : a.head?.any p = b.head?.any p := by
  cases a with
  | nil => rw [h.of_nil]
  | cons c a =>
      obtain ⟨d, more, rfl, letter, -⟩ := h.of_cons
      exact blind c d letter

/-- A run of characters has as many in either. -/
theorem takeWhile (h : Alike a b) (blind : Blind p) :
    Alike (a.takeWhile p) (b.takeWhile p) := by
  induction a generalizing b with
  | nil =>
      rw [h.of_nil]
      exact .refl _
  | cons c a ih =>
      obtain ⟨d, more, rfl, letter, later⟩ := h.of_cons
      rw [List.takeWhile_cons, List.takeWhile_cons, blind c d letter]
      split
      · exact .cons letter (ih later)
      · exact .refl _

/-- And what is behind the run is alike. -/
theorem dropWhile (h : Alike a b) (blind : Blind p) :
    Alike (a.dropWhile p) (b.dropWhile p) := by
  induction a generalizing b with
  | nil =>
      rw [h.of_nil]
      exact .refl _
  | cons c a ih =>
      obtain ⟨d, more, rfl, letter, later⟩ := h.of_cons
      rw [List.dropWhile_cons, List.dropWhile_cons, blind c d letter]
      split
      · exact ih later
      · exact .cons letter later

/-- Digits have no other form. -/
theorem digits (h : Alike a b) : a.takeWhile isDigit = b.takeWhile isDigit := by
  refine (h.takeWhile blind_isDigit).eq_of_no_letter fun c found => ?_
  have digit : isDigit c = true := List.all_eq_true.1 List.all_takeWhile c found
  refine Bool.eq_false_iff.2 fun letter => ?_
  have none := beq_iff_eq.1 (of_letters isDigit_letters letter)
  rw [none] at digit
  cases digit

end Alike

-- ======================================================= lower case

/-- What case is looked for in: the first character that is not skipped. -/
theorem meetsCased_eq (cs : List Char) :
    meetsCased cs = (cs.dropWhile isCaseIgnorable).head?.any isCased := by
  unfold meetsCased
  cases cs.dropWhile isCaseIgnorable <;> rfl

/-- So it is found in either text. -/
theorem meetsCased_alike {a b : List Char} (h : Alike a b) : meetsCased a = meetsCased b := by
  rw [meetsCased_eq, meetsCased_eq]
  exact (h.dropWhile blind_isCaseIgnorable).head blind_isCased

/-- A letter folds to its lower case. -/
theorem lowerChar_of_isAlpha {c : Char} (letter : c.isAlpha = true) :
    lowerChar c = [c.toLower] := by
  have every : letters.all (fun c => lowerChar c == [c.toLower]) = true := rfl
  exact beq_iff_eq.1 (of_letters every letter)

/-- So characters that are alike fold to the same. -/
theorem lowerChar_alike {c d : Char} (h : c.toLower = d.toLower) : lowerChar c = lowerChar d := by
  rcases eq_or_isAlpha h with rfl | ⟨first, second⟩
  · rfl
  · rw [lowerChar_of_isAlpha first, lowerChar_of_isAlpha second, h]

/-- Behind texts that are alike, texts that are alike become the same. -/
theorem lowerAfter_alike {before before' cs cs' : List Char} (passed : Alike before before')
    (h : Alike cs cs') : lowerAfter before cs = lowerAfter before' cs' := by
  induction cs generalizing before before' cs' with
  | nil =>
      rw [h.of_nil]
      rfl
  | cons c cs ih =>
      obtain ⟨d, more, rfl, letter, later⟩ := h.of_cons
      -- the sigma is not among the letters A to Z, so it stands in both texts
      -- or in neither
      have sigma : c = 'Σ' ↔ d = 'Σ' := eq_iff_of_not_isAlpha letter (by decide)
      rw [lowerAfter, lowerAfter, ih (passed.cons letter) later, meetsCased_alike passed,
        meetsCased_alike later, lowerChar_alike letter]
      simp only [sigma]

/-- Texts that are alike fold to the same text. -/
theorem lowercase_alike {a b : List Char} (h : Alike a b) : lowercase a = lowercase b :=
  lowerAfter_alike (.refl []) h

end SqlSelect.Text
