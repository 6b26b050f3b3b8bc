/-
Lines and columns as coordinates of a text.

A place grows with every character that is passed: a line feed leads to the
next line, any other character further along its line. So two boundaries of
a text never share a place, and the order of places is the order of
boundaries. The way back from a place passes as many line feeds as its line
says, and then as many characters as its column says. Offsets that are no
boundaries have the place of the last boundary before them, since only
whole characters are passed.
-/
import Mathlib.Order.Bounds.Defs
import SqlSelect.Proofs.Lines

namespace SqlSelect

open Text (byteLength)

-- ============================================================= order

namespace Position

/-- The place comes before the other: in an earlier line, or in the same line
at a smaller column. -/
def Before (p q : Position) : Prop :=
  p.line < q.line ∨ p.line = q.line ∧ p.column < q.column

theorem Before.trans {p q r : Position} (first : p.Before q) (second : q.Before r) :
    p.Before r := by
  unfold Before at *
  omega

/-- A character leads further on. -/
theorem before_after (p : Position) (c : Char) : p.Before (p.after c) := by
  unfold after
  split
  next => exact Or.inl (Nat.lt_succ_self _)
  next => exact Or.inr ⟨rfl, Nat.lt_succ_self _⟩

/-- A longer text ends at a later place. -/
theorem behind_before (front : List Char) {word : List Char} (filled : word ≠ []) :
    (behind front).Before (behind (front ++ word)) := by
  induction word generalizing front with
  | nil => exact absurd rfl filled
  | cons c word ih =>
      have step : (behind front).Before (behind (front ++ [c])) := by
        rw [behind_concat]
        exact before_after _ c
      rw [List.append_cons]
      by_cases last : word = []
      · rw [last, List.append_nil]
        exact step
      · exact step.trans (ih (front ++ [c]) last)

/-- The order of boundaries is the order of their places. -/
theorem ofOffset_before {text : List Char} {a b : Nat} (first : Text.Boundary text a)
    (second : Text.Boundary text b) (ordered : a < b) :
    (ofOffset text a).Before (ofOffset text b) := by
  obtain ⟨front, word, back, rfl, rfl, rfl⟩ := first.split second (Nat.le_of_lt ordered)
  have filled : word ≠ [] := by
    rintro rfl
    simp at ordered
  rw [ofOffset_boundary, ← Text.byteLength_append, ← List.append_assoc, ofOffset_boundary]
  exact behind_before front filled

end Position

-- ========================================================== the way back

/-- The text up to and including so many line feeds, or all of it if there
are fewer. -/
def Text.wholeLines : Nat → List Char → List Char
  | 0, _ => []
  | _ + 1, [] => []
  | count + 1, c :: later => c :: wholeLines (if c = '\n' then count else count + 1) later

/-- Lines that end with a line feed are passed by counting line feeds. -/
theorem Text.wholeLines_append {before : List Char} (start : LineStart before)
    (rest : List Char) : wholeLines (before.count '\n') (before ++ rest) = before := by
  induction before with
  | nil => rw [List.count_nil, wholeLines]
  | cons c before ih =>
      have whole : LineStart ([c] ++ before) := start
      have later := whole.of_append
      rw [List.cons_append]
      by_cases feed : c = '\n'
      · rw [feed, List.count_cons_self, wholeLines, if_pos rfl, ih later]
      · -- the line goes on, so that a line feed is still to come
        have more : before ≠ [] := by
          rintro rfl
          exact feed (start c rfl)
        have last : before.getLast more = '\n' := later _ (List.getLast?_eq_some_getLast more)
        have ahead : 0 < before.count '\n' :=
          List.count_pos_iff.2 (last ▸ List.getLast_mem more)
        obtain ⟨count, hcount⟩ := Nat.exists_eq_add_of_lt ahead
        rw [Nat.zero_add] at hcount
        rw [List.count_cons_of_ne feed, hcount, wholeLines, if_neg feed, ← hcount, ih later]

namespace Position

/-- The byte offset of a place: of so many lines, each with its line feed,
and of the characters of the next line before the column. -/
def toOffset (p : Position) (text : List Char) : Nat :=
  let before := Text.wholeLines (p.line - 1) text
  byteLength before + byteLength ((text.drop before.length).take (p.column - 1))

/-- The place of a boundary leads back to it. -/
theorem toOffset_ofOffset {text : List Char} {offset : Nat} (h : Text.Boundary text offset) :
    (ofOffset text offset).toOffset text = offset := by
  obtain ⟨front, back, rfl, rfl⟩ := h
  obtain ⟨before, head, rfl, start, inside⟩ := Text.exists_lineStart front
  rw [ofOffset_boundary, behind_append start inside, toOffset]
  simp only [Nat.add_sub_cancel]
  rw [List.append_assoc, Text.wholeLines_append start, List.drop_left, List.take_left,
    Text.byteLength_append]

-- ================================================== between boundaries

/-- Within so many bytes a text has a longest start, and only that is
passed. -/
theorem exists_advance (p : Position) (bytes : Nat) (text : List Char) :
    ∃ front back, text = front ++ back ∧ byteLength front ≤ bytes
      ∧ (∀ c ∈ back.head?, bytes < byteLength front + c.utf8Size)
      ∧ p.advance bytes text = p.advance (byteLength front) text := by
  induction text generalizing p bytes with
  | nil => exact ⟨[], [], rfl, Nat.zero_le _, nofun, rfl⟩
  | cons c later ih =>
      by_cases fits : c.utf8Size ≤ bytes
      · obtain ⟨front, back, rfl, short, longest, same⟩ := ih (p.after c) (bytes - c.utf8Size)
        refine ⟨c :: front, back, rfl, ?_, fun d first => ?_, ?_⟩
        · rw [Text.byteLength_cons]
          omega
        · have := longest d first
          rw [Text.byteLength_cons]
          omega
        · have whole : c.utf8Size ≤ byteLength (c :: front) := Nat.le_add_right _ _
          rw [advance, advance, if_pos fits, if_pos whole, same, Text.byteLength_cons,
            Nat.add_sub_cancel_left]
      · refine ⟨[], c :: later, rfl, Nat.zero_le _, ?_, ?_⟩
        · rintro d ⟨⟩
          simpa using fits
        · have none : ¬c.utf8Size ≤ byteLength [] := Nat.not_le_of_lt c.utf8Size_pos
          rw [advance, advance, if_neg fits, if_neg none]

/-- An offset has the place of the last boundary up to it. -/
theorem exists_ofOffset (text : List Char) (offset : Nat) :
    ∃ b, IsGreatest {b | Text.Boundary text b ∧ b ≤ min offset (byteLength text)} b
      ∧ ofOffset text offset = ofOffset text b := by
  obtain ⟨front, back, rfl, short, longest, same⟩ := exists_advance ⟨1, 1⟩ offset text
  have within : byteLength front ≤ byteLength (front ++ back) := by
    rw [Text.byteLength_append]
    exact Nat.le_add_right _ _
  refine ⟨byteLength front, ⟨⟨⟨front, back, rfl, rfl⟩, Nat.le_min.2 ⟨short, within⟩⟩, ?_⟩, same⟩
  rintro _ ⟨⟨other, rest, split, rfl⟩, le⟩
  rcases List.append_eq_append_iff.1 split with ⟨more, rfl, rfl⟩ | ⟨more, rfl, -⟩
  · -- a longer start has the next character, which does not fit
    cases more with
    | nil => exact Nat.le_of_eq (congrArg byteLength (List.append_nil front))
    | cons c more =>
        have beyond := longest c rfl
        have fits := (Nat.le_min.1 le).1
        rw [Text.byteLength_append, Text.byteLength_cons] at fits
        omega
  · rw [Text.byteLength_append]
    exact Nat.le_add_right _ _

/-- In every text lines and columns are coordinates of the boundaries: their
order is that of the boundaries, and each boundary is found again from its
line, counted by line feeds, and its column. Any other offset, inside a
character or past the end, has the place of the greatest boundary up to
it. -/
theorem ofOffset_faithful (source : String) :
    (∀ a b, Text.Boundary source.toList a → Text.Boundary source.toList b → a < b →
        (ofOffset source.toList a).Before (ofOffset source.toList b))
      ∧ (∀ offset, Text.Boundary source.toList offset →
        (ofOffset source.toList offset).toOffset source.toList = offset)
      ∧ ∀ offset, ∃ b,
        IsGreatest {b | Text.Boundary source.toList b ∧ b ≤ min offset source.utf8ByteSize} b
          ∧ ofOffset source.toList offset = ofOffset source.toList b := by
  refine ⟨fun a b first second => ofOffset_before first second, fun offset => toOffset_ofOffset,
    fun offset => ?_⟩
  rw [← Text.byteLength_toList]
  exact exists_ofOffset source.toList offset

/-- Before and behind a line feed, and inside the character of three bytes
that follows it. -/
theorem ofOffset_faithful_lineFeed :
    Text.Boundary "é\r\n€".toList 3 ∧ Text.Boundary "é\r\n€".toList 4
      ∧ ofOffset "é\r\n€".toList 3 = ⟨1, 3⟩ ∧ ofOffset "é\r\n€".toList 4 = ⟨2, 1⟩
      ∧ (ofOffset "é\r\n€".toList 3).Before (ofOffset "é\r\n€".toList 4)
      ∧ (ofOffset "é\r\n€".toList 4).toOffset "é\r\n€".toList = 4
      ∧ ∃ b, IsGreatest {b | Text.Boundary "é\r\n€".toList b
          ∧ b ≤ min 6 "é\r\n€".utf8ByteSize} b
        ∧ ofOffset "é\r\n€".toList 6 = ofOffset "é\r\n€".toList b := by
  have first : Text.Boundary "é\r\n€".toList 3 := ⟨['é', '\r'], ['\n', '€'], by decide, by decide⟩
  have second : Text.Boundary "é\r\n€".toList 4 := ⟨['é', '\r', '\n'], ['€'], by decide, by decide⟩
  obtain ⟨order, back, between⟩ := ofOffset_faithful "é\r\n€"
  exact ⟨first, second, by decide, by decide, order 3 4 first second (by decide), back 4 second,
    between 6⟩

end Position

end SqlSelect
