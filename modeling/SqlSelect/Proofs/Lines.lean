/-
Lines counted in two ways.

A position counts the line feeds before it, and a report asks for the line of
that number. Both agree on where a line starts, which is at the start of the
text or behind a line feed, and differ at the end of the text: behind the
last line feed the count goes on to one line more, which is no line unless
some text stands there.
-/
import SqlSelect.Proofs.Layout.Places
import SqlSelect.Report

namespace SqlSelect.Text

-- ======================================================= line starts

/-- Whether a line starts behind the text: it is empty, or a line feed ends
it. -/
def LineStart (before : List Char) : Prop := ∀ c ∈ before.getLast?, c = '\n'

theorem lineStart_nil : LineStart [] := nofun

/-- What is left of such a text behind a line feed is such a text. -/
theorem LineStart.of_append {front back : List Char} (h : LineStart (front ++ back)) :
    LineStart back := by
  cases back with
  | nil => exact lineStart_nil
  | cons c back =>
      intro d last
      refine h d ?_
      rw [List.getLast?_append, Option.mem_def.1 last]
      rfl

/-- Every text is made of whole lines and the start of another. -/
theorem exists_lineStart (front : List Char) :
    ∃ before head, front = before ++ head ∧ LineStart before ∧ '\n' ∉ head := by
  have split := List.takeWhile_append_dropWhile (p := (· ≠ '\n')) (l := front.reverse)
  refine ⟨(front.reverse.dropWhile (· ≠ '\n')).reverse,
    (front.reverse.takeWhile (· ≠ '\n')).reverse, ?_, ?_, ?_⟩
  · rw [← List.reverse_append, split, List.reverse_reverse]
  · intro c last
    have stop := List.head?_dropWhile_not (· ≠ '\n') front.reverse
    rw [← List.getLast?_reverse, last] at stop
    simpa using stop
  · intro found
    have inside := List.all_eq_true.1 List.all_takeWhile '\n' (List.mem_reverse.1 found)
    simp at inside

-- ========================================================= splitting

theorem splitLine_append {head : List Char} (inside : '\n' ∉ head) (back : List Char) :
    splitLine (head ++ back) = (head ++ (splitLine back).1, (splitLine back).2) := by
  induction head with
  | nil => rfl
  | cons c head ih =>
      have other : c ≠ '\n' := fun same => inside (same ▸ List.mem_cons_self)
      rw [List.cons_append, splitLine, if_neg other,
        ih fun found => inside (List.mem_cons_of_mem _ found)]
      rfl

/-- A line goes up to its line feed. -/
theorem splitLine_feed {line : List Char} (inside : '\n' ∉ line) (later : List Char) :
    splitLine (line ++ '\n' :: later) = (line, some later) := by
  rw [splitLine_append inside, splitLine, if_pos rfl, List.append_nil]

/-- The last line goes up to the end. -/
theorem splitLine_last {line : List Char} (inside : '\n' ∉ line) :
    splitLine line = (line, none) := by
  have whole := splitLine_append inside []
  rwa [splitLine, List.append_nil] at whole

theorem lineAt?_succ (n : Nat) (cs : List Char) :
    lineAt? (n + 1) cs = (splitLine cs).2.bind (lineAt? n) := by
  cases cs <;> rfl

/-- Lines are numbered by the line feeds before them. -/
theorem lineAt?_behind {before : List Char} (start : LineStart before) (rest : List Char) :
    lineAt? (before.count '\n') (before ++ rest) = lineAt? 0 rest := by
  generalize hcount : before.count '\n' = count
  induction count generalizing before with
  | zero =>
      have none : '\n' ∉ before := List.count_eq_zero.1 hcount
      cases hlast : before.getLast? with
      | none => rw [List.getLast?_eq_none_iff.1 hlast, List.nil_append]
      | some c => exact absurd (start c hlast ▸ List.mem_of_getLast? hlast) none
  | succ count ih =>
      have feed : '\n' ∈ before := List.count_pos_iff.1 (by omega)
      obtain ⟨line, later, rfl, inside⟩ := List.eq_append_cons_of_mem feed
      rw [List.count_append, List.count_cons_self, List.count_eq_zero.2 inside, Nat.zero_add]
        at hcount
      have start' : LineStart later := by
        rw [List.append_cons] at start
        exact start.of_append
      rw [lineAt?_succ, List.append_assoc, List.cons_append, splitLine_feed inside]
      exact ih start' (Nat.succ.inj hcount)

/-- How a line ends: with the text, with a line feed, or with a carriage
return before one. -/
inductive LineEnd : List Char → List Char → Prop
  | text (line : List Char) : LineEnd line []
  | feed {line : List Char} (later : List Char) (bare : line.getLast? ≠ some '\r') :
    LineEnd line ('\n' :: later)
  | crlf (line later : List Char) : LineEnd line ('\r' :: '\n' :: later)

/-- The first line of a text goes on behind its start, if that is not the
whole of it. -/
theorem firstLine_append {head back : List Char} (inside : '\n' ∉ head)
    (plain : ∀ c ∈ back.head?, c ≠ '\n') :
    ∃ tail ending, back = tail ++ ending ∧ firstLine (head ++ back) = head ++ tail
      ∧ '\n' ∉ tail ∧ LineEnd (head ++ tail) ending := by
  unfold firstLine
  by_cases feed : '\n' ∈ back
  · obtain ⟨line, later, rfl, inside'⟩ := List.eq_append_cons_of_mem feed
    rw [splitLine_append inside, splitLine_feed inside']
    simp only
    unfold dropReturn
    split
    next last =>
      -- the carriage return belongs to the end of the line, not to its start
      cases hline : line.getLast? with
      | none =>
          rw [List.getLast?_eq_none_iff.1 hline] at plain
          exact absurd rfl (plain '\n' rfl)
      | some c =>
          rw [List.getLast?_append, hline] at last
          obtain rfl : c = '\r' := Option.some.inj last
          obtain ⟨tail, rfl⟩ := List.getLast?_eq_some_iff.1 hline
          refine ⟨tail, '\r' :: '\n' :: later, ?_, ?_, ?_, .crlf _ _⟩
          · rw [List.append_assoc]
            rfl
          · rw [← List.append_assoc, List.dropLast_concat]
          · exact fun found => inside' (List.mem_append_left _ found)
    next last => exact ⟨line, '\n' :: later, rfl, rfl, inside', .feed later last⟩
  · rw [splitLine_append inside, splitLine_last feed]
    exact ⟨back, [], (List.append_nil _).symm, rfl, feed, .text _⟩

theorem lineAt?_zero {cs : List Char} (filled : cs ≠ []) : lineAt? 0 cs = some (firstLine cs) := by
  cases cs with
  | nil => exact absurd rfl filled
  | cons c cs => rfl

end SqlSelect.Text

namespace SqlSelect

/-- The place behind whole lines and the start of another. -/
theorem Position.behind_append {before head : List Char} (start : Text.LineStart before)
    (inside : '\n' ∉ head) :
    behind (before ++ head) = ⟨before.count '\n' + 1, head.length + 1⟩ := by
  have run : ∀ c ∈ head.reverse, decide (c ≠ '\n') = true := by
    intro c found
    refine decide_eq_true ?_
    rintro rfl
    exact inside (List.mem_reverse.1 found)
  have stop : before.reverse.head?.any (fun c => decide (c ≠ '\n')) = false := by
    rw [List.head?_reverse]
    cases hlast : before.getLast? with
    | none => rfl
    | some c => rw [start c hlast]; rfl
  unfold behind
  rw [List.count_append, List.count_eq_zero.2 inside, List.reverse_append, takeWhile_run run stop,
    List.length_reverse, Nat.add_zero]

end SqlSelect
