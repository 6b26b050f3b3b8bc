/-
How the steps of a scanner cover a text.

Whatever a step finds, a token or a fault, the next step starts where that
stops, so that nothing is read twice and nothing but trivia is passed over.
`Tiling` describes a run of steps in this way, one result at a time, and the
rest is read off it: the order of the results, the text between them, and
that the end is reached after no more steps than there are characters and
found from then on.
-/
import SqlSelect.Proofs.Layout.Places

namespace SqlSelect

open Text (byteLength)

-- =========================================================== results

/-- What a step through a text yields, with the fault located. -/
abbrev Found := Except Error Token

namespace Found

/-- The result of a step through `text`. -/
def ofStep (text : List Char) (step : Step) : Found :=
  match step.found with
  | .ok kind => .ok ⟨kind, step.span⟩
  | .error fault => .error (Error.locate text (.lexical fault) step.span)

/-- The place of a result. -/
def span : Found → Span
  | .ok token => token.span
  | .error e => e.span

/-- The end of a text of so many bytes. -/
def ending (length : Nat) : Found := .ok (endToken length)

/-- Whether the result is the end of the input, wherever that is said to
be. -/
def IsEnd (r : Found) : Prop := ∃ span, r = .ok ⟨.eof, span⟩

theorem span_ofStep (text : List Char) (step : Step) : (ofStep text step).span = step.span := by
  unfold ofStep
  split <;> rfl

theorem found_of_isEnd {text : List Char} {step : Step} (h : (ofStep text step).IsEnd) :
    step.found = .ok .eof := by
  obtain ⟨span, h⟩ := h
  unfold ofStep at h
  split at h
  next kind found =>
    have same : kind = .eof := congrArg Token.kind (Except.ok.inj h)
    rw [found, same]
  next => cases h

end Found

/-- Results that are found one behind the other in a text from `front` on. -/
inductive Tiling : List Char → List Char → List Found → Prop
  | none (front rest : List Char) : Tiling front rest []
  | ended {front last : List Char} {later : List Found} (trivia : Trivia.Closing last)
    (more : Tiling (front ++ last) [] later) :
    Tiling front last (.ending (byteLength (front ++ last)) :: later)
  | found {front gap word rest : List Char} {r : Found} {later : List Found}
    (trivia : Filler gap) (filled : word ≠ []) (inner : ¬r.IsEnd)
    (place : r.span = ⟨byteLength (front ++ gap), byteLength (front ++ (gap ++ word))⟩)
    (more : Tiling (front ++ (gap ++ word)) rest later) :
    Tiling front (gap ++ (word ++ rest)) (r :: later)

theorem Scanner.length_steps (count : Nat) (s : Scanner) : (s.steps count).length = count := by
  induction count generalizing s with
  | zero => rfl
  | succ count ih =>
      rw [Scanner.steps, List.length_cons, ih]

/-- Steps from a place in a text cover it from there on. -/
theorem Scanner.tiling_steps {text : List Char} (count : Nat) {s : Scanner} {front : List Char}
    (offset : s.offset = byteLength front) :
    Tiling front s.rest ((s.steps count).map (Found.ofStep text)) := by
  induction count generalizing s front with
  | zero => exact .none front s.rest
  | succ count ih =>
      rw [Scanner.steps]
      rcases s.step_cases with ⟨trivia, hstep⟩ |
        ⟨gap, word, later, kind, hrest, trivia, filled, -, inner, hstep⟩
      · have stop : s.offset + byteLength s.rest = byteLength (front ++ s.rest) := by
          rw [offset, Text.byteLength_append]
        rw [hstep, stop]
        exact .ended trivia (ih (s := ⟨_, []⟩) rfl)
      · have stop : s.offset + byteLength gap + byteLength word
            = byteLength (front ++ (gap ++ word)) := by
          rw [offset, Text.byteLength_append, Text.byteLength_append, Nat.add_assoc]
        rw [hstep, hrest]
        refine .found trivia filled (fun ended => inner (Found.found_of_isEnd ended)) ?_
          (ih (s := ⟨_, later⟩) stop)
        rw [Found.span_ofStep, stop, offset, ← Text.byteLength_append]

namespace Tiling

variable {front rest : List Char} {results : List Found}

/-- Every result consists of whole characters of the text to come. -/
theorem word (h : Tiling front rest results) {r : Found} (mem : r ∈ results) :
    ∃ gap word later, rest = gap ++ (word ++ later)
      ∧ r.span = ⟨byteLength (front ++ gap), byteLength (front ++ (gap ++ word))⟩ := by
  induction h with
  | none => cases mem
  | @ended front last later trivia more ih =>
      rcases List.mem_cons.1 mem with rfl | mem
      · exact ⟨last, [], [], (List.append_nil _).symm, by rw [List.append_nil]; rfl⟩
      · obtain ⟨gap, word, later, whole, place⟩ := ih mem
        refine ⟨last ++ gap, word, later, ?_, ?_⟩
        · rw [List.append_assoc, ← whole, List.append_nil]
        · simpa only [List.append_assoc] using place
  | @found front gap word rest r' later trivia filled inner place more ih =>
      rcases List.mem_cons.1 mem with rfl | mem
      · exact ⟨gap, word, rest, rfl, place⟩
      · obtain ⟨gap', word', later, rfl, place'⟩ := ih mem
        refine ⟨gap ++ (word ++ gap'), word', later, ?_, ?_⟩
        · simp only [List.append_assoc]
        · simpa only [List.append_assoc] using place'

/-- No result starts before the text that is covered. -/
theorem start_le (h : Tiling front rest results) {r : Found} (mem : r ∈ results) :
    byteLength front ≤ r.span.start := by
  obtain ⟨gap, word, later, -, place⟩ := h.word mem
  rw [place, Text.byteLength_append]
  exact Nat.le_add_right _ _

theorem boundaries (h : Tiling front rest results) {r : Found} (mem : r ∈ results) :
    Text.Boundary (front ++ rest) r.span.start ∧ Text.Boundary (front ++ rest) r.span.stop := by
  obtain ⟨gap, word, later, rfl, place⟩ := h.word mem
  rw [place]
  refine ⟨⟨front ++ gap, word ++ later, ?_, rfl⟩, ⟨front ++ (gap ++ word), later, ?_, rfl⟩⟩
  all_goals simp only [List.append_assoc]

theorem ordered (h : Tiling front rest results) :
    results.Pairwise fun a b => a.span.stop ≤ b.span.start := by
  induction h with
  | none => exact .nil
  | ended _ more ih => exact .cons (fun b mem => more.start_le mem) ih
  | found _ _ _ place more ih =>
      refine .cons (fun b mem => ?_) ih
      rw [place]
      exact more.start_le mem

/-- A result takes up some text, unless it is the end of the text. -/
theorem filled (h : Tiling front rest results) {r : Found} (mem : r ∈ results) :
    r = .ending (byteLength (front ++ rest)) ∨ ¬r.IsEnd ∧ r.span.start < r.span.stop := by
  induction h with
  | none => cases mem
  | @ended front last later trivia more ih =>
      rcases List.mem_cons.1 mem with rfl | mem
      · exact Or.inl rfl
      · have later := ih mem
        rwa [List.append_nil] at later
  | @found front gap word rest r' later trivia filled inner place more ih =>
      rcases List.mem_cons.1 mem with rfl | mem
      · have some_byte : 0 < byteLength word :=
          Nat.lt_of_lt_of_le (List.length_pos_iff.2 filled) (Text.length_le_byteLength word)
        refine Or.inr ⟨inner, ?_⟩
        simp only [place, Text.byteLength_append]
        omega
      · have later := ih mem
        simpa only [List.append_assoc] using later

/-- Behind the end of a text there is only the end. -/
theorem eq_ending (h : Tiling front [] results) {r : Found} (mem : r ∈ results) :
    r = .ending (byteLength front) := by
  generalize hrest : ([] : List Char) = rest at h
  induction h with
  | none => cases mem
  | ended _ _ ih =>
      subst hrest
      rw [List.append_nil] at ih
      rcases List.mem_cons.1 mem with rfl | mem
      · rw [List.append_nil]
      · exact ih mem rfl
  | found _ filled _ _ _ _ =>
      exact absurd (List.append_eq_nil_iff.1 (List.append_eq_nil_iff.1 hrest.symm).2).1 filled

/-- Once the end is found it is found again. -/
theorem stays (h : Tiling front rest results) :
    results.Pairwise fun a b => a.IsEnd → b = .ending (byteLength (front ++ rest)) := by
  induction h with
  | none => exact .nil
  | ended _ more ih =>
      rw [List.append_nil] at ih
      exact .cons (fun b mem _ => more.eq_ending mem) ih
  | found _ _ inner _ _ ih =>
      refine .cons (fun b _ ended => absurd ended inner) ?_
      simpa only [List.append_assoc] using ih

/-- It is found when there were as many results as there are characters. -/
theorem reached (h : Tiling front rest results) {i : Nat} {r : Found}
    (enough : rest.length ≤ i) (found : results[i]? = some r) :
    r = .ending (byteLength (front ++ rest)) := by
  induction h generalizing i with
  | none => cases found
  | ended _ more _ =>
      cases i with
      | zero => exact (Option.some.inj found).symm
      | succ i => exact more.eq_ending (List.mem_of_getElem? found)
  | found _ filled _ _ _ ih =>
      have some_char := List.length_pos_iff.2 filled
      simp only [List.length_append] at enough
      cases i with
      | zero => omega
      | succ i =>
          have later := ih (by omega) found
          simpa only [List.append_assoc] using later

/-- Between the results stands trivia. -/
theorem between (h : Tiling front rest results) {before after : List Found} {r : Found}
    (split : results = before ++ r :: after) :
    ∃ passed gap back, front ++ rest = passed ++ (gap ++ back)
      ∧ byteLength passed = (before.getLast?.map (·.span.stop)).getD (byteLength front)
      ∧ byteLength (passed ++ gap) = r.span.start
      ∧ (Filler gap ∨ back = [] ∧ Trivia.Closing gap) := by
  induction h generalizing before with
  | none => cases before <;> cases split
  | @ended front last later trivia more ih =>
      cases before with
      | nil =>
          cases split
          exact ⟨front, last, [], by rw [List.append_nil], rfl, rfl, Or.inr ⟨rfl, trivia⟩⟩
      | cons b before =>
          obtain ⟨rfl, tail⟩ := List.cons.inj split
          obtain ⟨passed, gap, back, whole, stop, start, filler⟩ := ih tail
          refine ⟨passed, gap, back, ?_, ?_, start, filler⟩
          · rw [← whole, List.append_nil]
          · rw [stop, lastStop_cons]
            rfl
  | @found front gap word rest r' later trivia filled inner place more ih =>
      cases before with
      | nil =>
          cases split
          exact ⟨front, gap, word ++ rest, rfl, rfl, by rw [place], Or.inl trivia⟩
      | cons b before =>
          obtain ⟨rfl, tail⟩ := List.cons.inj split
          obtain ⟨passed, gap', back, whole, stop, start, filler⟩ := ih tail
          refine ⟨passed, gap', back, ?_, ?_, start, filler⟩
          · rw [← whole]
            simp only [List.append_assoc]
          · rw [stop, lastStop_cons, place]

end Tiling

-- ============================================================= tiles

/-- The results cover the text: each consists of whole characters, they stand
in order without overlaps, all but the end take up some text, and what lies
between them is trivia, closed but for a comment that the end of the text
ends. The end is where the text ends; once found it is found again, and that
is after no more results than there are characters. -/
structure Tiles (text : List Char) (results : List Found) : Prop where
  boundaries : ∀ r ∈ results,
    Text.Boundary text r.span.start ∧ Text.Boundary text r.span.stop
  ordered : results.Pairwise fun a b => a.span.stop ≤ b.span.start
  filled : ∀ r ∈ results,
    r = .ending (byteLength text) ∨ ¬r.IsEnd ∧ r.span.start < r.span.stop
  between : ∀ before r after, results = before ++ r :: after →
    ∃ passed gap back, text = passed ++ (gap ++ back)
      ∧ byteLength passed = (before.getLast?.map (·.span.stop)).getD 0
      ∧ byteLength (passed ++ gap) = r.span.start
      ∧ (Filler gap ∨ back = [] ∧ Trivia.Closing gap)
  reached : ∀ i r, text.length ≤ i → results[i]? = some r → r = .ending (byteLength text)
  stays : results.Pairwise fun a b => a.IsEnd → b = .ending (byteLength text)

/-- However many steps are made through a text, also behind faults and behind
the end, their results cover it. -/
theorem tiles_lexSteps (source : String) (count : Nat) :
    (lexSteps source count).length = count ∧ Tiles source.toList (lexSteps source count) := by
  have tiling : Tiling [] source.toList (lexSteps source count) :=
    Scanner.tiling_steps count (s := .start source.toList) rfl
  refine ⟨?_, fun r mem => tiling.boundaries mem, tiling.ordered, fun r mem => tiling.filled mem,
    fun before r after split => tiling.between split,
    fun i r enough found => tiling.reached enough found, tiling.stays⟩
  rw [lexSteps, List.length_map, Scanner.length_steps]

end SqlSelect
