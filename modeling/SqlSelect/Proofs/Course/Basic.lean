/-
What follows from how a parser is put together.

A `Course` is a parser made of looks at the tokens ahead, moves over them and
faults. Its `mark` is the index of a token that the cursor has reached: a
broken rule may name only tokens up to there, so that a place is always a
place in the input. Every production has a course, and two facts are read off
it once for all of them: the cursor moves forward and faults name tokens of
the input (`Course.steps`), and what is reported never decides what is read
(`Course.quiet`).

# Marks

A mark is moved up by the two parsers that yield the index of a token: where
`position` is read or a symbol has been found, what follows starts from a
later mark. So a course is not closed under rearranging its parts, and a place
made of two indices in the wrong order, or of one that has not been reached,
has none.

# Speculation

A parser that sets the flag of attempts, goes back or reports has no course of
its own. It may stand in one as `own`, with its steps alone, if the course
says that it speculates. `Quiet` holds only of those that do not: run aloud or
in an attempt, they read the same and fail the same, and all that they may
report is the rule that they break.
-/
import SqlSelect.Proofs.Cursor

namespace SqlSelect.Grammar

variable {α β : Type}

-- =========================================================== places

/-- The tokens of a stretch stand in order and among those that the cursor
has passed or has ahead. -/
def State.Covers (s : State) (place : Stretch) : Prop :=
  place.first ≤ place.last ∧ place.last < s.position + s.rest.length

/-- The end of the input stays ahead. -/
theorem Moves.eof_mem {s t : State} {ks : List Kind} (m : Moves s ks t) (h : .eof ∈ s.rest) :
    .eof ∈ t.rest := by
  rw [m.rest] at h
  exact (List.mem_append.1 h).resolve_left m.inner

/-- The number of all tokens stays the same. -/
theorem Moves.total {s t : State} {ks : List Kind} (m : Moves s ks t) :
    t.position + t.rest.length = s.position + s.rest.length := by
  rw [m.position, m.rest, List.length_append]
  omega

/-- The cursor moves forward. -/
theorem Moves.le_position {s t : State} {ks : List Kind} (m : Moves s ks t) :
    s.position ≤ t.position := by
  rw [m.position]
  exact Nat.le_add_right _ _

/-- What is covered behind a move is covered before it. -/
theorem State.Covers.before {place : Stretch} {s t : State} {ks : List Kind} (m : Moves s ks t)
    (h : t.Covers place) : s.Covers place := by
  unfold Covers at *
  rw [← m.total]
  exact h

/-- Where the input has an end, the current token is one of its tokens. -/
theorem State.position_lt {s : State} (h : .eof ∈ s.rest) :
    s.position < s.position + s.rest.length :=
  Nat.lt_add_of_pos_right (List.length_pos_of_mem h)

/-- The cursor stands at a token of the input, whose end is ahead. -/
structure State.StandsIn (s : State) (kinds : List Kind) : Prop where
  rest : s.rest = kinds.drop s.position
  ends : .eof ∈ s.rest

namespace State.StandsIn

variable {s s' : State} {kinds ks : List Kind}

/-- A look ahead is a look into the whole input. -/
theorem kindAt (h : s.StandsIn kinds) (ahead : Nat) :
    s.kindAt ahead = kinds.getD (s.position + ahead) .eof := by
  rw [State.kindAt, h.rest, List.getD_eq_getElem?_getD, List.getD_eq_getElem?_getD,
    List.getElem?_drop]

/-- What is left is what the position leaves. -/
theorem length_rest (h : s.StandsIn kinds) : s.rest.length = kinds.length - s.position := by
  rw [h.rest, List.length_drop]

/-- The current token is one of the input. -/
theorem position_lt (h : s.StandsIn kinds) : s.position < kinds.length := by
  have left := List.length_pos_of_mem h.ends
  rw [h.length_rest] at left
  omega

/-- A cursor that moves stands in the same input. -/
theorem moves (h : s.StandsIn kinds) (m : Moves s ks s') : s'.StandsIn kinds := by
  refine ⟨?_, m.eof_mem h.ends⟩
  have split : ks ++ s'.rest = kinds.drop s.position := m.rest.symm.trans h.rest
  have behind := congrArg (List.drop ks.length) split
  rw [List.drop_left, List.drop_drop, ← m.position] at behind
  exact behind

/-- One token further on there still is an end ahead. -/
theorem advance (h : s.StandsIn kinds) (inner : s.kindAt 0 ≠ .eof) :
    s.advance.StandsIn kinds :=
  h.moves (Grammar.moves_advance rfl inner)

end State.StandsIn

/-- The state that a parser ends in. -/
def final : EStateM.Result Fault State α → State
  | .ok _ s => s
  | .error _ s => s

/-- A cursor that has reached `mark` moves forward whatever the outcome is, and
a fault names tokens of the input if that has an end. -/
structure Steps (mark : Nat) (p : Parser α) : Prop where
  onward : ∀ ⦃s⦄, mark ≤ s.position → ∃ ks, Moves s ks (final (p s))
  inside : ∀ ⦃s fault s'⦄, mark ≤ s.position → .eof ∈ s.rest → p s = .error fault s' →
    s.Covers fault.place

/-- A success ends behind the tokens that were passed. -/
theorem Steps.moves {mark : Nat} {p : Parser α} (h : Steps mark p) {s s' : State} {a : α}
    (reached : mark ≤ s.position) (hp : p s = .ok a s') : ∃ ks, Moves s ks s' := by
  have m := h.onward reached
  rwa [hp] at m

-- ========================================================== courses

/-- How a parser is put together, from a cursor on that has reached `mark`.
A course that speculates may hold parsers of which only the steps are
known. -/
inductive Course (speculates : Bool) : {α : Type} → Nat → Parser α → Prop
  | pure {α : Type} {mark : Nat} (a : α) : Course speculates mark (pure a)
  | look {α : Type} {mark : Nat} (f : List Kind → α) :
    Course speculates mark fun s => .ok (f s.rest) s
  | advance {mark : Nat} : Course speculates mark advance
  | unexpected {α : Type} {mark : Nat} (expected : String) :
    Course speculates mark (unexpected expected : Parser α)
  | reject {α : Type} {mark first last : Nat} (rule : Rule) (ordered : first ≤ last)
    (reached : last ≤ mark) : Course speculates mark (reject rule first last : Parser α)
  /-- A rule broken by a token and the one behind it, which is seen first. -/
  | rejectPair {α : Type} {mark : Nat} {k : Kind} {f : Nat → Parser α} (rule : Rule)
    (inner : k ≠ .eof) (other : ∀ i, mark ≤ i → Course speculates i (f i)) :
    Course speculates mark (Grammar.position >>= fun i => peek 1 >>= fun found =>
      if found = k then positionAt 1 >>= Grammar.reject rule i else f i)
  | position {α : Type} {mark : Nat} {f : Nat → Parser α}
    (later : ∀ i, mark ≤ i → Course speculates i (f i)) :
    Course speculates mark (position >>= f)
  | expect {α : Type} {mark : Nat} {f : Nat → Parser α} (symbol : Symbol)
    (later : ∀ i, mark ≤ i → Course speculates i (f i)) :
    Course speculates mark (expect symbol >>= f)
  | bind {α β : Type} {mark : Nat} {p : Parser α} {f : α → Parser β}
    (first : Course speculates mark p) (later : ∀ a, Course speculates mark (f a)) :
    Course speculates mark (p >>= f)
  | own {α : Type} {mark : Nat} {p : Parser α} (allowed : speculates = true)
    (steps : Steps mark p) : Course speculates mark p

-- ============================================ the steps of a course

/-- At the end of the input the cursor stays. -/
theorem State.advance_eof {s : State} (h : s.kindAt 0 = .eof) : s.advance = s := by
  unfold advance
  unfold kindAt at h
  split
  next => rfl
  next => rfl
  next inner hrest =>
    rw [hrest] at h
    exact absurd h inner

/-- To advance passes one token, or none at the end. -/
theorem State.moves_advance (s : State) : ∃ ks, Moves s ks s.advance := by
  by_cases h : s.kindAt 0 = .eof
  · rw [State.advance_eof h]
    exact ⟨[], Moves.refl s⟩
  · exact ⟨_, Grammar.moves_advance rfl h⟩

/-- A symbol that must be there is passed, or is what is missing. -/
theorem expect_apply (symbol : Symbol) (s : State) :
    expect symbol s = if s.kindAt 0 = .symbol symbol then .ok s.position s.advance
      else unexpected ("`" ++ symbol.text ++ "`") s := by
  unfold expect
  rw [position_bind, consume_bind]
  by_cases here : s.kindAt 0 = .symbol symbol
  · rw [if_pos here, if_pos here]
    rfl
  · rw [if_neg here, if_neg here]
    rfl

/-- What follows gets the index of the symbol. -/
theorem expect_bind (symbol : Symbol) (f : Nat → Parser α) (s : State) :
    (expect symbol >>= f) s = if s.kindAt 0 = .symbol symbol then f s.position s.advance
      else unexpected ("`" ++ symbol.text ++ "`") s := by
  rw [bind_apply, expect_apply]
  by_cases here : s.kindAt 0 = .symbol symbol
  · rw [if_pos here, if_pos here]
  · rw [if_neg here, if_neg here]
    rfl

/-- One behind the other, parsers only move forward if both do. -/
theorem onward_bind {p : Parser α} {f : α → Parser β} {s : State}
    (first : ∃ ks, Moves s ks (final (p s)))
    (later : ∀ a t ks, Moves s ks t → ∃ ls, Moves t ls (final (f a t))) :
    ∃ ks, Moves s ks (final ((p >>= f) s)) := by
  rw [bind_apply]
  cases hp : p s with
  | error fault t =>
      rw [hp] at first
      exact first
  | ok a t =>
      rw [hp] at first
      obtain ⟨ks, m⟩ := first
      obtain ⟨ls, n⟩ := later a t ks m
      exact ⟨_, m.trans n⟩

/-- A fault of the second parser lies in the input before the first one, too.
-/
theorem Steps.bind {mark : Nat} {p : Parser α} {f : α → Parser β} (first : Steps mark p)
    (later : ∀ a, Steps mark (f a)) : Steps mark (p >>= f) := by
  refine ⟨fun s reached => ?_, ?_⟩
  · exact onward_bind (first.onward reached) fun a t ks m =>
      (later a).onward (Nat.le_trans reached m.le_position)
  · intro s fault s' reached ends h
    rcases bind_error h with hp | ⟨a, t, hp, hf⟩
    · exact first.inside reached ends hp
    · obtain ⟨ks, m⟩ := first.moves reached hp
      have reached' := Nat.le_trans reached m.le_position
      exact ((later a).inside reached' (m.eof_mem ends) hf).before m

/-- The token that no rule takes is the current one. -/
theorem Steps.unexpected (mark : Nat) (expected : String) :
    Steps mark (unexpected expected : Parser α) := by
  refine ⟨fun s _ => ⟨[], Moves.refl s⟩, ?_⟩
  intro s fault s' _ ends h
  cases h
  exact ⟨Nat.le_refl _, s.position_lt ends⟩

/-- A broken rule leaves the cursor where it is. -/
theorem onward_reject (rule : Rule) (first last : Nat) (s : State) :
    ∃ ks, Moves s ks (final ((reject rule first last : Parser α) s)) := by
  rw [reject_apply]
  cases s.trial <;> exact ⟨[], Moves.stay rfl rfl⟩

/-- A rule is broken by tokens that have been reached. -/
theorem Steps.reject {mark first last : Nat} (rule : Rule) (ordered : first ≤ last)
    (reached : last ≤ mark) : Steps mark (reject rule first last : Parser α) := by
  refine ⟨fun s _ => onward_reject rule first last s, ?_⟩
  intro s fault s' here ends h
  cases h
  exact ⟨ordered, Nat.lt_of_le_of_lt (Nat.le_trans reached here) (s.position_lt ends)⟩

/-- The current token has been reached. -/
theorem Steps.position {mark : Nat} {f : Nat → Parser α}
    (later : ∀ i, mark ≤ i → Steps i (f i)) : Steps mark (position >>= f) := by
  refine ⟨fun s reached => (later s.position reached).onward (Nat.le_refl _), ?_⟩
  intro s fault s' reached ends h
  rw [position_bind] at h
  exact (later s.position reached).inside (Nat.le_refl _) ends h

/-- So has a symbol that was found. -/
theorem Steps.expect {mark : Nat} {f : Nat → Parser α} (symbol : Symbol)
    (later : ∀ i, mark ≤ i → Steps i (f i)) : Steps mark (expect symbol >>= f) := by
  refine ⟨?_, ?_⟩
  · intro s reached
    rw [expect_bind]
    split
    next here =>
      have m := Grammar.moves_advance here nofun
      obtain ⟨ls, n⟩ := (later s.position reached).onward m.le_position
      exact ⟨_, m.trans n⟩
    next => exact ⟨[], Moves.refl s⟩
  · intro s fault s' reached ends h
    rw [expect_bind] at h
    split at h
    next here =>
      have m := Grammar.moves_advance here nofun
      exact ((later s.position reached).inside m.le_position (m.eof_mem ends) h).before m
    next => exact (Steps.unexpected mark _).inside reached ends h

/-- A token that is seen ahead is one of the input. -/
theorem State.lt_length_of_kindAt {s : State} {ahead : Nat} (h : s.kindAt ahead ≠ .eof) :
    ahead < s.rest.length := by
  rcases Nat.lt_or_ge ahead s.rest.length with within | beyond
  · exact within
  · refine absurd ?_ h
    rw [kindAt, List.getD_eq_getElem?_getD, List.getElem?_eq_none beyond]
    rfl

/-- A token seen ahead that is not the end stands in the input. -/
theorem Steps.rejectPair {mark : Nat} {k : Kind} {f : Nat → Parser α} (rule : Rule)
    (inner : k ≠ .eof) (other : ∀ i, mark ≤ i → Steps i (f i)) :
    Steps mark (Grammar.position >>= fun i => peek 1 >>= fun found =>
      if found = k then positionAt 1 >>= Grammar.reject rule i else f i) := by
  refine ⟨?_, ?_⟩
  · intro s reached
    rw [position_bind, peek_bind]
    split
    next => exact onward_reject rule _ _ s
    next => exact (other s.position reached).onward (Nat.le_refl _)
  · intro s fault s' reached ends h
    rw [position_bind, peek_bind] at h
    split at h
    next seen =>
      have pair : 1 < s.rest.length := s.lt_length_of_kindAt (seen ▸ inner)
      cases h
      exact ⟨Nat.le_succ _, Nat.add_lt_add_left pair s.position⟩
    next => exact (other s.position reached).inside (Nat.le_refl _) ends h

/-- A parser moves as its course says, and its faults lie in the input. -/
theorem Course.steps {speculates : Bool} {mark : Nat} {p : Parser α}
    (h : Course speculates mark p) : Steps mark p := by
  induction h with
  | pure a => exact ⟨fun s _ => ⟨[], Moves.refl s⟩, fun s fault s' _ _ h => nomatch h⟩
  | look f => exact ⟨fun s _ => ⟨[], Moves.refl s⟩, fun s fault s' _ _ h => nomatch h⟩
  | advance => exact ⟨fun s _ => s.moves_advance, fun s fault s' _ _ h => nomatch h⟩
  | unexpected expected => exact Steps.unexpected _ expected
  | reject rule ordered reached => exact Steps.reject rule ordered reached
  | rejectPair rule inner _ ih => exact Steps.rejectPair rule inner ih
  | position _ ih => exact Steps.position ih
  | expect symbol _ ih => exact Steps.expect symbol ih
  | bind _ _ first later => exact Steps.bind first later
  | own _ steps => exact steps

-- ===================================================== what is reported

/-- The reports of a fault that is no mere attempt's. -/
def Fault.reports (fault : Fault) : List (Event Stretch) :=
  match fault.cause with
  | .invalid rule => [.rejected rule fault.place]
  | _ => []

/-- The same place in an attempt that has reported nothing. -/
def State.hushed (s : State) : State := { s with trial := true, events := [] }

/-- What an attempt comes to where it is none and follows the reports of
`s`. -/
def State.aloud (s : State) : EStateM.Result Fault State α → EStateM.Result Fault State α
  | .ok a s' => .ok a { s' with trial := s.trial, events := s.events }
  | .error fault s' => .error fault { s' with
      trial := s.trial
      events := s.events ++ if s.trial then [] else fault.reports }

/-- From `mark` on, what is read depends on the tokens alone. A success
reports nothing, and a failure no more than its fault. -/
def Quiet (mark : Nat) (p : Parser α) : Prop :=
  ∀ s : State, mark ≤ s.position → p s = s.aloud (p s.hushed)

/-- An attempt stays one and reports nothing if it succeeds. -/
theorem Quiet.hushed_of_ok {mark : Nat} {p : Parser α} (quiet : Quiet mark p) {s s' : State}
    {a : α} (reached : mark ≤ s.position) (h : p s.hushed = .ok a s') : s'.hushed = s' := by
  have again := quiet s.hushed reached
  rw [show s.hushed.hushed = s.hushed from rfl, h] at again
  exact (EStateM.Result.ok.inj again).2.symm

/-- The second parser starts where the first one ends, aloud or hushed. -/
theorem Quiet.bind {mark : Nat} {p : Parser α} {f : α → Parser β} (steps : Steps mark p)
    (first : Quiet mark p) (later : ∀ a, Quiet mark (f a)) : Quiet mark (p >>= f) := by
  intro s reached
  rw [bind_apply, bind_apply, first s reached]
  cases hp : p s.hushed with
  | error e t => rfl
  | ok a t =>
      obtain ⟨ks, m⟩ := steps.moves (s := s.hushed) reached hp
      have reached' : mark ≤ t.position := Nat.le_trans reached m.le_position
      have loud := later a { t with trial := s.trial, events := s.events } reached'
      have same : ({ t with trial := s.trial, events := s.events } : State).hushed = t :=
        first.hushed_of_ok reached hp
      rw [same] at loud
      exact loud

/-- A missing token is a fault that reports nothing. -/
theorem Quiet.unexpected (mark : Nat) (expected : String) :
    Quiet mark (unexpected expected : Parser α) := by
  intro s _
  have silent :
      Fault.reports ⟨Cause.ofFound expected (s.kindAt 0), ⟨s.position, s.position⟩⟩ = [] := by
    unfold Fault.reports Cause.ofFound
    cases s.kindAt 0 <;> rfl
  rw [unexpected_apply, unexpected_apply]
  show EStateM.Result.error _ s = EStateM.Result.error _ _
  rw [show s.hushed.kindAt 0 = s.kindAt 0 from rfl, show s.hushed.position = s.position from rfl,
    silent]
  simp [State.hushed]

/-- A broken rule is reported, unless it is broken in an attempt. -/
theorem Quiet.reject (mark : Nat) (rule : Rule) (first last : Nat) :
    Quiet mark (reject rule first last : Parser α) := by
  rintro ⟨position, rest, trial, events⟩ _
  cases trial with
  | true => simp [reject_apply, State.aloud, State.hushed]
  | false => simp [reject_apply, State.aloud, State.hushed, State.report, Fault.reports]

/-- To advance leaves the reports alone and does not look at them. -/
theorem State.advance_loud (s : State) (trial : Bool) (events : List (Event Stretch)) :
    ({ s with trial, events } : State).advance = { s.advance with trial, events } := by
  obtain ⟨position, rest, trial', events'⟩ := s
  cases rest with
  | nil => rfl
  | cons k later => cases k <;> rfl

/-- To advance and to hush can be done in either order. -/
theorem State.hushed_advance (s : State) : s.hushed.advance = s.advance.hushed :=
  s.advance_loud true []

/-- To advance changes neither the flag nor the reports. -/
theorem State.advance_reports (s : State) :
    s.advance.trial = s.trial ∧ s.advance.events = s.events := by
  have same : s.advance = { s.advance with trial := s.trial, events := s.events } :=
    s.advance_loud s.trial s.events
  rw [same]
  exact ⟨rfl, rfl⟩

/-- An attempt is as loud one token further on. -/
theorem State.aloud_advance (s : State) (r : EStateM.Result Fault State α) :
    s.advance.aloud r = s.aloud r := by
  obtain ⟨trial, events⟩ := s.advance_reports
  unfold aloud
  rw [trial, events]

/-- To advance reports nothing. -/
theorem Quiet.advance (mark : Nat) : Quiet mark advance := by
  intro s _
  show EStateM.Result.ok () s.advance = s.aloud (EStateM.Result.ok () s.hushed.advance)
  rw [State.hushed_advance, ← State.aloud_advance]
  rfl

/-- A symbol that must be there reports nothing. -/
theorem Quiet.expect {mark : Nat} {f : Nat → Parser α} (symbol : Symbol)
    (later : ∀ i, mark ≤ i → Quiet i (f i)) : Quiet mark (expect symbol >>= f) := by
  intro s reached
  rw [expect_bind, expect_bind, show s.hushed.kindAt 0 = s.kindAt 0 from rfl]
  by_cases here : s.kindAt 0 = .symbol symbol
  · have m := Grammar.moves_advance here nofun
    rw [if_pos here, if_pos here, State.hushed_advance,
      later s.position reached s.advance m.le_position, State.aloud_advance]
    rfl
  · rw [if_neg here, if_neg here]
    exact Quiet.unexpected mark _ s reached

/-- A success leaves the reports as they are. -/
theorem Quiet.ok_reports {p : Parser α} (quiet : Quiet 0 p) {s s' : State} {a : α}
    (h : p s = .ok a s') : s'.trial = s.trial ∧ s'.events = s.events := by
  rw [quiet s (Nat.zero_le _)] at h
  cases hp : p s.hushed with
  | error e t =>
      rw [hp] at h
      cases h
  | ok a t =>
      rw [hp] at h
      cases h
      exact ⟨rfl, rfl⟩

/-- What a parser that does not speculate reads never depends on reports. -/
theorem Course.quiet {mark : Nat} {p : Parser α} (h : Course false mark p) : Quiet mark p := by
  induction h with
  | pure a => exact fun s _ => rfl
  | look f => exact fun s _ => rfl
  | advance => exact Quiet.advance _
  | unexpected expected => exact Quiet.unexpected _ expected
  | reject rule _ _ => exact Quiet.reject _ rule _ _
  | @rejectPair α mark k f rule inner _ ih =>
      intro s reached
      show (if s.kindAt 1 = k then _ else f s.position) s
        = s.aloud ((if s.kindAt 1 = k then _ else f s.position) s.hushed)
      split
      next => exact Quiet.reject mark rule _ _ s reached
      next => exact ih s.position reached s (Nat.le_refl _)
  | position _ ih => exact fun s reached => ih s.position reached s (Nat.le_refl _)
  | expect symbol _ ih => exact Quiet.expect symbol ih
  | bind course _ first later => exact Quiet.bind course.steps first later
  | own allowed _ => cases allowed

-- ======================================================= primitives

section Primitives

variable {speculates : Bool} {mark : Nat}

/-- A look ahead. -/
theorem course_peek (ahead : Nat) : Course speculates mark (peek ahead) :=
  .look fun rest => rest.getD ahead .eof

/-- A look at the current token. -/
theorem course_current : Course speculates mark current := course_peek 0

/-- A look at how much is left. -/
theorem course_tokensLeft : Course speculates mark tokensLeft := .look List.length

/-- Whether a symbol is the current token. -/
theorem course_atSymbol (symbol : Symbol) : Course speculates mark (atSymbol symbol) :=
  .bind course_current fun _ => .pure _

/-- Whether a keyword is the current token. -/
theorem course_atKeyword (keyword : Keyword) : Course speculates mark (atKeyword keyword) :=
  .bind course_current fun _ => .pure _

/-- A look at the state that sees the tokens only. -/
theorem course_get {f : State → Parser α} (blind : ∀ s t : State, s.rest = t.rest → f s = f t)
    (later : ∀ s, Course speculates mark (f s)) : Course speculates mark (get >>= f) := by
  have seen : (get >>= f) = (fun s => .ok s.rest s : Parser (List Kind)) >>= fun rest =>
      f { position := 0, rest, trial := true, events := [] } := by
    funext s
    show f s s = f _ s
    rw [blind s { position := 0, rest := s.rest, trial := true, events := [] } rfl]
  rw [seen]
  exact .bind (.look id) fun rest => later _

/-- So many tokens are passed, by induction on their number. -/
theorem course_skip (count : Nat) : Course speculates mark (skip count) := by
  induction count with
  | zero => exact .pure ()
  | succ count ih => exact .bind .advance fun _ => ih

/-- A symbol is passed if it is there. -/
theorem course_consume (symbol : Symbol) : Course speculates mark (consume symbol) := by
  refine .bind (course_atSymbol symbol) fun here => ?_
  split
  next => exact .bind .advance fun _ => .pure true
  next => exact .pure false

/-- A keyword is passed if it is there. -/
theorem course_consumeKeyword (keyword : Keyword) :
    Course speculates mark (consumeKeyword keyword) := by
  refine .bind (course_atKeyword keyword) fun here => ?_
  split
  next => exact .bind .advance fun _ => .pure true
  next => exact .pure false

/-- A keyword is passed or missing. -/
theorem course_expectKeyword (keyword : Keyword) :
    Course speculates mark (expectKeyword keyword) := by
  refine .bind (course_consumeKeyword keyword) fun found => ?_
  split
  next => exact .pure ()
  next => exact .unexpected _

/-- A name is passed or missing. -/
theorem course_identifier : Course speculates mark identifier := by
  refine .bind course_current fun kind => ?_
  split
  next => exact .bind .advance fun _ => .pure _
  next => exact .unexpected _

variable {body : Parser α} (hbody : ∀ mark, Course speculates mark body)

include hbody

/-- A clause is its keyword and its body, if the keyword is there. -/
theorem course_clause (keyword : Keyword) : Course speculates mark (clause keyword body) := by
  refine .bind (course_consumeKeyword keyword) fun found => ?_
  split
  next => exact .bind (hbody mark) fun _ => .pure _
  next => exact .pure none

/-- Items behind commas, by induction on the bound. -/
theorem course_moreItems (count : Nat) : Course speculates mark (moreItems body count) := by
  induction count with
  | zero => exact .pure []
  | succ count ih =>
      refine .bind (course_consume .comma) fun found => ?_
      split
      next => exact .bind (hbody mark) fun _ => .bind ih fun _ => .pure _
      next => exact .pure []

/-- The first item and those behind it. -/
theorem course_commaSeparated : Course speculates mark (commaSeparated body) :=
  .bind (hbody mark) fun _ => .bind course_tokensLeft fun count =>
    .bind (course_moreItems hbody count) fun _ => .pure _

end Primitives

end SqlSelect.Grammar
