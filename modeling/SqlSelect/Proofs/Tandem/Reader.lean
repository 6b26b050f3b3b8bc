/-
A text beside the kinds of its tokens.

What the grammar makes of a text is what it makes of the kinds of its tokens.
The reader of a text holds spans and makes others of them, and none of them
decides anything. That is a statement about every production, since any of
them may remember a mark, go on, and place a rule from there to the token that
it has reached. Here it is the tandem of the bare cursor and the reader.

# Marks and places

To the bare cursor a mark is an index, to the reader it is the span of the
token there. That both remember the mark of the same token is what a tandem
says of every production. A place is then a pair of indices on the one side
and the least span over two spans on the other (`Stretch.span`), and a fault
or a report with the one is a fault or a report with the other.

# What a parse is

The two runs end in the same way, and from the right cursor what a parse gives
is read off the left one (`parseReporting_eq`). All that is known of the
grammar for lists of kinds holds of texts by this equation, with the tokens at
fault in place of their indices.
-/
import SqlSelect.Proofs.Tandem.State
import SqlSelect.Session

namespace SqlSelect

-- ============================================================= places

/-- The span of the token at an index of a text with these tokens. -/
def markOf (source : String) (tokens : List Token) (i : Nat) : Span :=
  (tokens.getD i (Grammar.Reader.ending source)).span

/-- The least span over the first and the last token of a stretch. -/
def Grammar.Stretch.span (source : String) (tokens : List Token) (place : Stretch) : Span :=
  (markOf source tokens place.first).merge (markOf source tokens place.last)

/-- The event with its places seen another way. -/
def Event.mapPlace {Place Place' : Type} (f : Place → Place') : Event Place → Event Place'
  | .parsed summary => .parsed summary
  | .rejected rule place => .rejected rule (f place)
  | .reparsed position => .reparsed position

namespace Grammar

/-- The fault as an error of a text with these tokens. -/
def Fault.located (source : String) (tokens : List Token) (fault : Fault) : Error :=
  Error.locate source.toList fault.cause (fault.place.span source tokens)

-- ====================================================== the text's side

/-- The reader is one of the text and its tokens, and the end of the input is
the current token or ahead. -/
structure Reader.StandsIn (r : Reader) (source : String) (tokens : List Token) : Prop where
  source_eq : r.source = source
  tokens_eq : r.tokens = tokens
  eof_eq : r.eof = Reader.ending source
  ends : .eof ∈ (tokens.drop r.position).map Token.kind

namespace Reader.StandsIn

variable {r : Reader} {source : String} {tokens : List Token}

theorem tokenAt (h : r.StandsIn source tokens) (ahead : Nat) :
    r.tokenAt ahead = tokens.getD (r.position + ahead) (Reader.ending source) := by
  rw [Reader.tokenAt, h.tokens_eq, h.eof_eq]

theorem kindAt (h : r.StandsIn source tokens) (ahead : Nat) :
    (r.tokenAt ahead).kind = (tokens.map Token.kind).getD (r.position + ahead) .eof := by
  rw [h.tokenAt, List.getD_eq_getElem?_getD, List.getD_eq_getElem?_getD, List.getElem?_map]
  exact (Option.getD_map Token.kind (Reader.ending source) _).symm

theorem position_lt (h : r.StandsIn source tokens) : r.position < tokens.length := by
  have left := List.length_pos_of_mem h.ends
  rw [List.length_map, List.length_drop] at left
  omega

/-- The token before the current one, past the first. -/
theorem previousSpan (h : r.StandsIn source tokens) (moved : 0 < r.position) :
    r.previousSpan = markOf source tokens (r.position - 1) := by
  obtain ⟨before, hbefore⟩ := Nat.exists_eq_succ_of_ne_zero (Nat.ne_of_gt moved)
  unfold Reader.previousSpan
  rw [hbefore, h.tokens_eq, h.eof_eq]
  rfl

/-- The end of the input is behind a token that is not it. -/
theorem advance (h : r.StandsIn source tokens) (inner : (r.tokenAt 0).kind ≠ .eof) :
    r.advance.StandsIn source tokens ∧ r.advance.position = r.position + 1 := by
  have next : r.advance = { r with position := r.position + 1 } := if_neg inner
  rw [next]
  refine ⟨⟨h.source_eq, h.tokens_eq, h.eof_eq, ?_⟩, rfl⟩
  have ends := h.ends
  rw [List.drop_eq_getElem_cons h.position_lt, List.map_cons] at ends
  refine (List.mem_cons.1 ends).resolve_left fun here => inner ?_
  rw [h.tokenAt, Nat.add_zero, List.getD_eq_getElem?_getD, List.getElem?_eq_getElem h.position_lt]
  exact here.symm

end Reader.StandsIn

/-- A reader of the text. -/
def Reader.track (source : String) (tokens : List Token) : Track Reader where
  kinds := tokens.map Token.kind
  mark := markOf source tokens
  fault cause i j := Fault.located source tokens ⟨cause, ⟨i, j⟩⟩
  stands r := r.StandsIn source tokens
  index_lt hr := by
    rw [List.length_map]
    exact hr.position_lt
  kindAt hr ahead := hr.kindAt ahead
  upcoming {r} hr := by
    show (r.tokens.drop r.position).map Token.kind = _
    rw [hr.tokens_eq, List.map_drop]
    rfl
  left {r} hr := by
    show r.tokens.length - r.position = _
    rw [hr.tokens_eq, List.length_map]
    rfl
  markAt hr ahead := congrArg Token.span (hr.tokenAt ahead)
  previous hr moved := hr.previousSpan moved
  faulted {r} hr cause i j := by
    show Error.locate r.source.toList _ _ = _
    rw [hr.source_eq]
    rfl
  step hr inner := hr.advance inner
  report hr _ := ⟨⟨hr.source_eq, hr.tokens_eq, hr.eof_eq, hr.ends⟩, rfl⟩
  setTrial hr _ := ⟨⟨hr.source_eq, hr.tokens_eq, hr.eof_eq, hr.ends⟩, rfl⟩
  back hr hu := ⟨⟨hu.source_eq, hu.tokens_eq, hu.eof_eq, hr.ends⟩, rfl⟩

-- ========================================================= both sides

/-- The reader stands at the token that the bare cursor stands at, and what it
has reported are the reports of the bare cursor, placed in the text. -/
structure Reader.Follows (source : String) (tokens : List Token) (s : State) (r : Reader) :
    Prop where
  stands : r.StandsIn source tokens
  position : r.position = s.position
  speculating : r.speculating = s.trial
  events : r.events = s.events.map (Event.mapPlace (Stretch.span source tokens))

namespace Reader.Follows

variable {source : String} {tokens : List Token} {s : State} {r : Reader}

theorem report (h : r.Follows source tokens s) (event : Event Stretch) :
    Reader.Follows source tokens (s.report event)
      (Cursor.report (event.mapPlace (Stretch.span source tokens)) r) := by
  obtain ⟨⟨text, whole, eof, ends⟩, position, speculating, events⟩ := h
  refine ⟨⟨text, whole, eof, ends⟩, position, speculating, ?_⟩
  show r.events ++ [_] = (s.events ++ [event]).map _
  rw [events, List.map_append, List.map_singleton]

theorem advance (h : r.Follows source tokens s) (hs : s.StandsIn (tokens.map Token.kind))
    (inner : s.kindAt 0 ≠ .eof) : Reader.Follows source tokens s.advance r.advance := by
  have kind : (r.tokenAt 0).kind = s.kindAt 0 := by
    rw [h.stands.kindAt, hs.kindAt, h.position]
  have next : r.advance = { r with position := r.position + 1 } := if_neg (kind ▸ inner)
  obtain ⟨stands, position⟩ := h.stands.advance (kind ▸ inner)
  obtain ⟨trial, events⟩ := s.advance_reports
  refine ⟨stands, ?_, ?_, ?_⟩
  · rw [position, h.position, (Grammar.moves_advance rfl inner).position]
    rfl
  · rw [next, trial]
    exact h.speculating
  · rw [next, events]
    exact h.events

/-- The place of a broken rule is made from the same marks. -/
theorem refused (h : r.Follows source tokens s) (rule : Rule) (i j : Nat) :
    Reader.Follows source tokens (Grammar.refused rule i j s)
      (Grammar.refused rule (markOf source tokens i) (markOf source tokens j) r) := by
  have trial : Cursor.trial r = Cursor.trial s := h.speculating
  unfold Grammar.refused
  rw [trial]
  split
  next => exact h
  next => exact h.report (.rejected rule ⟨i, j⟩)

end Reader.Follows

/-- The bare cursor in the kinds of the tokens, and the reader beside it. -/
def beside (source : String) (tokens : List Token) : Tandem State Reader where
  left := State.track (tokens.map Token.kind)
  right := Reader.track source tokens
  view := .whole
  near _ := True
  within _ := True
  exempt _ := False
  abreast s r := Reader.Follows source tokens s r
  near_mono _ _ := trivial
  near_of_within _ := trivial
  alike _ _ _ := .same _
  right_stands := Reader.Follows.stands
  index_eq := Reader.Follows.position
  step hs h _ inner := h.advance hs inner
  refused _ h rule i j := h.refused rule i j

/-- Readers can go back, and all tokens are the same. -/
theorem beside_rewinds (source : String) (tokens : List Token) :
    (beside source tokens).Rewinds where
  near _ := trivial
  within _ := trivial
  exempt _ := id
  trial := Reader.Follows.speculating
  setTrial _ := fun ⟨stands, position, _, events⟩ _ =>
    ⟨⟨stands.source_eq, stands.tokens_eq, stands.eof_eq, stands.ends⟩, position, rfl, events⟩
  back _ _ := fun ⟨there, position, _, _⟩ ⟨stands, _, speculating, events⟩ =>
    ⟨⟨stands.source_eq, stands.tokens_eq, stands.eof_eq, there.ends⟩, position, speculating, events⟩
  reparsed _ h i := h.report (.reparsed i)

theorem beside_types (source : String) (tokens : List Token) : (beside source tokens).Types :=
  Tandem.types_of_exact fun _ _ => rfl

-- ============================================================== inputs

variable {source : String} {tokens : List Token} {s : State} {r : Reader}

theorem beside_groups (source : String) (tokens : List Token) : (beside source tokens).Groups :=
  (beside_rewinds source tokens).groups (beside_types source tokens)

/-- What comes to a result on the bare side comes to the same on the text's
side, and a fault there is that fault, located. -/
theorem Reader.Follows.run {least : Select → Nat} {p : Parser Select}
    {q : ParserOf Reader Error Select} (h : r.Follows source tokens s)
    (whole : (beside source tokens).At s least (Select.mapNames id) p q) :
    match p s with
    | .ok statement s' => ∃ r', q r = .ok statement r' ∧ Reader.Follows source tokens s' r'
    | .error fault s' =>
      ∃ r', q r = .error (fault.located source tokens) r' ∧ Reader.Follows source tokens s' r' := by
  cases hp : p s with
  | ok statement s' =>
      obtain ⟨-, -, follows⟩ := whole.ok hp
      obtain ⟨statement', r', hr, same, abreast⟩ := follows trivial r h
      rw [hr, Select.mapNames_id_injective same]
      exact ⟨r', rfl, abreast⟩
  | error fault s' =>
      obtain ⟨-, -, -, follows⟩ := whole.error hp
      obtain ⟨error, r', hr, faults, abreast⟩ := (follows trivial r h).resolve_right id
      obtain ⟨seen, left, right, -⟩ := faults
      rw [hr, ← left.cause_eq right rfl seen]
      exact ⟨r', rfl, abreast⟩

/-- The grammar runs on the reader of a text as on the kinds of its tokens. -/
theorem beside_input (hs : s.StandsIn (tokens.map Token.kind)) :
    (beside source tokens).At s none? (Select.mapNames id) input input :=
  tandem_input (beside_types source tokens) (beside_groups source tokens) hs

end Grammar

-- =============================================================== texts

/-- The state that a text with these tokens is parsed from. -/
abbrev Grammar.State.ofKinds (kinds : List Kind) : Grammar.State :=
  { position := 0, rest := kinds, trial := false, events := [] }

/-- A parse starts at the first token. -/
theorem standsIn_of_tokenize {source : String} {tokens : List Token}
    (h : tokenize source = .ok tokens) :
    (Grammar.State.ofKinds (tokens.map Token.kind)).StandsIn (tokens.map Token.kind) := by
  obtain ⟨body, hbody, -⟩ := tokenize_kinds h
  refine ⟨rfl, ?_⟩
  show .eof ∈ tokens.map Token.kind
  rw [hbody]
  exact List.mem_append_right _ (List.mem_singleton_self _)

/-- What a run over the kinds of the tokens amounts to for the text. -/
def Outcome.placed (source : String) (tokens : List Token) :
    EStateM.Result Grammar.Fault Grammar.State Select → Outcome
  | .ok statement after =>
    ⟨.ok statement, after.events.map (Event.mapPlace (Grammar.Stretch.span source tokens))
      ++ [.parsed (Summary.of tokens.length statement)]⟩
  | .error fault after =>
    ⟨.error (fault.located source tokens),
      after.events.map (Event.mapPlace (Grammar.Stretch.span source tokens))⟩

namespace Session

/-- The session is one for the text and stands in no attempt. -/
structure Ready (s : Session) (source : String) : Prop where
  source_eq : s.source = source
  eof_eq : s.eof = Grammar.Reader.ending source
  calm : s.speculating = false

theorem ready_start (source : String) : (start source).Ready source := ⟨rfl, rfl, rfl⟩

variable {s : Session} {source : String} {tokens : List Token}

/-- A session that is ready starts where the kinds of the tokens do. -/
theorem Ready.follows (h : s.Ready source) (htokens : tokenize source = .ok tokens) :
    Grammar.Reader.Follows source tokens (.ofKinds (tokens.map Token.kind))
      { s with tokens, position := 0, events := [] } :=
  ⟨⟨h.source_eq, rfl, h.eof_eq, (standsIn_of_tokenize htokens).ends⟩, rfl, h.calm, rfl⟩

/-- A session that is ready gives what the grammar makes of the kinds, and is
left where that ends. -/
theorem Ready.parseSelect_eq (h : s.Ready source) (htokens : tokenize source = .ok tokens) :
    s.parseSelect.1 = .placed source tokens (Grammar.input (.ofKinds (tokens.map Token.kind)))
      ∧ Grammar.Reader.Follows source tokens
        (Grammar.final (Grammar.input (.ofKinds (tokens.map Token.kind)))) s.parseSelect.2 := by
  obtain rfl := h.source_eq
  have run := (h.follows htokens).run (Grammar.beside_input (standsIn_of_tokenize htokens))
  unfold parseSelect
  rw [htokens]
  cases hinput : Grammar.input (.ofKinds (tokens.map Token.kind)) with
  | ok statement after =>
      rw [hinput] at run
      obtain ⟨r, hr, last⟩ := run
      simp only [hr, last.events]
      exact ⟨rfl, last⟩
  | error fault after =>
      rw [hinput] at run
      obtain ⟨r, hr, last⟩ := run
      simp only [hr, last.events]
      exact ⟨rfl, last⟩

end Session

/-- A text is parsed from the kinds of its tokens, and what is found there is
placed at the tokens. -/
theorem parseReporting_eq {source : String} {tokens : List Token}
    (h : tokenize source = .ok tokens) :
    parseReporting source
      = .placed source tokens (Grammar.input (.ofKinds (tokens.map Token.kind))) :=
  ((Session.ready_start source).parseSelect_eq h).1

/-- A text whose tokens the grammar takes is accepted. -/
theorem parse_of_input {source : String} {statement : Select} {tokens : List Token}
    {after : Grammar.State} (htokens : tokenize source = .ok tokens)
    (hinput : Grammar.input (.ofKinds (tokens.map Token.kind)) = .ok statement after) :
    parse source = .ok statement := by
  rw [parse, parseReporting_eq htokens, hinput]
  rfl

/-- A text whose tokens it refuses is refused where the fault is. -/
theorem parse_of_located {source : String} {tokens : List Token} {fault : Grammar.Fault}
    {after : Grammar.State} (htokens : tokenize source = .ok tokens)
    (hinput : Grammar.input (.ofKinds (tokens.map Token.kind)) = .error fault after) :
    parse source = .error (fault.located source tokens) := by
  rw [parse, parseReporting_eq htokens, hinput]
  rfl

/-- A text that does not divide into tokens has a fault in it. -/
theorem fault_of_tokenize {source : String} {e : Error} (h : tokenize source = .error e) :
    ∃ fault span, e = Error.locate source.toList (.lexical fault) span
      ∧ (Scanner.start source.toList).tokens source.toList.length = .error (fault, span) := by
  unfold tokenize at h
  simp only at h
  split at h
  next => cases h
  next fault span hfault =>
    cases h
    exact ⟨fault, span, rfl, hfault⟩

/-- It is refused for that, and nothing is reported. -/
theorem parseReporting_of_fault {source : String} {e : Error} (h : tokenize source = .error e) :
    parseReporting source = ⟨.error e, []⟩ := by
  unfold parseReporting Session.start Session.parseSelect
  rw [h]

/-- A text that is accepted has tokens, and the grammar takes the statement
from them. -/
theorem parse_ok {source : String} {statement : Select} (h : parse source = .ok statement) :
    ∃ tokens s', tokenize source = .ok tokens
      ∧ Grammar.input (.ofKinds (tokens.map Token.kind)) = .ok statement s' := by
  cases htokens : tokenize source with
  | error error =>
      rw [parse, parseReporting_of_fault htokens] at h
      cases h
  | ok tokens =>
      refine ⟨tokens, ?_⟩
      cases hinput : Grammar.input (.ofKinds (tokens.map Token.kind)) with
      | error fault after =>
          rw [parse_of_located htokens hinput] at h
          cases h
      | ok found after =>
          rw [parse_of_input htokens hinput] at h
          cases h
          exact ⟨after, rfl, rfl⟩

end SqlSelect
