/-
What a parse reports.

Two things are reported inside the grammar: that an attempt to read a
`GROUP BY` list in parentheses was taken back, and that a rule is broken.
`LogsFrom` says of a parser that is no attempt itself what it leaves behind.
On success those are only reports of the first sort, on failure there also
is one of the second where the fault is a broken rule, the very one that it
fails with. Since faults are only ever dropped by an attempt, and an attempt
reports no broken rule, no parser says anything about a rule and then goes
on.

A report of an attempt names the opening parenthesis. The cursor passes
`GROUP` and `BY` before it comes there and never moves back behind them, so
these places follow one another through the input.
-/
import SqlSelect.Proofs.Kinds
import SqlSelect.Proofs.Twin.Basic

namespace SqlSelect

namespace Grammar

variable {α β : Type}

-- ========================================================== places

/-- Opening parentheses behind `GROUP BY`, in the order of the input, from
behind `start` up to `stop`. -/
structure Noted (kinds : List Kind) (start stop : Nat) (noted : List Nat) : Prop where
  ordered : noted.Pairwise (· < ·)
  between : ∀ i ∈ noted, start < i ∧ i ≤ stop
  opens : ∀ i ∈ noted, kinds.getD i .eof = .symbol .leftParen ∧ FollowsGroupBy kinds i

namespace Noted

variable {kinds : List Kind} {a b c : Nat} {front back : List Nat}

/-- Nothing is noted where nothing is passed. -/
theorem nil (kinds : List Kind) (start stop : Nat) : Noted kinds start stop [] :=
  ⟨.nil, nofun, nofun⟩

/-- What is noted in a stretch is noted in a longer one. -/
theorem widen {d : Nat} (h : Noted kinds b c front) (before : a ≤ b) (behind : c ≤ d) :
    Noted kinds a d front := by
  refine ⟨h.ordered, fun i hi => ?_, h.opens⟩
  obtain ⟨above, below⟩ := h.between i hi
  exact ⟨Nat.lt_of_le_of_lt before above, Nat.le_trans below behind⟩

/-- What is noted in two stretches one behind the other is in order. -/
theorem append (first : Noted kinds a b front) (second : Noted kinds b c back)
    (before : a ≤ b) (behind : b ≤ c) : Noted kinds a c (front ++ back) := by
  refine ⟨List.pairwise_append.2 ⟨first.ordered, second.ordered, fun i hi j hj => ?_⟩, ?_, ?_⟩
  · exact Nat.lt_of_le_of_lt (first.between i hi).2 (second.between j hj).1
  · intro i hi
    rcases List.mem_append.1 hi with hi | hi
    · exact (first.widen (Nat.le_refl _) behind).between i hi
    · exact (second.widen before (Nat.le_refl _)).between i hi
  · intro i hi
    exact (List.mem_append.1 hi).elim (first.opens i) (second.opens i)

end Noted

-- ========================================================= reports

/-- What a parser reports from `s` on: attempts that it took back, behind
`start`, and if it fails the rule that it fails with. -/
structure LogsFrom (kinds : List Kind) (start : Nat) (s : State) (p : Parser α) : Prop where
  ok : ∀ ⦃a s'⦄, p s = .ok a s' → s'.StandsIn kinds ∧ s'.trial = false ∧ start ≤ s'.position
    ∧ ∃ noted, Noted kinds start s'.position noted
      ∧ s'.events = s.events ++ noted.map .reparsed
  error : ∀ ⦃fault s'⦄, p s = .error fault s' → ∃ noted, Noted kinds start kinds.length noted
    ∧ s'.events = s.events ++ noted.map .reparsed ++ fault.reports

/-- What a parser reports wherever it starts, if it is no attempt. -/
def Logs (kinds : List Kind) (p : Parser α) : Prop :=
  ∀ s : State, s.StandsIn kinds → s.trial = false → LogsFrom kinds s.position s p

/-- A failure that is no attempt's reports its fault. -/
theorem Quiet.error_reports {p : Parser α} (quiet : Quiet 0 p) {s s' : State} {fault : Fault}
    (loud : s.trial = false) (h : p s = .error fault s') :
    s'.events = s.events ++ fault.reports := by
  rw [quiet s (Nat.zero_le _)] at h
  cases hp : p s.hushed with
  | ok a t =>
      rw [hp] at h
      cases h
  | error e t =>
      rw [hp] at h
      cases h
      simp [loud]

namespace LogsFrom

variable {kinds : List Kind} {start : Nat} {s : State} {p : Parser α}

/-- A parser that is quiet notes nothing. -/
theorem of_quiet (quiet : Quiet 0 p) (forward : ∀ ⦃a s'⦄, p s = .ok a s' → ∃ ks, Moves s ks s')
    (hs : s.StandsIn kinds) (loud : s.trial = false) (reached : start ≤ s.position) :
    LogsFrom kinds start s p := by
  refine ⟨fun a s' h => ?_, fun fault s' h => ⟨[], .nil .., ?_⟩⟩
  · obtain ⟨ks, m⟩ := forward h
    obtain ⟨trial, events⟩ := quiet.ok_reports h
    refine ⟨hs.moves m, trial.trans loud, Nat.le_trans reached m.le_position, [], .nil .., ?_⟩
    rw [events, List.map_nil, List.append_nil]
  · rw [quiet.error_reports loud h, List.map_nil, List.append_nil]

/-- What is said behind a part is said behind what the part said. -/
theorem bind {f : α → Parser β} (first : LogsFrom kinds start s p)
    (later : ∀ a, Logs kinds (f a)) : LogsFrom kinds start s (p >>= f) := by
  refine ⟨fun b s' h => ?_, fun fault s' h => ?_⟩
  · obtain ⟨a, t, hp, hf⟩ := bind_ok.1 h
    obtain ⟨stands, loud, reached, front, hfront, events⟩ := first.ok hp
    obtain ⟨stands', loud', reached', back, hback, events'⟩ := (later a t stands loud).ok hf
    refine ⟨stands', loud', Nat.le_trans reached reached', front ++ back,
      hfront.append hback reached reached', ?_⟩
    rw [events', events, List.map_append, List.append_assoc]
  · rw [bind_apply] at h
    cases hp : p s with
    | error e t =>
        rw [hp] at h
        cases h
        exact first.error hp
    | ok a t =>
        rw [hp] at h
        obtain ⟨stands, loud, reached, front, hfront, events⟩ := first.ok hp
        obtain ⟨back, hback, events'⟩ := (later a t stands loud).error h
        refine ⟨front ++ back, hfront.append hback reached (Nat.le_of_lt stands.position_lt), ?_⟩
        rw [events', events, List.map_append, List.append_assoc s.events]

/-- A state with the same reports starts over. -/
theorem of_eq {t : State} {q : Parser α} (h : LogsFrom kinds start t q) (same : p s = q t)
    (events : t.events = s.events) : LogsFrom kinds start s p := by
  refine ⟨fun a s' hp => ?_, fun fault s' hp => ?_⟩
  · rw [← events]
    exact h.ok (same ▸ hp)
  · rw [← events]
    exact h.error (same ▸ hp)

end LogsFrom

namespace Logs

variable {kinds : List Kind} {p : Parser α}

/-- The same from every state. -/
theorem bind {f : α → Parser β} (first : Logs kinds p) (later : ∀ a, Logs kinds (f a)) :
    Logs kinds (p >>= f) :=
  fun s hs loud => (first s hs loud).bind later

/-- A parser that is quiet notes nothing wherever it starts. -/
theorem of_quiet (quiet : Quiet 0 p) (forward : Forward p) : Logs kinds p :=
  fun _ hs loud => .of_quiet quiet (fun _ _ => @forward _ _ _) hs loud (Nat.le_refl _)

/-- A value says nothing. -/
protected theorem pure (a : α) : Logs kinds (pure a) :=
  of_quiet (fun _ _ => rfl) (forward_pure a)

end Logs

-- ================================================== `GROUP BY` lists

section GroupBy

variable {kinds : List Kind} {start : Nat} {s : State}

/-- A list that is read passes tokens. -/
theorem forward_expressionList {es : List Expr} {s' : State}
    (h : expressionList expression s = .ok es s') : ∃ ks, Moves s ks s' :=
  (steps_expressionList 0).moves (Nat.zero_le _) h

/-- The list reports at most that its own parenthesis was tried. -/
theorem logs_groups (hs : s.StandsIn kinds) (loud : s.trial = false)
    (behind : FollowsGroupBy kinds s.position) (passed : start < s.position) :
    LogsFrom kinds start s groups := by
  have reached := Nat.le_of_lt passed
  rcases groups_cases s with
    ⟨es, t, opened, hlist, -, hs'⟩ | ⟨opened, -, hs'⟩ | ⟨-, hs'⟩
  · refine ⟨fun es' s' h => ?_, fun fault s' h => ?_⟩
    · rw [hs'] at h
      cases h
      have opening := moves_advance opened nofun
      obtain ⟨ks, inside⟩ := forward_expressionList hlist
      obtain ⟨ls, closing⟩ := t.moves_advance
      have whole := opening.trans (inside.trans closing)
      obtain ⟨trial, events⟩ := quiet_expressionList.ok_reports hlist
      refine ⟨hs.moves whole, ?_, Nat.le_trans reached whole.le_position, [], .nil .., ?_⟩
      · rw [t.advance_reports.1, trial, s.advance_reports.1, loud]
      · rw [t.advance_reports.2, events, s.advance_reports.2, List.map_nil, List.append_nil]
    · rw [hs'] at h
      cases h
  · -- the plain list is quiet and starts behind the one report
    have noted {stop : Nat} (within : s.position ≤ stop) :
        Noted kinds start stop [s.position] := by
      have kind : kinds.getD s.position .eof = .symbol .leftParen := by
        rw [← opened, hs.kindAt, Nat.add_zero]
      refine ⟨List.pairwise_singleton .., fun i hi => ?_, fun i hi => ?_⟩
      · rw [List.mem_singleton.1 hi]
        exact ⟨passed, within⟩
      · rw [List.mem_singleton.1 hi]
        exact ⟨kind, behind⟩
    refine ⟨fun es s' h => ?_, fun fault s' h => ?_⟩
    · rw [hs'] at h
      obtain ⟨ks, m⟩ := forward_expressionList h
      obtain ⟨trial, events⟩ := quiet_expressionList.ok_reports h
      have moved : Moves s ks s' := ⟨m.rest, m.position, m.inner⟩
      exact ⟨hs.moves moved, trial.trans loud, Nat.le_trans reached moved.le_position,
        [s.position], noted moved.le_position, events⟩
    · rw [hs'] at h
      exact ⟨[s.position], noted (Nat.le_of_lt hs.position_lt),
        quiet_expressionList.error_reports (s := s.report _) loud h⟩
  · exact .of_eq (.of_quiet quiet_expressionList (fun _ _ => forward_expressionList) hs loud
      reached) hs' rfl

/-- The list behind `BY`, with `GROUP` before it. -/
theorem logs_afterBy_groups {j : Nat} (hs : s.StandsIn kinds) (loud : s.trial = false)
    (here : s.position = j + 1) (group : (kinds.getD j .eof).keyword? = some .GROUP) :
    LogsFrom kinds j s (afterBy groups) := by
  by_cases found : (s.kindAt 0).keyword? = some .BY
  · have inner := ne_eof_of_keyword? found
    have next : s.advance.position = j + 2 := by
      rw [(moves_advance rfl inner).position, here]
      rfl
    have behind : FollowsGroupBy kinds s.advance.position := by
      refine ⟨j, next, group, ?_⟩
      rw [← here, ← Nat.add_zero s.position, ← hs.kindAt 0]
      exact found
    have list : LogsFrom kinds j s.advance groups :=
      logs_groups (hs.advance inner) (s.advance_reports.1.trans loud) behind (by omega)
    refine .of_eq list ?_ s.advance_reports.2
    rw [afterBy, expectKeyword_eq, bind_assoc, current_bind, if_pos found]
    rfl
  · refine .of_eq (.of_quiet (Quiet.unexpected 0 Keyword.BY.spelling)
      (fun _ _ h => (unexpected_ok.1 h).elim) hs loud (by omega)) ?_ rfl
    rw [afterBy, expectKeyword_eq, bind_assoc, current_bind, if_neg found]
    rfl

/-- `GROUP BY` notes its attempt at the parenthesis behind `BY`. -/
theorem logs_groupClause : Logs kinds (clause .GROUP (afterBy groups)) := by
  intro s hs loud
  by_cases group : (s.kindAt 0).keyword? = some .GROUP
  · have inner := ne_eof_of_keyword? group
    have list := logs_afterBy_groups (hs.advance inner) (s.advance_reports.1.trans loud)
      (moves_advance rfl inner).position (by rw [← group, hs.kindAt, Nat.add_zero])
    refine .of_eq (list.bind fun es => .pure (some es)) ?_ s.advance_reports.2
    rw [clause_eq, current_bind, if_pos group]
    rfl
  · refine .of_eq (Logs.pure none s hs loud) ?_ rfl
    rw [clause_eq, current_bind, if_neg group]

end GroupBy

-- ======================================================= statements

/-- So does every parser that is made of parsers which do. -/
theorem Composed.logs {kinds : List Kind} {p : Parser α} (h : Composed p) : Logs kinds p := by
  induction h with
  | plain quiet forward => exact .of_quiet quiet forward
  | groupClause => exact logs_groupClause
  | bind _ _ first later => exact first.bind later

end Grammar

-- ========================================================= outcomes

/-- The kinds of the tokens of a text. A text that does not divide into
tokens has none. -/
def kindsOf (source : String) : List Kind :=
  ((tokenize source).toOption.getD []).map Token.kind

/-- The report that a parse of so many tokens ends with: of the statement, or
of the rule that is broken. Other errors are not reported. -/
def closing? (count : Nat) : Except Error Select → Option (Event Span)
  | .ok statement => some (.parsed (.of count statement))
  | .error e =>
    match e.cause with
    | .invalid rule => some (.rejected rule e.span)
    | _ => none

/-- What is said at the end is said for debugging. -/
theorem level_of_closing? {count : Nat} {result : Except Error Select} {event : Event Span}
    (h : event ∈ closing? count result) : event.level = .debug := by
  unfold closing? at h
  split at h
  next =>
    obtain rfl := Option.some.inj h
    rfl
  next =>
    split at h
    next =>
      obtain rfl := Option.some.inj h
      rfl
    next => cases h

/-- Seen as a span, the report of a fault is the one that its error ends
with. -/
theorem Grammar.Fault.reports_map (fault : Grammar.Fault) (count : Nat) (source : List Char)
    (f : Stretch → Span) :
    fault.reports.map (Event.mapPlace f)
      = (closing? count (.error (Error.locate source fault.cause (f fault.place)))).toList := by
  obtain ⟨cause, place⟩ := fault
  cases cause <;> rfl

/-- What is noted has no span of its own. -/
theorem map_reparsed (f : Stretch → Span) (noted : List Nat) :
    (noted.map Event.reparsed).map (Event.mapPlace f) = noted.map Event.reparsed := by
  rw [List.map_map]
  rfl

/-- What a text that divides into tokens is reported as. -/
theorem events_of_tokenize {source : String} {tokens : List Token}
    (h : tokenize source = .ok tokens) :
    ∃ noted, Grammar.Noted (tokens.map Token.kind) 0 tokens.length noted
      ∧ (parseReporting source).events
        = noted.map .reparsed ++ (closing? tokens.length (parse source)).toList := by
  have logs := Grammar.composed_input.logs _ (standsIn_of_tokenize h) rfl
  rw [parse, parseReporting_eq h]
  cases hinput : Grammar.input (.ofKinds (tokens.map Token.kind)) with
  | ok statement after =>
      obtain ⟨within, -, -, noted, hnoted, events⟩ := logs.ok hinput
      refine ⟨noted, hnoted.widen (Nat.le_refl _) ?_, ?_⟩
      · rw [← List.length_map (f := Token.kind)]
        exact Nat.le_of_lt within.position_lt
      · simp only [Outcome.placed, events, List.nil_append, map_reparsed]
        rfl
  | error fault after =>
      obtain ⟨noted, hnoted, events⟩ := logs.error hinput
      rw [List.length_map] at hnoted
      refine ⟨noted, hnoted, ?_⟩
      simp only [Outcome.placed, events, List.nil_append, List.map_append, map_reparsed]
      rw [fault.reports_map tokens.length source.toList]
      rfl

/-- What a parse reports agrees with its outcome, for every text. First come
the attempts that were taken back, each with the index of the opening
parenthesis behind its `GROUP BY` and no two with the same; then comes at
most one other report, of the statement if there is one, of the rule if that
is what the error says, and none if the error is of another sort. Nothing is
said about a rule that only an attempt breaks. -/
theorem events_parseReporting (source : String) :
    ∃ noted : List Nat,
      (parseReporting source).events
          = noted.map .reparsed ++ (closing? (kindsOf source).length (parse source)).toList
        ∧ (parseReporting source).events.map Event.level
          = noted.map (fun _ => .trace)
            ++ (closing? (kindsOf source).length (parse source)).toList.map (fun _ => .debug)
        ∧ noted.Pairwise (· < ·)
        ∧ ∀ i ∈ noted, (kindsOf source).getD i .eof = .symbol .leftParen
          ∧ Grammar.FollowsGroupBy (kindsOf source) i := by
  have main : ∃ noted, Grammar.Noted (kindsOf source) 0 (kindsOf source).length noted
      ∧ (parseReporting source).events
        = noted.map .reparsed ++ (closing? (kindsOf source).length (parse source)).toList := by
    cases htokens : tokenize source with
    | ok tokens =>
        have kinds : kindsOf source = tokens.map Token.kind := by
          rw [kindsOf, htokens]
          rfl
        rw [kinds, List.length_map]
        exact events_of_tokenize htokens
    | error e =>
        obtain ⟨fault, span, rfl, -⟩ := fault_of_tokenize htokens
        refine ⟨[], .nil .., ?_⟩
        rw [parse, parseReporting_of_fault htokens]
        rfl
  obtain ⟨noted, hnoted, events⟩ := main
  refine ⟨noted, events, ?_, hnoted.ordered, hnoted.opens⟩
  have levels : (closing? (kindsOf source).length (parse source)).toList.map Event.level
      = (closing? (kindsOf source).length (parse source)).toList.map fun _ => .debug :=
    List.map_congr_left fun event h => level_of_closing? (Option.mem_toList.1 h)
  rw [events, List.map_append, levels, List.map_map]
  rfl

/-- A statement in the other, both with a list that only starts with a
parenthesis, and a broken rule behind them. -/
theorem events_parseReporting_nested :
    (parseReporting "select a from (select b from u group by (b), 1) t group by (a) + 1 limit -1"
        ).events = [.reparsed 10, .reparsed 19, .rejected (.invalidRowCount "-1") ⟨73, 75⟩]
      ∧ ∀ i ∈ [10, 19], Grammar.FollowsGroupBy (kindsOf
        "select a from (select b from u group by (b), 1) t group by (a) + 1 limit -1") i := by
  generalize htext :
    "select a from (select b from u group by (b), 1) t group by (a) + 1 limit -1" = source
  have events : (parseReporting source).events
      = [10, 19].map .reparsed ++ [.rejected (.invalidRowCount "-1") ⟨73, 75⟩] := by
    rw [← htext]
    decide +kernel
  have closing : closing? (kindsOf source).length (parse source)
      = some (.rejected (.invalidRowCount "-1") ⟨73, 75⟩) := by
    rw [← htext]
    decide +kernel
  obtain ⟨noted, all, -, -, behind⟩ := events_parseReporting source
  rw [closing, events] at all
  have same : [10, 19] = noted :=
    (List.map_inj_right fun _ _ => Event.reparsed.inj).1 (List.append_cancel_right all)
  exact ⟨events, fun i hi => (behind i (same ▸ hi)).2⟩

end SqlSelect
