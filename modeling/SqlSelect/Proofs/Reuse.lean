/-
One session for many parses.

A parse reads the tokens anew and starts at the first of them with no
reports, so all that it can take over from an earlier one is whether that
ended in the middle of an attempt.

# The flag of attempts

It cannot: whatever a parser comes to, it leaves the flag as it found it
(`Restores`). Only `attempt` sets the flag, and the `GROUP BY` list is the one
production that attempts anything; whichever way that list is read, it puts
the flag back. So a session is `Ready` after any call, as it is at the start,
and a ready session answers as a new one.
-/
import SqlSelect.Proofs.Course.Select
import SqlSelect.Proofs.Groups
import SqlSelect.Proofs.Tandem.Reader

namespace SqlSelect

-- ============================================================= calls

/-- What a session can be asked for. -/
inductive Session.Call where
  | select
  | statement
  deriving DecidableEq

/-- What a call gives, with its reports. -/
inductive Session.Answer where
  | select (outcome : Except Error Select) (events : List (Event Span))
  | statement (outcome : Except Error Statement) (events : List (Event Span))

/-- The answer to a call, and the session after it. -/
def Session.call (s : Session) : Call → Answer × Session
  | .select =>
    let (outcome, next) := s.parseSelect
    (.select outcome.result outcome.events, next)
  | .statement =>
    let (result, next) := s.parseStatement
    (.statement result s.parseSelect.1.events, next)

/-- The answers to calls one after the other. -/
def Session.answers : Session → List Call → List Answer
  | _, [] => []
  | s, call :: later =>
    let (answer, next) := s.call call
    answer :: next.answers later

namespace Grammar

variable {α β : Type}

-- ======================================================= restoration

/-- Whether it succeeds or fails, the parser leaves the flag of attempts as
it was. -/
def Restores (p : Parser α) : Prop := ∀ s, (final (p s)).trial = s.trial

theorem Restores.bind {p : Parser α} {f : α → Parser β} (first : Restores p)
    (later : ∀ a, Restores (f a)) : Restores (p >>= f) := by
  intro s
  have before := first s
  rw [bind_apply]
  cases hp : p s with
  | ok a t =>
      rw [hp] at before
      exact (later a t).trans before
  | error fault t =>
      rw [hp] at before
      exact before

theorem restores_groupClause : Restores (clause .GROUP (afterBy groups)) := by
  have keyword (word : Keyword) : Restores (consumeKeyword word) :=
    (course_consumeKeyword word : Course false 0 _).quiet.trial_final
  have by_ : Restores (expectKeyword .BY) :=
    (course_expectKeyword .BY : Course false 0 _).quiet.trial_final
  refine .bind (keyword .GROUP) fun found => ?_
  cases found with
  | true => exact .bind (by_.bind fun _ => trial_groups) fun _ _ => rfl
  | false => exact fun _ => rfl

theorem Composed.restores {p : Parser α} (h : Composed p) : Restores p := by
  induction h with
  | plain quiet _ => exact quiet.trial_final
  | groupClause => exact restores_groupClause
  | bind _ _ first later => exact first.bind later

end Grammar

-- ======================================================= one session

namespace Session

variable {s : Session} {source : String}

/-- A session that is ready parses as a new one does, and stays ready. -/
theorem Ready.parseSelect (h : s.Ready source) :
    s.parseSelect.1 = (start source).parseSelect.1 ∧ s.parseSelect.2.Ready source := by
  cases htokens : tokenize source with
  | error e =>
      obtain ⟨rfl, eof_eq, calm⟩ := h
      unfold Session.parseSelect start
      rw [htokens]
      exact ⟨rfl, rfl, eof_eq, calm⟩
  | ok tokens =>
      obtain ⟨outcome, last⟩ := h.parseSelect_eq htokens
      obtain ⟨fresh, -⟩ := (ready_start source).parseSelect_eq htokens
      refine ⟨outcome.trans fresh.symm, last.stands.source_eq, last.stands.eof_eq, ?_⟩
      rw [last.speculating]
      exact Grammar.composed_input.restores _

/-- The same holds of a call of either sort. -/
theorem Ready.call (h : s.Ready source) (call : Call) :
    (s.call call).1 = ((start source).call call).1 ∧ (s.call call).2.Ready source := by
  obtain ⟨same, ready⟩ := h.parseSelect
  cases call with
  | select =>
      refine ⟨?_, ready⟩
      show Answer.select s.parseSelect.1.result s.parseSelect.1.events = _
      rw [same]
      rfl
  | statement =>
      refine ⟨?_, ready⟩
      show Answer.statement (s.parseSelect.1.result.map .select) s.parseSelect.1.events = _
      rw [same]
      rfl

theorem Ready.answers (h : s.Ready source) (calls : List Call) :
    s.answers calls = calls.map fun call => ((start source).call call).1 := by
  induction calls generalizing s with
  | nil => rfl
  | cons call later ih =>
      obtain ⟨same, ready⟩ := h.call call
      show (s.call call).1 :: (s.call call).2.answers later = _
      rw [same, ih ready]
      rfl

/-- Whatever a session has been asked before, and however that ended, it
answers each call, reports included, as a new one on the same text does. -/
theorem answers_start (source : String) (calls : List Call) :
    (start source).answers calls = calls.map fun call => ((start source).call call).1 :=
  (ready_start source).answers calls

-- The first of two calls fails inside an attempt, reads the operands again
-- without it and stops at their comma. It leaves the reader there, with its
-- report and no attempt; the second call ends as the first did.
example :
    let left := (start "select a from t group by (a, b +)").parseSelect.2
    left.position = 8 ∧ left.events = [.reparsed 6] ∧ left.speculating = false
      ∧ left.parseSelect.1.events = [.reparsed 6]
      ∧ left.parseSelect.1.result.toOption.isNone = true := by
  decide +kernel

end Session

end SqlSelect
