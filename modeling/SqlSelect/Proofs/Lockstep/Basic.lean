/-
Two inputs that differ in names only.

`Reworded` relates two lists of tokens that are alike one by one, so that each
is the other with some names put in quotes, or bare, or replaced. A cursor in
the one is compared with a cursor in the other by `Reworded.tandem`, in which
nothing is out of sight: all tokens are known to be alike, and no fault is left
out. Two cursors are abreast if they stand at the same index and have reported
the same.

# Types of several words

There is one place where the grammar looks into a name in double quotes: at the
first word of a type of several words. Where such a type starts (`SpansWords`)
is therefore part of what two inputs must share, and that types are comparable
is a matter of its own (`Proofs/Lockstep/DataType.lean`).
-/
import Mathlib.Data.List.Forall2
import SqlSelect.Proofs.Sound.Expr
import SqlSelect.Proofs.Tandem.State

namespace SqlSelect

open Grammar (secondWord?)

-- ======================================================= fixed tokens

/-- Tokens that are no names are left as they are. -/
def Kind.Fixed (k : Kind) : Prop := ∀ x, ¬k.Plain x

theorem YieldsConfig.fixed {config : Option (List Int64)} {modifiers : List Kind}
    (h : YieldsConfig config modifiers) : ∀ k ∈ modifiers, k.Fixed := by
  have symbol (mark : Symbol) : (Kind.symbol mark).Fixed := fun _ => nofun
  cases h with
  | absent => exact nofun
  | @present values =>
      refine List.forall_mem_cons.2 ⟨symbol _, List.forall_mem_append.2 ⟨?_, ?_⟩⟩
      · refine forall_commas (symbol _) fun item hitem k hk => ?_
        obtain ⟨value, -, rfl⟩ := List.mem_map.1 hitem
        rw [List.mem_singleton.1 hk]
        exact fun _ => nofun
      · exact fun k hk => List.mem_singleton.1 hk ▸ symbol _

theorem Kind.fixed_word {w : String} (type : w ∈ typeWords) : (Kind.word w).Fixed :=
  fun _ plain => plain.ne_word type rfl

theorem Kind.MarksType.fixed {mark : Kind} (h : mark.MarksType) : mark.Fixed := by
  intro x plain
  rcases h with rfl | keyword
  · exact plain.ne_symbol _ rfl
  · rw [plain.keyword?] at keyword
    cases keyword

/-- Fixed tokens at the front are those of the other list. -/
theorem forall₂_fixed_append {R : Kind → Kind → Prop} (fixed : ∀ k l, R k l → k.Fixed → l = k)
    {front later ls : List Kind}
    (h : List.Forall₂ R (front ++ later) ls) (hfront : ∀ k ∈ front, k.Fixed) :
    ∃ later', ls = front ++ later' := by
  induction front generalizing ls with
  | nil => exact ⟨ls, rfl⟩
  | cons k front ih =>
      cases h with
      | cons first more =>
          obtain ⟨later', rfl⟩ := ih more fun k hk => hfront k (List.mem_cons_of_mem _ hk)
          exact ⟨later', by rw [fixed _ _ first (hfront k List.mem_cons_self), List.cons_append]⟩

-- ==================================================== alike token lists

/-- A type starts behind the first token, with a word in double quotes, and
goes on with bare words that belong to its name. -/
inductive SpansWords : List Kind → Prop
  | second {mark : Kind} {name second : String} {later : List Kind} (marks : mark.MarksType)
    (belongs : secondWord? name = some second) :
    SpansWords (mark :: .quoted name :: .word second :: later)
  | zone {mark : Kind} {name first : String} {config : Option (List Int64)}
    {modifiers later : List Kind} (marks : mark.MarksType)
    (timed : name = "time" ∨ name = "timestamp") (hmodifiers : YieldsConfig config modifiers)
    (hfirst : first = "with" ∨ first = "without") :
    SpansWords (mark :: .quoted name
      :: (modifiers ++ .word first :: .word "time" :: .word "zone" :: later))

/-- Two lists of tokens are alike, token by token, and types with a first word
in double quotes go on at the same places. The left ones a text can have. -/
structure Reworded (v : View) (ks ls : List Kind) : Prop where
  alike : List.Forall₂ (Kind.Alike v) ks ls
  lexed : ∀ k ∈ ks, k.Lexed
  spans : ∀ i, SpansWords (ks.drop i) ↔ SpansWords (ls.drop i)

/-- Tokens at the same index are alike, and past the last one there is the end
of the input in both lists. -/
theorem Reworded.getD {v : View} {ks ls : List Kind} (h : Reworded v ks ls) (i : Nat) :
    (ks.getD i .eof).Alike v (ls.getD i .eof) := by
  obtain ⟨alike, -, -⟩ := h
  induction alike generalizing i with
  | nil => exact .same _
  | cons first _ ih =>
      cases i with
      | zero => exact first
      | succ i => exact ih i

/-- The end of the input stands on both sides. -/
theorem Reworded.ends {v : View} {ks ls : List Kind} (h : Reworded v ks ls) (ends : .eof ∈ ks) :
    .eof ∈ ls := by
  obtain ⟨alike, -, -⟩ := h
  induction alike with
  | nil => exact ends
  | cons first _ ih =>
      rcases List.mem_cons.1 ends with here | later
      · exact List.mem_cons.2 (Or.inl (first.eof.1 here.symm).symm)
      · exact List.mem_cons_of_mem _ (ih later)

namespace Grammar

variable {ls : List Kind} {s t : State}

-- ======================================================== side by side

/-- Two cursors stand at the same index, the second in the tokens `ls`, and
have reported the same. -/
structure State.Abreast (ls : List Kind) (s t : State) : Prop where
  stands : t.StandsIn ls
  position : t.position = s.position
  trial : t.trial = s.trial
  events : t.events = s.events

theorem State.Abreast.advance (h : s.Abreast ls t) (inner : s.kindAt 0 ≠ .eof)
    (inner' : t.kindAt 0 ≠ .eof) : s.advance.Abreast ls t.advance := by
  refine ⟨h.stands.advance inner', ?_, ?_, ?_⟩
  · rw [(Grammar.moves_advance rfl inner).position, (Grammar.moves_advance rfl inner').position,
      h.position]
    rfl
  · rw [s.advance_reports.1, t.advance_reports.1, h.trial]
  · rw [s.advance_reports.2, t.advance_reports.2, h.events]

/-- What is reported is the same on both sides. -/
theorem State.Abreast.refused (h : s.Abreast ls t) (rule : Rule) (i j : Nat) :
    (refused rule i j s).Abreast ls (refused rule i j t) := by
  have trial : Cursor.trial t = Cursor.trial s := h.trial
  unfold Grammar.refused
  rw [trial]
  split
  next => exact h
  next =>
    exact ⟨⟨h.stands.rest, h.stands.ends⟩, h.position, h.trial, congrArg (· ++ [_]) h.events⟩

end Grammar

open Grammar (State Tandem)

variable {v : View} {ks ls : List Kind}

/-- The lists side by side, with nothing out of sight. -/
def Reworded.tandem (h : Reworded v ks ls) : Tandem State State where
  left := State.track ks
  right := State.track ls
  view := v
  near _ := True
  within _ := True
  exempt _ := False
  abreast := State.Abreast ls
  near_mono _ _ := trivial
  near_of_within _ := trivial
  alike _ _ _ := h.getD _
  right_stands := State.Abreast.stands
  index_eq := State.Abreast.position
  step := fun {s t} hs abreast _ inner => by
    refine abreast.advance inner fun eof => inner ?_
    rw [abreast.stands.kindAt, abreast.position] at eof
    exact (hs.kindAt 0).trans ((h.getD _).eof.2 eof)
  refused _ abreast rule i j := abreast.refused rule i j

theorem Reworded.rewinds (h : Reworded v ks ls) : h.tandem.Rewinds where
  near _ := trivial
  within _ := trivial
  exempt _ := id
  trial := State.Abreast.trial
  setTrial _ := fun ⟨stands, position, _, events⟩ _ =>
    ⟨⟨stands.rest, stands.ends⟩, position, rfl, events⟩
  back _ _ := fun ⟨stands, position, _, _⟩ ⟨_, _, trial, events⟩ =>
    ⟨⟨stands.rest, stands.ends⟩, position, trial, events⟩
  reparsed _ := fun ⟨stands, position, trial, events⟩ _ =>
    ⟨⟨stands.rest, stands.ends⟩, position, trial, congrArg (· ++ [_]) events⟩

end SqlSelect
