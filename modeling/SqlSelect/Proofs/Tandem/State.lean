/-
The cursor of bare kinds as a side of a tandem, and beside itself.

`State.track` says that the bare cursor is a side: it stands at a token of a
list, marks a token by its index, and names a fault by its cause and the two
indices. Whatever else a list of tokens is compared with, this is how its bare
kinds enter.

# One cursor twice

`solo` is the simplest tandem of all, one cursor beside itself in one list of
tokens. What is compared there is not the input but the parsers: one
production with two parsers of what is nested in it, or a loop with two
bounds. A parser that is comparable with another from a cursor on comes to the
very same outcome (`Tandem.At.same`), since nothing is hidden from a view that
keeps the whole name and since the tokens at fault tell a cause from those that
only look like it. And what it takes at least shows in the position where it
stops (`Tandem.At.gains`).
-/
import SqlSelect.Proofs.Course.Basic
import SqlSelect.Proofs.Tandem.Select

namespace SqlSelect.Grammar

-- ========================================================= the bare side

/-- A cursor of bare kinds in the given ones. -/
def State.track (kinds : List Kind) : Track State where
  kinds
  mark := id
  fault cause i j := ⟨cause, ⟨i, j⟩⟩
  stands s := s.StandsIn kinds
  index_lt hs := hs.position_lt
  kindAt hs ahead := hs.kindAt ahead
  upcoming hs := hs.rest
  left hs := hs.length_rest
  markAt _ _ := rfl
  previous _ _ := rfl
  faulted _ _ _ _ := rfl
  step hs inner := ⟨hs.advance inner, (Grammar.moves_advance rfl inner).position⟩
  report hs _ := ⟨⟨hs.rest, hs.ends⟩, rfl⟩
  setTrial hs _ := ⟨⟨hs.rest, hs.ends⟩, rfl⟩
  back hs _ := ⟨⟨hs.rest, hs.ends⟩, rfl⟩

-- ========================================================= beside itself

/-- One cursor of bare kinds, twice. -/
def solo (kinds : List Kind) : Tandem State State where
  left := State.track kinds
  right := State.track kinds
  view := .whole
  near _ := True
  within _ := True
  exempt _ := False
  abreast s t := s = t ∧ s.StandsIn kinds
  near_mono _ _ := trivial
  near_of_within _ := trivial
  alike _ _ _ := .same _
  right_stands := fun ⟨same, hs⟩ => same ▸ hs
  index_eq := fun ⟨same, _⟩ => same ▸ rfl
  step hs := fun ⟨same, _⟩ _ inner => ⟨congrArg _ same, hs.advance inner⟩
  refused hs := fun ⟨same, _⟩ rule i j =>
    ⟨congrArg _ same, ((State.track kinds).refused hs rule i j).1⟩

/-- What goes back on one side goes back on the other, which is the same. -/
theorem solo_rewinds (kinds : List Kind) : (solo kinds).Rewinds where
  near _ := trivial
  within _ := trivial
  exempt _ := id
  trial := fun ⟨same, _⟩ => same ▸ rfl
  setTrial hs := fun ⟨same, _⟩ trial => ⟨congrArg _ same, ((State.track kinds).setTrial hs trial).1⟩
  back hs hu := fun ⟨same, _⟩ ⟨same', _⟩ =>
    ⟨by rw [same, same'], ((State.track kinds).back hs hu).1⟩
  reparsed hs := fun ⟨same, _⟩ i =>
    ⟨congrArg _ same, ((State.track kinds).report hs (.reparsed i)).1⟩

/-- A token is the same as itself. -/
theorem solo_exact (kinds : List Kind) : (solo kinds).Exact := fun _ _ => rfl

/-- So types are comparable. -/
theorem solo_types (kinds : List Kind) : (solo kinds).Types :=
  Tandem.types_of_exact (solo_exact kinds)

/-- And so are `GROUP BY` clauses. -/
theorem solo_groups (kinds : List Kind) : (solo kinds).Groups :=
  (solo_rewinds kinds).groups (solo_types kinds)

namespace Tandem.At

variable {α γ : Type} {kinds : List Kind} {s : State} {least : α → Nat} {see : α → γ}
  {p q : Parser α}

/-- Parsers that are comparable beside themselves do the same. -/
theorem same (h : (solo kinds).At s least see p q) (hs : s.StandsIn kinds)
    (whole : Function.Injective see) : p s = q s := by
  cases hp : p s with
  | ok a s' =>
      obtain ⟨-, -, follows⟩ := h.ok hp
      obtain ⟨b, t', hq, seen, rfl, -⟩ := follows trivial s ⟨rfl, hs⟩
      rw [hq, whole seen]
  | error e s' =>
      obtain ⟨-, -, -, follows⟩ := h.error hp
      obtain ⟨f, t', hq, faults, rfl, -⟩ := (follows trivial s ⟨rfl, hs⟩).resolve_right id
      obtain ⟨seen, left, right, -⟩ := faults
      -- both causes come from the same token, and no more of it is hidden than
      -- its quotes
      rw [hq, left.cause_eq right rfl seen]
      rfl

/-- What is taken at least shows in the position. -/
theorem gains (h : (solo kinds).At s least see p q) {a : α} {s' : State} (hp : p s = .ok a s') :
    s'.StandsIn kinds ∧ s.position + least a ≤ s'.position :=
  ⟨(h.ok hp).1, (h.ok hp).2.1⟩

end Tandem.At

end SqlSelect.Grammar
