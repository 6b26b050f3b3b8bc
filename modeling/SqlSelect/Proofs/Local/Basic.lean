/-
Two inputs that start alike.

How far a parser sees is bounded: what it makes of the tokens depends on those
up to where it stops and on two tokens more. An `Overlap` is two inputs that
have the same tokens at first, and `Overlap.tandem` compares a cursor in the
one with a cursor in the other. Tokens are near as long as two more behind them
are shared, and a fault is within what is known if its last token is near.

What the comparison says then is locality. Where the left run succeeds at a
token, or fails with a fault that ends at one, and the inputs agree as far as
two tokens behind it, the right run does the same. Alike tokens are the same
tokens here, so that the faults are not only alike but equal
(`Overlap.fault_eq`).

Which faults are left out is a parameter: none in an expression, and in a
statement those of `Proofs/Local/Groups.lean`.
-/
import SqlSelect.Proofs.Tandem.State

namespace SqlSelect.Grammar

/-- Two inputs that agree on their first tokens. -/
structure Overlap where
  left : List Kind
  right : List Kind
  shared : Nat
  same : ∀ i < shared, left.getD i .eof = right.getD i .eof

/-- The second cursor stands at the same token of the right input. -/
structure Overlap.Abreast (k : Overlap) (s t : State) : Prop where
  stands : t.StandsIn k.right
  position : t.position = s.position

namespace Overlap.Abreast

variable {k : Overlap} {s t : State}

theorem kindAt (h : k.Abreast s t) (hs : s.StandsIn k.left) {ahead : Nat}
    (within : s.position + ahead < k.shared) : t.kindAt ahead = s.kindAt ahead := by
  rw [h.stands.kindAt, hs.kindAt, h.position]
  exact (k.same _ within).symm

theorem advance (h : k.Abreast s t) (hs : s.StandsIn k.left) (inner : s.kindAt 0 ≠ .eof)
    (within : s.position < k.shared) : k.Abreast s.advance t.advance := by
  have inner' : t.kindAt 0 ≠ .eof := by
    rwa [h.kindAt hs within]
  refine ⟨h.stands.advance inner', ?_⟩
  rw [(moves_advance rfl inner).position, (moves_advance rfl inner').position, h.position]
  rfl

/-- What is reported does not move the cursors. -/
theorem refused (h : k.Abreast s t) (hs : s.StandsIn k.left) (rule : Rule) (i j : Nat) :
    k.Abreast (refused rule i j s) (refused rule i j t) := by
  obtain ⟨-, here⟩ := (State.track k.left).refused hs rule i j
  obtain ⟨stands, there⟩ := (State.track k.right).refused h.stands rule i j
  exact ⟨stands, there.trans (h.position.trans here.symm)⟩

end Overlap.Abreast

/-- A cursor in the left input and one in the right one, save for the faults
in `exempt`. -/
def Overlap.tandem (k : Overlap) (exempt : Fault → Prop) : Tandem State State where
  left := State.track k.left
  right := State.track k.right
  view := .whole
  near i := i + 3 ≤ k.shared
  within fault := fault.place.last + 3 ≤ k.shared
  exempt
  abreast := k.Abreast
  near_mono le near := Nat.le_trans (Nat.add_le_add_right le 3) near
  near_of_within := id
  alike := fun {i} near {j} le => by
    have shared : j < k.shared := by omega
    show (k.left.getD j .eof).Alike _ (k.right.getD j .eof)
    rw [k.same j shared]
    exact .same _
  right_stands := Abreast.stands
  index_eq := Abreast.position
  step hs abreast near inner :=
    abreast.advance hs inner (Nat.lt_of_lt_of_le (Nat.lt_add_of_pos_right (by decide)) near)
  refused hs abreast rule i j := abreast.refused hs rule i j

namespace Overlap

variable {k : Overlap} {exempt : Fault → Prop}

theorem exact : (k.tandem exempt).Exact := by
  intro i near
  have near : i + 3 ≤ k.shared := near
  exact k.same i (by omega)

theorem types : (k.tandem exempt).Types := Tandem.types_of_exact exact

/-- Of shared tokens the faults are the same. -/
theorem fault_eq {e f : Fault} (within : e.place.last + 3 ≤ k.shared)
    (faults : (k.tandem exempt).Faults e f) : f = e := by
  obtain @⟨cause, cause', i, j, seen, left, right, -⟩ := faults
  have shared : j < k.shared := Nat.lt_of_lt_of_le (Nat.lt_add_of_pos_right (by decide)) within
  rw [left.cause_eq right (k.same j shared) seen]
  rfl

end Overlap

/-- What is left out does not matter to two faults that are compared. -/
theorem Tandem.Faults.leaving {k : Overlap} {exempt other : Fault → Prop} {e f : Fault}
    (faults : (k.tandem exempt).Faults e f) : (k.tandem other).Faults e f := by
  obtain ⟨seen, left, right, inside⟩ := faults
  exact ⟨seen, left, right, inside⟩

end SqlSelect.Grammar
