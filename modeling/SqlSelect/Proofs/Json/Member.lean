/-
Objects and arrays read part by part.

An object is read by key, so the order of its members does not count:
`Json.Alike` holds of two values that differ in that order only, and each
reader of this module has one lemma, about any value alike to the one that
was written. A reader is told that the part it gets is smaller than the
whole, which is all that the recursion of a decoder rests on; the lemmas
are about readers that make no other use of it.
-/
import SqlSelect.Json

namespace SqlSelect.Json

variable {α : Type}

-- ========================================================= members

/-- The value behind a key of an object, that of the first such member. -/
def get? (value : Json) (key : String) : Option Json :=
  match value with
  | .obj members => members.lookup key
  | _ => none

/-- What stands behind a key is smaller than the object. -/
theorem sizeOf_lt_of_get? {value part : Json} {key : String} (h : value.get? key = some part) :
    sizeOf part < sizeOf value := by
  cases value with
  | obj members =>
      obtain ⟨before, behind, rfl, -⟩ := List.lookup_eq_some_iff.1 h
      have mem : (key, part) ∈ before ++ (key, part) :: behind :=
        List.mem_append_right before List.mem_cons_self
      have small := List.sizeOf_lt_of_mem mem
      simp only [Prod.mk.sizeOf_spec, obj.sizeOf_spec] at small ⊢
      omega
  | _ => cases h

@[simp]
theorem get?_nil (key : String) : (obj []).get? key = none := rfl

@[simp]
theorem get?_cons (name key : String) (part : Json) (members : List (String × Json)) :
    (obj ((name, part) :: members)).get? key
      = if key = name then some part else (obj members).get? key := by
  simp only [get?, List.lookup_cons]
  cases h : key == name with
  | true => exact (if_pos (beq_iff_eq.1 h)).symm
  | false => exact (if_neg (beq_eq_false_iff_ne.1 h)).symm

@[simp]
theorem get?_append (members later : List (String × Json)) (key : String) :
    (obj (members ++ later)).get? key
      = ((obj members).get? key).or ((obj later).get? key) :=
  List.lookup_append

@[simp]
theorem get?_member? (name key : String) (value : Option Json) :
    (obj (member? name value)).get? key = if key = name then value else none := by
  cases value with
  | none => rw [member?, get?_nil, ite_self]
  | some part => rw [member?, get?_cons, get?_nil]

-- ======================================================= sameness

/-- The same value, whatever the order of the members of its objects. Of
two members with the same key the first one counts. -/
inductive Alike : Json → Json → Prop where
  | refl (value : Json) : Alike value value
  | item {first first' : Json} {later later' : List Json} (head : Alike first first')
      (tail : Alike (.arr later) (.arr later')) :
      Alike (.arr (first :: later)) (.arr (first' :: later'))
  | obj {members members' : List (String × Json)}
      (keys : ∀ key, ((obj members).get? key).isSome = ((obj members').get? key).isSome)
      (values : ∀ key part part', (obj members).get? key = some part →
        (obj members').get? key = some part' → Alike part part') :
      Alike (.obj members) (.obj members')

namespace Alike

/-- What stands behind a key in one value has its like in the other. -/
theorem get?_some {value other part : Json} {key : String} (alike : Alike value other)
    (h : value.get? key = some part) : ∃ part', other.get? key = some part' ∧ Alike part part' := by
  cases alike with
  | refl => exact ⟨part, h, .refl part⟩
  | item => cases h
  | @obj members members' keys values =>
      have found : ((Json.obj members').get? key).isSome := by
        rw [← keys]
        exact Option.isSome_of_eq_some h
      obtain ⟨part', h'⟩ := Option.isSome_iff_exists.1 found
      exact ⟨part', h', values key part part' h h'⟩

/-- What is alike to an array that has items is one with items alike to them. -/
theorem of_cons {first other : Json} {later : List Json}
    (alike : Alike (.arr (first :: later)) other) :
    ∃ first' later', other = .arr (first' :: later') ∧ Alike first first'
      ∧ Alike (.arr later) (.arr later') := by
  cases alike with
  | refl => exact ⟨first, later, rfl, .refl first, .refl (.arr later)⟩
  | item head tail => exact ⟨_, _, rfl, head, tail⟩

/-- What is alike to an object is one. -/
theorem eq_obj {members : List (String × Json)} {other : Json}
    (alike : Alike (.obj members) other) : ∃ members', other = .obj members' := by
  cases alike with
  | refl => exact ⟨members, rfl⟩
  | obj => exact ⟨_, rfl⟩

/-- A key that one value does not have, the other does not have either. -/
theorem get?_none {value other : Json} {key : String} (alike : Alike value other)
    (h : value.get? key = none) : other.get? key = none := by
  cases alike with
  | refl => exact h
  | item => rfl
  | @obj members members' keys values =>
      rw [← Option.isNone_iff_eq_none, ← Option.not_isSome, ← keys, h]
      rfl

end Alike

-- ========================================================= readers

/-- A reader of the values that are smaller than the bound. -/
abbrev Reader (bound : Nat) (α : Type) := (part : Json) → sizeOf part < bound → Option α

/-- The value behind a key, read. -/
def field (value : Json) (key : String) (read : Reader (sizeOf value) α) : Option α :=
  match h : value.get? key with
  | some part => read part (sizeOf_lt_of_get? h)
  | none => none

/-- The value behind a key, read, if there is such a member. Only a missing
member is absent. -/
def field? (value : Json) (key : String) (read : Reader (sizeOf value) α) :
    Option (Option α) :=
  match h : value.get? key with
  | some part => (read part (sizeOf_lt_of_get? h)).map some
  | none => some none

/-- Values read one by one. -/
def eachOf : (items : List Json) → Reader (sizeOf items) α → Option (List α)
  | [], _ => some []
  | item :: later, read => do
    let first ← read item (List.sizeOf_lt_of_mem List.mem_cons_self)
    let rest ← eachOf later fun part small => read part (by
      simp only [List.cons.sizeOf_spec]
      omega)
    some (first :: rest)

/-- The items of an array, read one by one. -/
def each (value : Json) (read : Reader (sizeOf value) α) : Option (List α) :=
  match value, read with
  | .arr items, read => eachOf items fun part small => read part (by
      simp only [arr.sizeOf_spec]
      omega)
  | _, _ => none

/-- A string. -/
def text? : Json → Option String
  | .str text => some text
  | _ => none

/-- A truth value. -/
def bool? : Json → Option Bool
  | .bool value => some value
  | _ => none

/-- A whole number of 64 bits with a sign. -/
def int64? : Json → Option Int64
  | .int value => some (Int64.ofInt value) |>.filter (·.toInt == value)
  | _ => none

/-- A whole number of 64 bits. -/
def uint64? : Json → Option UInt64
  | .int value => some (UInt64.ofNat value.toNat) |>.filter fun word => (word.toNat : Int) == value
  | _ => none

/-- Another number. -/
def real? : Json → Option Double
  | .real value => some value
  | _ => none

@[simp]
theorem field_eq (value : Json) (key : String) (read : Json → Option α) :
    value.field key (fun part _ => read part) = (value.get? key).bind read := by
  unfold field
  split
  next h => exact (congrArg (Option.bind · read) h).symm
  next h => exact (congrArg (Option.bind · read) h).symm

@[simp]
theorem field?_eq (value : Json) (key : String) (read : Json → Option α) :
    value.field? key (fun part _ => read part)
      = (value.get? key).elim (some none) fun part => (read part).map some := by
  unfold field?
  split
  next h => exact (congrArg (Option.elim · (some none) (Option.map some <| read ·)) h).symm
  next h => exact (congrArg (Option.elim · (some none) (Option.map some <| read ·)) h).symm

theorem eachOf_eq (items : List Json) (read : Json → Option α) :
    eachOf items (fun part _ => read part) = items.mapM read := by
  induction items with
  | nil => rfl
  | cons item later ih =>
      rw [eachOf, ih, List.mapM_cons]
      rfl

@[simp]
theorem each_arr (items : List Json) (read : Json → Option α) :
    (arr items).each (fun part _ => read part) = items.mapM read :=
  eachOf_eq items read

-- ================================================= what they read

/-- The reader gives `a` for the value and for whatever is alike to it. -/
def Gives (read : Json → Option α) (value : Json) (a : α) : Prop :=
  ∀ other, Alike value other → read other = some a

theorem gives_text (text : String) : Gives text? (.str text) text := by
  intro other alike
  cases alike
  rfl

theorem gives_bool (value : Bool) : Gives bool? (.bool value) value := by
  intro other alike
  cases alike
  rfl

theorem gives_int64 (value : Int64) : Gives int64? (.int value.toInt) value := by
  intro other alike
  cases alike
  simp [int64?, Int64.ofInt_toInt]

theorem gives_uint64 (value : UInt64) : Gives uint64? (.int value.toNat) value := by
  intro other alike
  cases alike
  simp [uint64?]

theorem gives_real (value : Double) : Gives real? (.real value) value := by
  intro other alike
  cases alike
  rfl

/-- A member is read as its value is. -/
theorem Alike.field {value other part : Json} {read : Json → Option α} {a : α}
    (alike : Alike value other) (key : String) (member : value.get? key = some part)
    (gives : Gives read part a) :
    other.field key (fun part _ => read part) = some a := by
  obtain ⟨part', member', like⟩ := alike.get?_some member
  rw [field_eq, member']
  exact gives part' like

/-- A member that may be absent is read as its value is, and as absent
where it is missing. -/
theorem Alike.field? {value other : Json} {read : Json → Option α} {a : Option α}
    {write : α → Json} (alike : Alike value other) (key : String)
    (member : value.get? key = a.map write)
    (gives : ∀ x, a = some x → Gives read (write x) x) :
    other.field? key (fun part _ => read part) = some a := by
  cases a with
  | none =>
      rw [field?_eq, alike.get?_none member]
      rfl
  | some x =>
      obtain ⟨part', member', like⟩ := alike.get?_some member
      rw [field?_eq, member']
      exact congrArg (Option.map some) (gives x rfl part' like)

/-- An array is read as its items are. -/
theorem gives_each {read : Json → Option α} {write : α → Json} {xs : List α}
    (gives : ∀ x ∈ xs, Gives read (write x) x) :
    Gives (fun value => value.each fun part _ => read part) (.arr (xs.map write)) xs := by
  induction xs with
  | nil =>
      intro other alike
      cases alike
      rfl
  | cons x xs ih =>
      intro other alike
      obtain ⟨first, later, rfl, head, tail⟩ := alike.of_cons
      have head := gives x List.mem_cons_self first head
      have tail := ih (fun y hy => gives y (List.mem_cons_of_mem x hy)) (.arr later) tail
      simp only [each_arr] at tail ⊢
      rw [List.mapM_cons, head, tail]
      rfl

end SqlSelect.Json
