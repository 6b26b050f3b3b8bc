/-
Texts measured in the bytes of their UTF-8 form.

Offsets into a source count bytes. An offset is a boundary when it falls
between two characters; `slice` is defined on boundaries only.
-/
namespace SqlSelect.Text

/-- The number of bytes that the characters occupy. -/
def byteLength : List Char → Nat
  | [] => 0
  | c :: later => c.utf8Size + byteLength later

@[simp]
theorem byteLength_nil : byteLength [] = 0 := rfl

@[simp]
theorem byteLength_cons (c : Char) (cs : List Char) :
    byteLength (c :: cs) = c.utf8Size + byteLength cs := rfl

@[simp]
theorem byteLength_append (front back : List Char) :
    byteLength (front ++ back) = byteLength front + byteLength back := by
  induction front with
  | nil => simp
  | cons c front ih => simp [ih, Nat.add_assoc]

/-- The measure agrees with the size of the string that the text spells. -/
theorem byteLength_toList (s : String) : byteLength s.toList = s.utf8ByteSize := by
  have ofList : ∀ cs : List Char, byteLength cs = (String.ofList cs).utf8ByteSize := by
    intro cs
    induction cs with
    | nil => simp
    | cons c cs ih =>
      have split : String.ofList (c :: cs) = String.ofList [c] ++ String.ofList cs := by
        rw [← String.ofList_append]
        rfl
      have one : (String.ofList [c]).utf8ByteSize = c.utf8Size := by
        rw [← String.singleton_eq_ofList, String.utf8ByteSize_singleton]
      rw [byteLength_cons, ih, split, String.utf8ByteSize_append, one]
  rw [ofList, String.ofList_toList]

/-- Every character takes at least one byte. -/
theorem length_le_byteLength (cs : List Char) : cs.length ≤ byteLength cs := by
  induction cs with
  | nil => simp
  | cons c cs ih =>
    have := c.utf8Size_pos
    rw [List.length_cons, byteLength_cons]
    omega

/-- Divides a text at a byte offset, if that is a boundary. -/
def splitAtByte : Nat → List Char → Option (List Char × List Char)
  | 0, cs => some ([], cs)
  | _ + 1, [] => none
  | n + 1, c :: later =>
    if c.utf8Size ≤ n + 1 then
      (splitAtByte (n + 1 - c.utf8Size) later).map fun (front, back) => (c :: front, back)
    else none

/-- The text between two byte offsets, if both are boundaries and stand in
order. -/
def slice (cs : List Char) (start stop : Nat) : Option (List Char) :=
  if start ≤ stop then do
    let (_, back) ← splitAtByte start cs
    let (front, _) ← splitAtByte (stop - start) back
    return front
  else none

end SqlSelect.Text
