/-
Tokens that differ in a name only.

A name may be written bare or in double quotes and may be any text, and the
grammar should see no more of it than that it is a name. `Kind.Alike` pairs
the tokens that differ in that way, and every token with itself. What a `View`
keeps of a name decides which names are alike: one view keeps all of it, so
that only quotes come and go; another keeps whether it is the star.

# Questions

The grammar learns of a token what it asks, and each of its questions is
answered here once: which keyword or symbol stands there, whether an operator
or a wildcard starts, whether a clause is over, which words come before a
`JOIN`. Alike tokens get the same answer, or answers that are alike. Most of
these answers are the same of all plain names (`Kind.Alike.congr`).

# Names that count

Two questions look into names after all. Whether a name is the star is part of
what every view keeps. And the words that belong to the names of types are
never plain names where they are bare (`typeWords`), so that quotes around
them are no difference that is overlooked.
-/
import SqlSelect.Proofs.Ahead
import SqlSelect.Proofs.Names

namespace SqlSelect

open Grammar (prefixOp? postfixTier? Connective continuesOperand endsClause startsJoin StartsAlias wildcardAt? zone? isJoinModifier)

-- ============================================================= views

/-- What is seen of a name. The star is told from other names, and names
that look the same still do with more words behind them. -/
structure View where
  see : String → String
  star : ∀ x y, see x = see y → (x = Expr.star ↔ y = Expr.star)
  append : ∀ x y words, see x = see y → see (x ++ " " ++ words) = see (y ++ " " ++ words)

/-- The view that keeps the whole name. -/
def View.whole : View where
  see := id
  star x y same := by
    obtain rfl : x = y := same
    exact Iff.rfl
  append x y words same := by
    obtain rfl : x = y := same
    rfl

/-- A name with more words behind it has a blank in it. -/
theorem append_blank_ne_star (x words : String) : x ++ " " ++ words ≠ Expr.star := by
  intro same
  have length := congrArg (fun name => ' ' ∈ name.toList) same
  simp [Expr.star] at length

/-- The view that keeps whether the name is the star. -/
def View.starOnly : View where
  see x := if x = Expr.star then Expr.star else ""
  star x y same := by
    have other : Expr.star ≠ "" := by decide
    by_cases hx : x = Expr.star
    · by_cases hy : y = Expr.star
      · exact iff_of_true hx hy
      · rw [if_pos hx, if_neg hy] at same
        exact absurd same other
    · by_cases hy : y = Expr.star
      · rw [if_neg hx, if_pos hy] at same
        exact absurd same.symm other
      · exact iff_of_false hx hy
  append x y words _ := by
    rw [if_neg (append_blank_ne_star x words), if_neg (append_blank_ne_star y words)]

-- ======================================================= alike tokens

/-- The words that act as parts of a type name where they are bare. -/
def typeWords : List String :=
  ["double", "precision", "character", "char", "bit", "varying", "time", "timestamp", "zone",
    "with", "without"]

/-- A token that is nothing but a name: in double quotes, or a bare word
that spells no keyword and belongs to no type name of several words. -/
inductive Kind.Plain : Kind → String → Prop
  | quoted (name : String) : Plain (.quoted name) name
  | word {name : String} (free : Keyword.ofWord? name = none) (other : name ∉ typeWords) :
    Plain (.word name) name

namespace Kind.Plain

variable {k : Kind} {x : String}

/-- A plain name is no keyword. -/
@[simp]
theorem keyword? (h : k.Plain x) : k.keyword? = none := by
  cases h with
  | quoted => rfl
  | word free => exact free

/-- It is the name of something. -/
@[simp]
theorem identifier? (h : k.Plain x) : k.identifier? = some x := by
  cases h with
  | quoted => rfl
  | word free => simp [Kind.identifier?, free]

/-- So it is where keywords may be names. -/
@[simp]
theorem anyName? (h : k.Plain x) : k.anyName? = some x := by cases h <;> rfl

/-- It is no symbol. -/
theorem ne_symbol (h : k.Plain x) (mark : Symbol) : k ≠ .symbol mark := by cases h <;> nofun

/-- It is not the end of the input. -/
theorem ne_eof (h : k.Plain x) : k ≠ .eof := by cases h <;> nofun

/-- It is no word of a type. -/
theorem ne_word (h : k.Plain x) {word : String} (type : word ∈ typeWords) : k ≠ .word word := by
  cases h with
  | quoted => nofun
  | word _ other =>
      intro same
      exact other (Kind.word.inj same ▸ type)

/-- A word that can start a type of several words is in double quotes. -/
theorem eq_quoted (h : k.Plain x) (type : x ∈ typeWords) : k = .quoted x := by
  cases h with
  | quoted => rfl
  | word _ other => exact absurd type other

end Kind.Plain

/-- Two tokens that look alike: the same, or both plain names that do. -/
inductive Kind.Alike (v : View) : Kind → Kind → Prop
  | same (k : Kind) : Alike v k k
  | plain {k l : Kind} {x y : String} (left : k.Plain x) (right : l.Plain y)
    (seen : v.see x = v.see y) (star : k = .quoted Expr.star ↔ l = .quoted Expr.star) : Alike v k l

/-- What a view shows of a token: a name without its quotes. -/
def Kind.seen (see : String → String) : Kind → Kind
  | .quoted name => .word (see name)
  | .word name => .word (see name)
  | kind => kind

/-- What a view shows of a cause. -/
def Cause.seen (see : String → String) : Cause → Cause
  | .unexpected expected found => .unexpected expected (found.seen see)
  | .trailing found => .trailing (found.seen see)
  | cause => cause

namespace Kind.Alike

variable {v : View} {k k' l l' m m' : Kind}

/-- What looks alike does so from either side. -/
theorem symm (h : Alike v k l) : Alike v l k := by
  cases h with
  | same => exact .same k
  | plain left right seen star => exact .plain right left seen.symm star.symm

/-- What is the same of all plain names is the same of alike tokens. -/
theorem congr {β : Type} (f : Kind → β) (c : β) (blind : ∀ k x, k.Plain x → f k = c)
    (h : Alike v k l) : f k = f l := by
  cases h with
  | same => rfl
  | plain left right => rw [blind _ _ left, blind _ _ right]

theorem keyword? (h : Alike v k l) : k.keyword? = l.keyword? :=
  h.congr Kind.keyword? none fun _ _ => Plain.keyword?

theorem symbol (h : Alike v k l) (mark : Symbol) : k = .symbol mark ↔ l = .symbol mark :=
  iff_of_eq <| h.congr (· = .symbol mark) False fun _ _ p => eq_false (p.ne_symbol mark)

theorem eof (h : Alike v k l) : k = .eof ↔ l = .eof :=
  iff_of_eq <| h.congr (· = .eof) False fun _ _ p => eq_false p.ne_eof

theorem word (h : Alike v k l) {word : String} (type : word ∈ typeWords) :
    k = .word word ↔ l = .word word :=
  iff_of_eq <| h.congr (· = .word word) False fun _ _ p => eq_false (p.ne_word type)

/-- The star in quotes is alike to itself alone. -/
theorem quotedStar (h : Alike v k l) : k = .quoted Expr.star ↔ l = .quoted Expr.star := by
  cases h with
  | same => exact Iff.rfl
  | plain _ _ _ star => exact star

/-- Names that tokens stand for are absent together or look alike. -/
def Names (v : View) : Option String → Option String → Prop :=
  Option.Rel fun x y => v.see x = v.see y

/-- A name is alike to itself. -/
theorem Names.refl (name : Option String) : Names v name name := by
  cases name with
  | none => exact .none
  | some x => exact .some rfl

theorem identifier? (h : Alike v k l) : Names v k.identifier? l.identifier? := by
  cases h with
  | same => exact .refl _
  | plain left right seen =>
      rw [left.identifier?, right.identifier?]
      exact .some seen

/-- Either both tokens are names or neither is. -/
theorem isSome_identifier? (h : Alike v k l) : k.identifier?.isSome = l.identifier?.isSome :=
  match k.identifier?, l.identifier?, h.identifier? with
  | _, _, .none => rfl
  | _, _, .some _ => rfl

theorem anyName? (h : Alike v k l) : Names v k.anyName? l.anyName? := by
  cases h with
  | same => exact .refl _
  | plain left right seen =>
      rw [left.anyName?, right.anyName?]
      exact .some seen

/-- Alike tokens are shown alike. -/
theorem seen (h : Alike v k l) : k.seen v.see = l.seen v.see := by
  have plain {k : Kind} {x : String} (p : k.Plain x) : k.seen v.see = .word (v.see x) := by
    cases p <;> rfl
  cases h with
  | same => rfl
  | plain left right seen => rw [plain left, plain right, seen]

/-- So are the causes that name them as what was found. -/
theorem ofFound (h : Alike v k l) (expected : String) :
    (Cause.ofFound expected k).seen v.see = (Cause.ofFound expected l).seen v.see := by
  have seen := h.seen
  have inner {k : Kind} (other : k ≠ .eof) : (Cause.ofFound expected k).seen v.see
      = .unexpected expected (k.seen v.see) := by
    cases k <;> first | rfl | exact absurd rfl other
  by_cases ends : k = .eof
  · rw [ends, h.eof.1 ends]
  · rw [inner ends, inner fun eof => ends (h.eof.2 eof), seen]

-- -------------------------------------------------- what the grammar asks

/-- A plain name is no prefix operator. -/
theorem prefixOp? (h : Alike v k l) : prefixOp? k = prefixOp? l :=
  h.congr Grammar.prefixOp? none fun _ _ p => by
    cases p <;> simp_all [Grammar.prefixOp?, Kind.keyword?]

/-- It is neither a cast nor a test. -/
theorem postfixTier? (h : Alike v k l) : postfixTier? k = postfixTier? l :=
  h.congr Grammar.postfixTier? none fun _ _ p => by
    cases p <;> simp_all [Grammar.postfixTier?, Kind.keyword?]

/-- It is no operator, and it tells no two operators apart behind their first
word. -/
theorem connective (h : Alike v k l) (next : Alike v k' l') :
    Connective.at? k k' = Connective.at? l l' := by
  have first : Connective.at? k k' = Connective.at? k l' := by
    unfold Connective.at?
    rw [next.keyword?]
  rw [first]
  exact h.congr (Connective.at? · l') none fun _ _ p => by
    cases p <;> simp_all [Connective.at?, Kind.keyword?]

/-- So it goes on with no operand. -/
theorem continuesOperand (h : Alike v k l) (next : Alike v k' l') :
    continuesOperand k k' = continuesOperand l l' := by
  rw [Grammar.continuesOperand, Grammar.continuesOperand, h.postfixTier?, h.connective next]

/-- It ends no clause. -/
theorem endsClause (h : Alike v k l) (keywords : List Keyword) :
    endsClause keywords k = endsClause keywords l :=
  h.congr (Grammar.endsClause keywords) false fun _ _ p => by
    cases p <;> simp_all [Grammar.endsClause, Kind.keyword?]

/-- It starts no join. -/
theorem startsJoin (h : Alike v k l) : startsJoin k = startsJoin l := by
  rw [Grammar.startsJoin, Grammar.startsJoin, h.keyword?]

/-- It starts an alias, as every name does. -/
theorem startsAlias (h : Alike v k l) : StartsAlias k ↔ StartsAlias l := by
  rw [StartsAlias, StartsAlias, h.keyword?, h.isSome_identifier?]

/-- The words of a time zone are no plain names. -/
theorem zone? (h : Alike v k l) (h' : Alike v k' l') (h'' : Alike v m m') :
    zone? k k' m = zone? l l' m' := by
  have one {k k' m l l' m' : Kind} (h : Alike v k l) (h' : Alike v k' l') (h'' : Alike v m m')
      {words : String} (found : Grammar.zone? k k' m = some words) :
      Grammar.zone? l l' m' = some words := by
    unfold Grammar.zone? at found
    split at found
    next =>
      rw [(h.word (by decide)).1 rfl, (h'.word (by decide)).1 rfl, (h''.word (by decide)).1 rfl]
      exact found
    next =>
      rw [(h.word (by decide)).1 rfl, (h'.word (by decide)).1 rfl, (h''.word (by decide)).1 rfl]
      exact found
    next => cases found
  exact Option.ext fun words => ⟨one h h' h'', one h.symm h'.symm h''.symm⟩

/-- The wildcards that alike tokens start with look alike. -/
theorem wildcardAt? (h : Alike v k l) (h' : Alike v k' l') (h'' : Alike v m m') :
    Option.Rel (fun a b => a.1.mapNames v.see = b.1.mapNames v.see ∧ a.2 = b.2)
      (wildcardAt? k k' m) (wildcardAt? l l' m') := by
  unfold Grammar.wildcardAt?
  simp only [h.symbol, h'.symbol, h''.symbol]
  split
  next => exact .some ⟨rfl, rfl⟩
  next =>
    split
    next =>
      have named := h.identifier?
      generalize k.identifier? = x at named ⊢
      generalize l.identifier? = y at named ⊢
      cases named with
      | none => exact .none
      | some seen =>
          refine .some ⟨?_, rfl⟩
          simp [Expr.qualifiedWildcard, Expr.mapNames, seen]
    next => exact .none

end Kind.Alike

/-- The words before `JOIN` show from the tokens up to the first that is
none. -/
theorem Grammar.joinWords_congr {v : View} {ls ms : List Kind}
    (alike : ∀ i ≤ (joinWords ls).length, (ls.getD i .eof).Alike v (ms.getD i .eof)) :
    joinWords ms = joinWords ls := by
  induction ls generalizing ms with
  | nil =>
      cases ms with
      | nil => rfl
      | cons kind ms =>
          -- past the last token the end of the input is seen, and it is alike
          -- to itself alone
          obtain rfl : kind = .eof := (alike 0 (Nat.zero_le _)).eof.1 rfl
          rfl
  | cons kind ls ih =>
      cases ms with
      | nil =>
          obtain rfl : kind = .eof := (alike 0 (Nat.zero_le _)).eof.2 rfl
          rfl
      | cons kind' ms =>
          have first : kind.Alike v kind' := alike 0 (Nat.zero_le _)
          rw [joinWords, joinWords, ← first.keyword?]
          split
          next keyword found =>
            by_cases modifies : isJoinModifier keyword = true
            · rw [if_pos modifies, if_pos modifies, ih fun i hi => ?_]
              have longer : (joinWords (kind :: ls)).length = (joinWords ls).length + 1 := by
                simp [joinWords, found, modifies]
              exact alike (i + 1) (by omega)
            · rw [if_neg modifies, if_neg modifies]
          next => rfl

end SqlSelect
