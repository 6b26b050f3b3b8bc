/-
The types of two inputs that differ in names.

A type is read alike where its first word is the same on both sides. Where the
first words differ, both are plain names, and a plain name that can start a
type of several words is in double quotes. Then `SpansWords` says whether the
words behind it belong to the type, and that is shared, so that either both
names go on or neither does.

# Names and what stands behind them

`Named` is this situation: two names that look the same, the tokens behind
them, and the shared question. What follows from it is a matter of tokens
alone. If a second word belongs to the one name it belongs to the other
(`Named.second`), and if the one takes words about a time zone so does the
other (`Named.timed`). Between a name and those words there may be modifiers;
they hold no names, so that they are the same tokens on both sides.

# The two readings

The comparison then goes along the text of the production as others do, with
one difference. Whether words about a time zone belong to a name depends on the
modifiers that were read, so what the left side has read is kept in sight
(`Tandem.At.bindOf`).
-/
import SqlSelect.Proofs.Lockstep.Basic

namespace SqlSelect

open Grammar (secondWord? words_of_secondWord? mem_typeWords_of_secondWord?)

-- ====================================================== types that go on

/-- The name of a type that takes words about a time zone. -/
def Timed (name : String) : Prop := name = "time" ∨ name = "timestamp"

theorem Timed.mem_typeWords {name : String} (timed : Timed name) : name ∈ typeWords := by
  rcases timed with rfl | rfl <;> decide

/-- A name of two words takes none about a time zone. -/
theorem not_timed_append (name second : String) : ¬Timed (name ++ " " ++ second) := by
  have blank (timed : Timed (name ++ " " ++ second)) :
      ' ' ∈ "time".toList ∨ ' ' ∈ "timestamp".toList := by
    have inside : ' ' ∈ (name ++ " " ++ second).toList := by simp
    rcases timed with same | same
    · exact Or.inl (same ▸ inside)
    · exact Or.inr (same ▸ inside)
  intro timed
  exact absurd (blank timed) (by decide)

/-- Modifiers are absent or start with a parenthesis. -/
theorem YieldsConfig.cases_head {config : Option (List Int64)} {modifiers : List Kind}
    (h : YieldsConfig config modifiers) :
    modifiers = [] ∨ ∃ more, modifiers = .symbol .leftParen :: more := by
  cases h with
  | absent => exact Or.inl rfl
  | present => exact Or.inr ⟨_, rfl⟩

namespace SpansWords

variable {mark k : Kind} {later : List Kind}

/-- With a second word behind it, the first is one that it belongs to. -/
theorem second_inv {second : String} (h : SpansWords (mark :: k :: .word second :: later))
    (other : second ≠ "with" ∧ second ≠ "without") :
    ∃ name, k = .quoted name ∧ secondWord? name = some second := by
  generalize hks : mark :: k :: .word second :: later = ks at h
  cases h with
  | second _ belongs =>
      injection hks with _ hks
      injection hks with hk hks
      injection hks with hword _
      rw [Kind.word.inj hword]
      exact ⟨_, hk, belongs⟩
  | zone _ _ hmodifiers hfirst =>
      injection hks with _ hks
      injection hks with _ hks
      rcases hmodifiers.cases_head with rfl | ⟨more, rfl⟩
      · injection hks with hword _
        rw [Kind.word.inj hword] at other
        rcases hfirst with rfl | rfl
        · exact absurd rfl other.1
        · exact absurd rfl other.2
      · injection hks with hword _
        cases hword

/-- With words about a time zone behind it, it is a type that takes them. -/
theorem zone_inv {first : String} {config : Option (List Int64)} {modifiers : List Kind}
    (h : SpansWords (mark :: k :: (modifiers ++ .word first :: later)))
    (hmodifiers : YieldsConfig config modifiers) (hfirst : first = "with" ∨ first = "without") :
    ∃ name, k = .quoted name ∧ Timed name := by
  generalize hks : mark :: k :: (modifiers ++ .word first :: later) = ks at h
  cases h with
  | second _ belongs =>
      injection hks with _ hks
      injection hks with _ hks
      rcases hmodifiers.cases_head with rfl | ⟨more, rfl⟩
      · injection hks with hword _
        have second := (words_of_secondWord? belongs).2
        rw [← Kind.word.inj hword] at second
        rcases hfirst with rfl | rfl <;> simp at second
      · injection hks with hword _
        cases hword
  | zone _ timed =>
      injection hks with _ hks
      injection hks with hk _
      exact ⟨_, hk, timed⟩

end SpansWords

-- ================================================= names and their words

theorem Kind.Alike.eq_of_fixed {v : View} {k l : Kind} (h : k.Alike v l) (fixed : k.Fixed) :
    l = k := by
  cases h with
  | same => rfl
  | plain left => exact absurd left (fixed _)

/-- Where alike tokens stand for different names, both are nothing but names. -/
theorem Kind.Alike.plain_of_ne {v : View} {k l : Kind} {x y : String} (h : k.Alike v l)
    (hx : k.identifier? = some x) (hy : l.identifier? = some y) (other : x ≠ y) :
    k.Plain x ∧ l.Plain y ∧ v.see x = v.see y := by
  cases h with
  | same => exact absurd (Option.some.inj (hx.symm.trans hy)) other
  | plain left right seen =>
      rw [left.identifier?] at hx
      rw [right.identifier?] at hy
      obtain rfl := Option.some.inj hx
      obtain rfl := Option.some.inj hy
      exact ⟨left, right, seen⟩

/-- Two plain names behind tokens that mark a type, and the tokens behind them.
A type goes on behind the one name where it does behind the other. -/
structure Named (v : View) (x y : String) (ks ls : List Kind) : Prop where
  seen : v.see x = v.see y
  alike : List.Forall₂ (Kind.Alike v) ks ls
  spans : ∃ mark mark' k l : Kind, mark.MarksType ∧ mark'.MarksType ∧ k.Plain x ∧ l.Plain y
    ∧ (SpansWords (mark :: k :: ks) ↔ SpansWords (mark' :: l :: ls))

namespace Named

variable {v : View} {x y : String} {ks ls : List Kind}

theorem symm (h : Named v x y ks ls) : Named v y x ls ks := by
  obtain ⟨seen, alike, mark, mark', k, l, hmark, hmark', left, right, iff⟩ := h
  exact ⟨seen.symm, alike.flip.imp fun _ _ alike => alike.symm, mark', mark, l, k, hmark', hmark,
    right, left, iff.symm⟩

/-- If the one takes the second word, so does the other. -/
theorem second (h : Named v x y ks ls) {second : String} (belongs : secondWord? x = some second)
    (here : ks.getD 0 .eof = .word second) :
    secondWord? y = some second ∧ ls.getD 0 .eof = .word second := by
  obtain ⟨-, alike, mark, mark', k, l, hmark, -, left, right, iff⟩ := h
  have inTypes := mem_typeWords_of_secondWord? belongs
  have other : second ≠ "with" ∧ second ≠ "without" := by
    rcases (words_of_secondWord? belongs).2 with rfl | rfl <;> decide
  cases alike with
  | nil => cases here
  | @cons first first' later later' both =>
      obtain rfl : first = .word second := here
      obtain rfl := both.eq_of_fixed (Kind.fixed_word inTypes)
      rw [left.eq_quoted (words_of_secondWord? belongs).1] at iff
      obtain ⟨name, rfl, hname⟩ := (iff.1 (.second hmark belongs)).second_inv other
      obtain rfl : name = y := by
        cases right
        rfl
      exact ⟨hname, rfl⟩

/-- Modifiers and words about a time zone hold no names, so that they stand on
both sides. -/
theorem words (h : Named v x y ks ls) {config : Option (List Int64)} {modifiers later : List Kind}
    {first : String} (hmodifiers : YieldsConfig config modifiers)
    (hfirst : first = "with" ∨ first = "without")
    (here : ks = modifiers ++ .word first :: .word "time" :: .word "zone" :: later) :
    ∃ later', ls = modifiers ++ .word first :: .word "time" :: .word "zone" :: later' := by
  have fixed : ∀ k ∈ modifiers ++ [.word first, .word "time", .word "zone"], k.Fixed := by
    refine List.forall_mem_append.2 ⟨hmodifiers.fixed, fun k hk => ?_⟩
    simp only [List.mem_cons, List.not_mem_nil, or_false] at hk
    rcases hk with rfl | rfl | rfl
    · exact Kind.fixed_word (by rcases hfirst with rfl | rfl <;> decide)
    · exact Kind.fixed_word (by decide)
    · exact Kind.fixed_word (by decide)
  have alike := h.alike
  rw [here, show modifiers ++ .word first :: .word "time" :: .word "zone" :: later
    = (modifiers ++ [.word first, .word "time", .word "zone"]) ++ later by simp] at alike
  obtain ⟨later', rfl⟩ := forall₂_fixed_append (fun _ _ => Kind.Alike.eq_of_fixed) alike fixed
  exact ⟨later', by simp⟩

/-- If the one takes words about a time zone, so does the other. -/
theorem timed (h : Named v x y ks ls) (hx : Timed x) {config : Option (List Int64)}
    {modifiers later : List Kind} {first : String} (hmodifiers : YieldsConfig config modifiers)
    (hfirst : first = "with" ∨ first = "without")
    (here : ks = modifiers ++ .word first :: .word "time" :: .word "zone" :: later) :
    Timed y := by
  obtain ⟨later', there⟩ := h.words hmodifiers hfirst here
  obtain ⟨mark, mark', k, l, hmark, -, left, right, iff⟩ := h.spans
  rw [here, there, left.eq_quoted hx.mem_typeWords] at iff
  obtain ⟨name, rfl, hname⟩ :=
    (iff.1 (.zone hmark hx hmodifiers hfirst)).zone_inv hmodifiers hfirst
  cases right
  exact hname

end Named

namespace Grammar

variable {v : View} {s t : State} {x y : String}

-- =========================================================== productions

/-- The second word is taken if it stands there. -/
theorem typeName_cases (x : String) (s : State) :
    (∃ second, secondWord? x = some second ∧ s.kindAt 0 = .word second
        ∧ typeName x s = .ok (x ++ " " ++ second) s.advance)
      ∨ (∀ second, secondWord? x = some second → s.kindAt 0 ≠ .word second)
        ∧ typeName x s = .ok x s := by
  unfold typeName
  cases hsecond : secondWord? x with
  | none => exact Or.inr ⟨nofun, rfl⟩
  | some second =>
      dsimp only
      rw [current_bind]
      by_cases here : s.kindAt 0 = .word second
      · rw [if_pos here]
        exact Or.inl ⟨second, rfl, here, rfl⟩
      · rw [if_neg here]
        refine Or.inr ⟨fun other belongs => ?_, rfl⟩
        rw [← Option.some.inj belongs]
        exact here

theorem zonedName_of_not_timed (hx : ¬Timed x) : zonedName x = pure x := if_neg hx

/-- Without words about a time zone there is nothing to take. -/
theorem zonedName_of_none (x : String)
    (found : zone? (s.kindAt 0) (s.kindAt 1) (s.kindAt 2) = none) :
    zonedName x s = .ok x s := by
  unfold zonedName
  split
  next =>
    rw [peek_bind, peek_bind, peek_bind, found]
    rfl
  next => rfl

theorem zonedName_of_some (hx : Timed x) {zone : String}
    (found : zone? (s.kindAt 0) (s.kindAt 1) (s.kindAt 2) = some zone) :
    zonedName x s = (skip 3 >>= fun _ => pure (x ++ zone)) s := by
  unfold zonedName
  rw [if_pos (show x = "time" ∨ x = "timestamp" from hx), peek_bind, peek_bind, peek_bind, found]

-- ========================================================= side by side

section Words

variable {ks ls : List Kind} (h : Reworded v ks ls)

include h

/-- Names that take no words about a time zone. -/
theorem tandem_typeTail_untimed (hs : s.StandsIn ks) (seen : v.see x = v.see y)
    (hx : ¬Timed x) (hy : ¬Timed y) :
    h.tandem.At s none? (DataType.mapName v.see) (typeTail x) (typeTail y) := by
  refine (tandem_typeConfig (w := h.tandem) hs).share fun config s₁ h₁ _ => ?_
  rw [zonedName_of_not_timed hx, zonedName_of_not_timed hy, pure_bind, pure_bind]
  exact .pure h₁ (by simp [DataType.mapName, seen]) rfl

/-- Behind the modifiers both names take the same words, or neither takes
any. -/
theorem tandem_zonedName_named (hs : s.StandsIn ks)
    (named : Named v x y (ks.drop s.position) (ls.drop s.position))
    {config : Option (List Int64)} {s' : State} (hconfig : typeConfig s = .ok config s')
    (hs' : s'.StandsIn ks) :
    h.tandem.At s' none? v.see (zonedName x) (zonedName y) := by
  have ahead : s.Lexed := by
    rw [State.Lexed, hs.rest]
    exact fun k hk => h.lexed k (List.mem_of_mem_drop hk)
  obtain ⟨modifiers, m, hmodifiers⟩ := passes_typeConfig ahead hconfig
  have sight {t : State} (abreast : s'.Abreast ls t) :
      zone? (t.kindAt 0) (t.kindAt 1) (t.kindAt 2)
        = zone? (s'.kindAt 0) (s'.kindAt 1) (s'.kindAt 2) := by
    have alike (ahead : Nat) (le : ahead ≤ 2) : (s'.kindAt ahead).Alike v (t.kindAt ahead) :=
      h.tandem.kindAt (i := 0) hs' abreast trivial le
    exact ((alike 0 (by decide)).zone? (alike 1 (by decide)) (alike 2 (by decide))).symm
  cases found : zone? (s'.kindAt 0) (s'.kindAt 1) (s'.kindAt 2) with
  | none =>
      refine (Tandem.At.pure (w := h.tandem) hs' named.seen rfl).congr
        (zonedName_of_none x found) fun abreast => zonedName_of_none y ?_
      exact (sight abreast).trans found
  | some zone =>
      obtain ⟨first, later, hfirst, rfl, rest⟩ := rest_of_zone? found
      have here : ks.drop s.position
          = modifiers ++ .word first :: .word "time" :: .word "zone" :: later := by
        rw [← hs.rest, m.rest, rest]
        rfl
      by_cases hx : Timed x
      · have hy := named.timed hx hmodifiers hfirst here
        have passed := Tandem.At.skip (w := h.tandem) hs' (forall_three (zone?_inner found))
        have words : h.tandem.At s' none? v.see
            (skip 3 >>= fun _ => pure (x ++ (" " ++ first ++ " time zone")))
            (skip 3 >>= fun _ => pure (y ++ (" " ++ first ++ " time zone"))) := by
          refine passed.map (fun _ _ _ => ?_) fun _ => Nat.zero_le _
          have seen := v.append x y (first ++ " time zone") named.seen
          simpa only [String.append_assoc] using seen
        exact words.congr (zonedName_of_some hx found) fun abreast =>
          zonedName_of_some hy ((sight abreast).trans found)
      · have hy : ¬Timed y := fun hy => by
          obtain ⟨_, there⟩ := named.words hmodifiers hfirst here
          exact hx (named.symm.timed hy hmodifiers hfirst there)
        rw [zonedName_of_not_timed hx, zonedName_of_not_timed hy]
        exact .pure hs' named.seen rfl

theorem tandem_typeTail_named (hs : s.StandsIn ks)
    (named : Named v x y (ks.drop s.position) (ls.drop s.position)) :
    h.tandem.At s none? (DataType.mapName v.see) (typeTail x) (typeTail y) := by
  refine (tandem_typeConfig (w := h.tandem) hs).bindOf (m := fun _ => none?)
    (fun config config' s₁ hconfig same h₁ _ => ?_) fun _ _ => Nat.le_refl 0
  obtain rfl : config = config' := same
  refine (tandem_zonedName_named h hs named hconfig h₁).map (fun m n seen => ?_)
    fun _ => Nat.le_refl 0
  simp [DataType.mapName, seen]

/-- A second word is taken behind both names or behind neither. -/
theorem tandem_type_named (hs : s.StandsIn ks)
    (named : Named v x y (ks.drop s.position) (ls.drop s.position)) :
    h.tandem.At s none? (DataType.mapName v.see) (typeName x >>= typeTail)
      (typeName y >>= typeTail) := by
  have left : (ks.drop s.position).getD 0 .eof = s.kindAt 0 := by
    rw [hs.kindAt, getD_drop]
  have right {t : State} (abreast : s.Abreast ls t) :
      (ls.drop s.position).getD 0 .eof = t.kindAt 0 := by
    rw [abreast.stands.kindAt, abreast.position, getD_drop]
  rcases typeName_cases x s with ⟨second, belongs, here, -⟩ | ⟨alone, hs'⟩
  · obtain ⟨belongs', -⟩ := named.second belongs (left.trans here)
    rw [typeName, typeName, belongs, belongs']
    dsimp only
    rw [bind_assoc, bind_assoc]
    refine .current (w := h.tandem) hs fun k l found alike => ?_
    have here : k = .word second := found.symm.trans here
    rw [if_pos here, if_pos ((alike.word (mem_typeWords_of_secondWord? belongs)).1 here)]
    simp only [bind_assoc, pure_bind]
    refine .advance (m := none?) hs (found.trans here ▸ nofun) (fun s₁ _ h₁ _ => ?_)
      fun _ => Nat.le_succ _
    exact tandem_typeTail_untimed h h₁ (v.append x y second named.seen)
      (not_timed_append x second) (not_timed_append y second)
  · refine (tandem_typeTail_named h hs named).congr (by rw [bind_apply, hs']) fun {t} abreast => ?_
    rcases typeName_cases y t with ⟨second, belongs, there, -⟩ | ⟨-, ht⟩
    · obtain ⟨belongs', here⟩ := named.symm.second belongs ((right abreast).trans there)
      exact absurd (left.symm.trans here) (alone second belongs')
    · rw [bind_apply, ht]

end Words

end Grammar

/-- The next two tokens and those behind them. -/
theorem drop_two (ls : List Kind) {i : Nat} (inside : i + 1 < ls.length) :
    ls.drop i = ls.getD i .eof :: ls.getD (i + 1) .eof :: ls.drop (i + 2) := by
  rw [List.drop_eq_getElem_cons (Nat.lt_of_succ_lt inside), List.drop_eq_getElem_cons inside]
  simp [List.getD_eq_getElem?_getD, inside, Nat.lt_of_succ_lt inside]

open Grammar (State tandem_dataType tandem_type tandem_type_named)

/-- Behind a token that marks a type, the types of two inputs differ in names
only. -/
theorem Reworded.types {v : View} {ks ls : List Kind} (h : Reworded v ks ls) :
    h.tandem.Types := by
  intro s hs marks
  have hs : s.StandsIn ks := hs
  have marks : (s.kindAt 0).MarksType := marks
  have inner : s.kindAt 0 ≠ .eof := marks.elim Grammar.ne_eof_of_symbol Grammar.ne_eof_of_keyword?
  have stands := hs.advance inner
  have next : s.advance.position = s.position + 1 := (Grammar.moves_advance rfl inner).position
  have alike : (s.advance.kindAt 0).Alike v (ls.getD (s.position + 1) .eof) := by
    rw [stands.kindAt, next]
    exact h.getD _
  -- the first word on the right is the token there, unless it is the one on the left
  refine tandem_dataType (R := fun k l => k = l ∨ l = ls.getD (s.position + 1) .eof) stands
    (Or.inl rfl) (fun _ t abreast => Or.inr ?_) (fun l there => ?_)
    fun l x y s' there hx hy hs' moved => ?_
  · have abreast : s.advance.Abreast ls t := abreast
    rw [← next, ← abreast.position]
    exact abreast.stands.kindAt 0
  · rcases there with rfl | rfl
    · rfl
    · exact alike.isSome_identifier?
  · by_cases same : x = y
    · rw [same]
      exact tandem_type hs' y
    · have two : s'.position = s.position + 2 := moved.trans (congrArg (· + 1) next)
      have length := h.alike.length_eq
      have inside := stands.position_lt
      have spans := h.spans s.position
      rw [drop_two ks (by omega), drop_two ls (by omega), ← two] at spans
      have marks' : (ls.getD s.position .eof).MarksType := by
        have first : (s.kindAt 0).Alike v (ls.getD s.position .eof) := by
          rw [hs.kindAt]
          exact h.getD _
        exact marks.imp (first.symbol _).1 fun found => first.keyword? ▸ found
      obtain rfl : l = ls.getD (s.position + 1) .eof := by
        refine there.resolve_left fun one => same ?_
        exact Option.some.inj (hx.symm.trans (one ▸ hy))
      have hx : (s.advance.kindAt 0).identifier? = some x := hx
      rw [stands.kindAt, next] at alike hx
      rw [hs.kindAt] at marks
      obtain ⟨left, right, seen⟩ := alike.plain_of_ne hx hy same
      exact tandem_type_named h hs'
        ⟨seen, List.forall₂_drop _ h.alike, _, _, _, _, marks, marks', left, right, spans⟩

end SqlSelect
