/-
Two cursors that go through the grammar side by side.

Several facts about the parser compare two of its runs: over a text and over
the bare kinds of its tokens, over two texts with other names, over two texts
that start with the same tokens, over one text with other bounds. A run goes
along the grammar, so each of these facts needs one lemma for every
production. This file is what they share, so that there is one such lemma and
not one for each fact. It is stated for any two cursors in `Proofs/Tandem/`,
and a change to a production is a change to its one lemma there.

# What is compared

A `Track` is one side: the list of tokens that a cursor stands in, and how it
marks them and names its faults. A `Tandem` is both sides, with what is known
of the two: how far ahead the tokens are known to be alike (`near`), when two
cursors are abreast, and which faults are left out (`exempt`). Its laws are
few and say what the primitive moves keep.

# What is proved

`Tandem.At w s least see p q` speaks of `p` at the left cursor `s` and of `q`
at any right one abreast of it. In every case, whatever is known of the other
side, the left run stays on its track and does not go back; a success with
`a` passes at least `least a` tokens, and a fault is one of the tokens from
here on and suits them. If moreover the tokens are known to be alike up to
where the left run ends, the right run ends in the same way: abreast, with a
value of which `see` shows the same, or with the fault that looks the same.

The two halves are carried together because each needs the other. A loop
bounded by the tokens left stays in step because its rounds take tokens,
and how near the end of a run is follows from where its parts have ended.

# The induction

A production is compared along its text, with `bind` and its forms `andThen`
and `lead`. What is nested comes in as a hypothesis from the next token on
(`Tandem.From`), since a production takes a token of its own first. Loops are
compared by `Tandem.From.loop`: two bounds that suffice for the tokens of
their sides do not show, and equal bounds need not suffice.
-/
import SqlSelect.Proofs.Tandem.Alike

namespace SqlSelect.Grammar

-- ============================================================= tracks

section Tracks

variable {σ μ π ε : Type} [Cursor σ μ π ε]

/-- The cursor behind a broken rule, which it has reported unless this is an
attempt. -/
def refused (rule : Rule) (first last : μ) (s : σ) : σ :=
  if Cursor.trial s then s else Cursor.report (.rejected rule (Cursor.between s first last)) s

/-- The tokens at fault suit the cause: a single token of the kind that is
named, the end of the input, or a stretch that starts before it. -/
def Suits (kinds : List Kind) (cause : Cause) (first last : Nat) : Prop :=
  match cause with
  | .lexical _ => False
  | .unexpected _ found | .trailing found =>
    found ≠ .eof ∧ first = last ∧ kinds.getD last .eof = found
  | .unexpectedEof _ => first = last ∧ kinds.getD last .eof = .eof
  | .invalid _ => first ≤ last ∧ (kinds.getD first .eof ≠ .eof ∨ first + 1 < kinds.length)

/-- Causes that suit the same tokens and look the same are the same. -/
theorem Suits.cause_eq {ks ls : List Kind} {cause cause' : Cause} {i j : Nat}
    {see : String → String} (left : Suits ks cause i j) (right : Suits ls cause' i j)
    (same : ks.getD j .eof = ls.getD j .eof) (seen : cause.seen see = cause'.seen see) :
    cause = cause' := by
  cases cause with
  | lexical => exact left.elim
  | unexpected expected found =>
      cases cause' with
      | unexpected expected' found' =>
          obtain ⟨rfl, -⟩ := Cause.unexpected.inj seen
          rw [← left.2.2, same, right.2.2]
      | _ => nomatch seen
  | trailing found =>
      cases cause' with
      | trailing found' => rw [← left.2.2, same, right.2.2]
      | _ => nomatch seen
  | unexpectedEof expected => cases cause' <;> first | exact seen | nomatch seen
  | invalid rule => cases cause' <;> first | exact seen | nomatch seen

theorem Suits.ordered {kinds : List Kind} {cause : Cause} {first last : Nat}
    (h : Suits kinds cause first last) : first ≤ last := by
  cases cause with
  | lexical => exact h.elim
  | unexpected => exact Nat.le_of_eq h.2.1
  | trailing => exact Nat.le_of_eq h.2.1
  | unexpectedEof => exact Nat.le_of_eq h.1
  | invalid => exact h.1

variable (σ) in
/-- The tokens that a cursor stands in, how it marks them, and how it names
what is wrong with them. -/
structure Track where
  kinds : List Kind
  mark : Nat → μ
  fault : Cause → Nat → Nat → ε
  /-- The cursor is one in these tokens. -/
  stands : σ → Prop
  index_lt : ∀ {s}, stands s → Cursor.index s < kinds.length
  kindAt : ∀ {s}, stands s → ∀ ahead,
    Cursor.kindAt s ahead = kinds.getD (Cursor.index s + ahead) .eof
  upcoming : ∀ {s}, stands s → Cursor.upcoming s = kinds.drop (Cursor.index s)
  left : ∀ {s}, stands s → Cursor.left s = kinds.length - Cursor.index s
  markAt : ∀ {s}, stands s → ∀ ahead, Cursor.markAt s ahead = mark (Cursor.index s + ahead)
  previous : ∀ {s}, stands s → 0 < Cursor.index s →
    Cursor.previous s = mark (Cursor.index s - 1)
  faulted : ∀ {s}, stands s → ∀ cause i j,
    Cursor.fault s cause (Cursor.between s (mark i) (mark j)) = fault cause i j
  step : ∀ {s}, stands s → Cursor.kindAt s 0 ≠ .eof →
    stands (Cursor.step s) ∧ Cursor.index (Cursor.step s) = Cursor.index s + 1
  report : ∀ {s}, stands s → ∀ event,
    stands (Cursor.report event s) ∧ Cursor.index (Cursor.report event s) = Cursor.index s
  setTrial : ∀ {s}, stands s → ∀ trial,
    stands (Cursor.setTrial trial s) ∧ Cursor.index (Cursor.setTrial trial s) = Cursor.index s
  back : ∀ {s u}, stands s → stands u →
    stands (Cursor.back s u) ∧ Cursor.index (Cursor.back s u) = Cursor.index s

namespace Track

variable {k : Track σ} {s : σ} {cause : Cause} {i j : Nat}

theorem current (hs : k.stands s) : Cursor.kindAt s 0 = k.kinds.getD (Cursor.index s) .eof :=
  k.kindAt hs 0

/-- A token that is seen to be no end is one of the tokens. -/
theorem lt_length (hs : k.stands s) {ahead : Nat} (inner : Cursor.kindAt s ahead ≠ .eof) :
    Cursor.index s + ahead < k.kinds.length := by
  rcases Nat.lt_or_ge (Cursor.index s + ahead) k.kinds.length with within | beyond
  · exact within
  · refine absurd ?_ inner
    rw [k.kindAt hs, List.getD_eq_getElem?_getD, List.getElem?_eq_none beyond]
    rfl

/-- What comes after a token was behind it. -/
theorem kindAt_step (hs : k.stands s) (inner : Cursor.kindAt s 0 ≠ .eof) (ahead : Nat) :
    Cursor.kindAt (Cursor.step s) ahead = Cursor.kindAt s (ahead + 1) := by
  obtain ⟨stands, next⟩ := k.step hs inner
  rw [k.kindAt stands, k.kindAt hs, next, Nat.add_right_comm, Nat.add_assoc]

theorem refused (hs : k.stands s) (rule : Rule) (first last : μ) :
    k.stands (refused rule first last s)
      ∧ Cursor.index (Grammar.refused rule first last s) = Cursor.index s := by
  unfold Grammar.refused
  split
  next => exact ⟨hs, rfl⟩
  next => exact k.report hs _

theorem failHere_apply {α : Type} (hs : k.stands s) (cause : Kind → Cause) :
    (failHere cause : ParserOf σ ε α) s
      = .error (k.fault (cause (Cursor.kindAt s 0)) (Cursor.index s) (Cursor.index s)) s := by
  rw [← k.faulted hs, ← Nat.add_zero (Cursor.index s), ← k.markAt hs]
  rfl

theorem reject_apply {α : Type} (hs : k.stands s) (rule : Rule) (i j : Nat) :
    (reject rule (k.mark i) (k.mark j) : ParserOf σ ε α) s
      = .error (k.fault (.invalid rule) i j) (Grammar.refused rule (k.mark i) (k.mark j) s) := by
  rw [← k.faulted hs]
  rfl

/-- The fault is one of tokens that end at the cursor or behind it, and they
suit its cause. -/
inductive Blames (k : Track σ) (s : σ) : ε → Prop
  | intro {cause : Cause} {i j : Nat} (reached : Cursor.index s ≤ j) (within : j < k.kinds.length)
    (suits : Suits k.kinds cause i j) : Blames k s (k.fault cause i j)

theorem Blames.before {s' : σ} {e : ε} (h : k.Blames s' e)
    (le : Cursor.index s ≤ Cursor.index s') : k.Blames s e := by
  obtain ⟨reached, within, suits⟩ := h
  exact ⟨Nat.le_trans le reached, within, suits⟩

/-- A token before the current one is no end, nor is the current one if it is
seen to be none. So either starts a stretch that can break a rule. -/
theorem suits_rule (hs : k.stands s) (rule : Rule) (le : i ≤ Cursor.index s)
    (inner : i < Cursor.index s ∨ Cursor.kindAt s 0 ≠ .eof) :
    Suits k.kinds (.invalid rule) i (Cursor.index s) := by
  have within := k.index_lt hs
  refine ⟨le, ?_⟩
  rcases inner with before | inner
  · exact Or.inr (by omega)
  · rcases Nat.lt_or_eq_of_le le with before | rfl
    · exact Or.inr (by omega)
    · rw [k.current hs] at inner
      exact Or.inl inner

theorem suits_found (hs : k.stands s) (expected : String) :
    Suits k.kinds (Cause.ofFound expected (Cursor.kindAt s 0)) (Cursor.index s)
      (Cursor.index s) := by
  have here := (k.current hs).symm
  unfold Suits Cause.ofFound
  cases found : Cursor.kindAt s 0 <;> rw [found] at here
  case eof => exact ⟨rfl, here⟩
  all_goals exact ⟨nofun, rfl, here⟩

theorem suits_trailing (hs : k.stands s) (inner : Cursor.kindAt s 0 ≠ .eof) :
    Suits k.kinds (.trailing (Cursor.kindAt s 0)) (Cursor.index s) (Cursor.index s) :=
  ⟨inner, rfl, (k.current hs).symm⟩

end Track

end Tracks

-- ============================================================ tandems

variable {σ μ π ε τ μ' π' ε' : Type} [Cursor σ μ π ε] [Cursor τ μ' π' ε']

variable (σ τ) in
/-- Two cursors in two lists of tokens, and what they have in common. -/
structure Tandem where
  left : Track σ
  right : Track τ
  /-- What is seen of a name. -/
  view : View
  /-- The tokens are alike up to two behind the one at the index. -/
  near : Nat → Prop
  /-- The tokens are alike up to two behind those of the fault. -/
  within : ε → Prop
  /-- The faults of the left cursor that the right one need not have. -/
  exempt : ε → Prop
  /-- The cursors stand at the same token. -/
  abreast : σ → τ → Prop
  near_mono : ∀ {i j}, i ≤ j → near j → near i
  near_of_within : ∀ {cause i j}, within (left.fault cause i j) → near j
  alike : ∀ {i}, near i → ∀ {j}, j ≤ i + 2 →
    (left.kinds.getD j .eof).Alike view (right.kinds.getD j .eof)
  right_stands : ∀ {s t}, abreast s t → right.stands t
  index_eq : ∀ {s t}, abreast s t → Cursor.index t = Cursor.index s
  step : ∀ {s t}, left.stands s → abreast s t → near (Cursor.index s) →
    Cursor.kindAt s 0 ≠ .eof → abreast (Cursor.step s) (Cursor.step t)
  refused : ∀ {s t}, left.stands s → abreast s t → ∀ rule i j,
    abreast (refused rule (left.mark i) (left.mark j) s)
      (refused rule (right.mark i) (right.mark j) t)

namespace Tandem

variable {w : Tandem σ τ} {s : σ} {t : τ}

theorem kindAt (hs : w.left.stands s) (h : w.abreast s t) {i ahead : Nat}
    (near : w.near (Cursor.index s + i)) (le : ahead ≤ i + 2) :
    (Cursor.kindAt s ahead).Alike w.view (Cursor.kindAt t ahead) := by
  rw [w.left.kindAt hs, w.right.kindAt (w.right_stands h), w.index_eq h]
  exact w.alike near (by omega)

/-- The current token is no end on either side. -/
theorem inner (hs : w.left.stands s) (h : w.abreast s t) (near : w.near (Cursor.index s))
    (inner : Cursor.kindAt s 0 ≠ .eof) : Cursor.kindAt t 0 ≠ .eof :=
  fun eof => inner ((w.kindAt (i := 0) hs h near (Nat.zero_le _)).eof.2 eof)

/-- What starts a stretch that can break a rule on the left does so on the
right. -/
theorem suits_rule (hs : w.left.stands s) (h : w.abreast s t) (near : w.near (Cursor.index s))
    (rule : Rule) {i : Nat} (le : i ≤ Cursor.index s)
    (inner : i < Cursor.index s ∨ Cursor.kindAt s 0 ≠ .eof) :
    Suits w.right.kinds (.invalid rule) i (Cursor.index s) := by
  have there := w.index_eq h
  rw [← there] at le ⊢
  refine w.right.suits_rule (w.right_stands h) rule le (inner.imp (there ▸ ·) fun inner => ?_)
  exact w.inner hs h near inner

/-- The two faults are of the same tokens, which suit them, and their causes
look the same. -/
inductive Faults (w : Tandem σ τ) : ε → ε' → Prop
  | intro {cause cause' : Cause} {i j : Nat}
    (same : cause.seen w.view.see = cause'.seen w.view.see)
    (left : Suits w.left.kinds cause i j) (right : Suits w.right.kinds cause' i j)
    (inside : j < w.left.kinds.length) :
    Faults w (w.left.fault cause i j) (w.right.fault cause' i j)

theorem near_of_blames {e : ε} (within : w.within e) (h : w.left.Blames s e) :
    w.near (Cursor.index s) := by
  obtain ⟨reached, -, -⟩ := h
  exact w.near_mono reached (w.near_of_within within)

variable {α β γ δ : Type}

/-- What `p` does at `s`, `q` does at any cursor abreast of it, if the tokens
are alike up to two behind where `p` stops. -/
structure At (w : Tandem σ τ) (s : σ) (least : α → Nat) (see : α → γ) (p : ParserOf σ ε α)
    (q : ParserOf τ ε' α) : Prop where
  ok : ∀ ⦃a s'⦄, p s = .ok a s' → w.left.stands s'
    ∧ Cursor.index s + least a ≤ Cursor.index s'
    ∧ (w.near (Cursor.index s') → ∀ t, w.abreast s t →
      ∃ b t', q t = .ok b t' ∧ see a = see b ∧ w.abreast s' t')
  error : ∀ ⦃e s'⦄, p s = .error e s' → w.left.stands s'
    ∧ Cursor.index s ≤ Cursor.index s' ∧ w.left.Blames s e
    ∧ (w.within e → ∀ t, w.abreast s t →
      (∃ f t', q t = .error f t' ∧ w.Faults e f ∧ w.abreast s' t') ∨ w.exempt e)

/-- The same holds wherever the left cursor has reached `start`. -/
def From (w : Tandem σ τ) (start : Nat) (least : α → Nat) (see : α → γ) (p : ParserOf σ ε α)
    (q : ParserOf τ ε' α) : Prop :=
  ∀ s, w.left.stands s → start ≤ Cursor.index s → w.At s least see p q

end Tandem

/-- Nothing need be taken. -/
abbrev none? {α : Type} : α → Nat := fun _ => 0

/-- At least one token is taken. -/
abbrev one {α : Type} : α → Nat := fun _ => 1

namespace Tandem.At

variable {α β γ δ : Type} {w : Tandem σ τ} {s : σ} {least : α → Nat} {see : α → γ}
  {p : ParserOf σ ε α} {q : ParserOf τ ε' α}

theorem ease {fewer : α → Nat} (h : w.At s least see p q) (le : ∀ a, fewer a ≤ least a) :
    w.At s fewer see p q := by
  refine ⟨fun a s' hp => ?_, h.error⟩
  obtain ⟨stands, moved, follows⟩ := h.ok hp
  exact ⟨stands, Nat.le_trans (Nat.add_le_add_left (le a) _) moved, follows⟩

/-- Nothing is lost by seeing less. -/
theorem blur {see' : α → δ} (h : w.At s least see p q)
    (le : ∀ a b, see a = see b → see' a = see' b) : w.At s least see' p q := by
  refine ⟨fun a s' hp => ?_, h.error⟩
  obtain ⟨stands, moved, follows⟩ := h.ok hp
  refine ⟨stands, moved, fun near t abreast => ?_⟩
  obtain ⟨b, t', hq, same, abreast'⟩ := follows near t abreast
  exact ⟨b, t', hq, le a b same, abreast'⟩

/-- Only what the parsers do at the two cursors is compared. -/
theorem congr {p' : ParserOf σ ε α} {q' : ParserOf τ ε' α} (h : w.At s least see p q)
    (left : p' s = p s) (right : ∀ {t}, w.abreast s t → q' t = q t) : w.At s least see p' q' := by
  refine ⟨fun a s' hp => ?_, fun e s' hp => ?_⟩
  · rw [left] at hp
    obtain ⟨stands, moved, follows⟩ := h.ok hp
    refine ⟨stands, moved, fun near t abreast => ?_⟩
    rw [right abreast]
    exact follows near t abreast
  · rw [left] at hp
    obtain ⟨stands, onward, blames, follows⟩ := h.error hp
    refine ⟨stands, onward, blames, fun within t abreast => ?_⟩
    rw [right abreast]
    exact follows within t abreast

protected theorem pure (hs : w.left.stands s) {a b : α} (same : see a = see b)
    (zero : least a = 0) : w.At s least see (pure a) (pure b) := by
  refine ⟨fun c s' h => ?_, fun e s' h => nomatch h⟩
  obtain ⟨rfl, rfl⟩ := pure_ok.1 h
  exact ⟨hs, by rw [zero]; exact Nat.le_refl _, fun _ t abreast => ⟨b, t, rfl, same, abreast⟩⟩

theorem done (hs : w.left.stands s) (a : α) (zero : least a = 0) :
    w.At s least see (pure a) (pure a) := .pure hs rfl zero

-- ------------------------------------------------------------- failing

/-- Both fail alike. -/
theorem fail {cause : Cause} {i j : Nat} {s' : σ} (left : p s = .error (w.left.fault cause i j) s')
    (stands : w.left.stands s') (onward : Cursor.index s ≤ Cursor.index s')
    (reached : Cursor.index s ≤ j) (inside : j < w.left.kinds.length)
    (suits : Suits w.left.kinds cause i j)
    (right : w.near j → ∀ t, w.abreast s t → ∃ cause' t',
      q t = .error (w.right.fault cause' i j) t'
        ∧ cause.seen w.view.see = cause'.seen w.view.see ∧ Suits w.right.kinds cause' i j
        ∧ w.abreast s' t') :
    w.At s least see p q := by
  refine ⟨fun a u h => ?_, fun e u h => ?_⟩
  · rw [left] at h
    cases h
  · rw [left] at h
    cases h
    refine ⟨stands, onward, ⟨reached, inside, suits⟩, fun within t abreast => Or.inl ?_⟩
    obtain ⟨cause', t', hq, same, suits', abreast'⟩ := right (w.near_of_within within) t abreast
    exact ⟨_, t', hq, ⟨same, suits, suits', inside⟩, abreast'⟩

/-- A failure at the current token, if what is said of alike tokens looks the
same. -/
theorem failHere (hs : w.left.stands s) (cause : Kind → Cause)
    (suits : Suits w.left.kinds (cause (Cursor.kindAt s 0)) (Cursor.index s) (Cursor.index s))
    (suits' : w.near (Cursor.index s) → ∀ t, w.abreast s t →
      Suits w.right.kinds (cause (Cursor.kindAt t 0)) (Cursor.index t) (Cursor.index t))
    (blind : ∀ k l, k.Alike w.view l →
      (cause k).seen w.view.see = (cause l).seen w.view.see) :
    w.At s least see (failHere cause) (failHere cause) := by
  refine .fail (w.left.failHere_apply hs cause) hs (Nat.le_refl _) (Nat.le_refl _)
    (w.left.index_lt hs) suits fun near t abreast => ?_
  have right : (Grammar.failHere cause : ParserOf τ ε' α) t = _ :=
    w.right.failHere_apply (w.right_stands abreast) cause
  have alike := w.kindAt (i := 0) hs abreast near (Nat.zero_le _)
  have there := suits' near t abreast
  rw [w.index_eq abreast] at right there
  exact ⟨_, t, right, blind _ _ alike, there, abreast⟩

protected theorem unexpected (hs : w.left.stands s) (expected : String) :
    w.At s least see (unexpected expected) (unexpected expected) :=
  .failHere hs _ (w.left.suits_found hs expected)
    (fun _ _ abreast => w.right.suits_found (w.right_stands abreast) expected)
    fun _ _ alike => alike.ofFound expected

theorem trailing (hs : w.left.stands s) (inner : Cursor.kindAt s 0 ≠ .eof) :
    w.At s least see (Grammar.failHere .trailing) (Grammar.failHere .trailing) := by
  refine .failHere hs _ (w.left.suits_trailing hs inner) (fun near t abreast => ?_)
    fun k l alike => ?_
  · exact w.right.suits_trailing (w.right_stands abreast) (w.inner hs abreast near inner)
  · rw [Cause.seen, Cause.seen, alike.seen]

/-- A rule that is broken by tokens up to one that is not passed yet. -/
theorem rejectUpTo (hs : w.left.stands s) (rule : Rule) {i j : Nat}
    (reached : Cursor.index s ≤ j) (inside : j < w.left.kinds.length)
    (suits : Suits w.left.kinds (.invalid rule) i j)
    (suits' : w.near j → ∀ t, w.abreast s t → Suits w.right.kinds (.invalid rule) i j) :
    w.At s least see (reject rule (w.left.mark i) (w.left.mark j))
      (reject rule (w.right.mark i) (w.right.mark j)) := by
  obtain ⟨stands, same⟩ := w.left.refused hs rule (w.left.mark i) (w.left.mark j)
  refine .fail (w.left.reject_apply hs rule i j) stands (Nat.le_of_eq same.symm) reached inside
    suits fun near t abreast => ?_
  exact ⟨_, _, w.right.reject_apply (w.right_stands abreast) rule i j, rfl, suits' near t abreast,
    w.refused hs abreast rule i j⟩

/-- A rule that is broken by the tokens up to the current one. -/
protected theorem reject (hs : w.left.stands s) (rule : Rule) {i : Nat} (le : i ≤ Cursor.index s)
    (inner : i < Cursor.index s ∨ Cursor.kindAt s 0 ≠ .eof) :
    w.At s least see (reject rule (w.left.mark i) (w.left.mark (Cursor.index s)))
      (reject rule (w.right.mark i) (w.right.mark (Cursor.index s))) :=
  .rejectUpTo hs rule (Nat.le_refl _) (w.left.index_lt hs) (w.left.suits_rule hs rule le inner)
    fun near _ abreast => w.suits_rule hs abreast near rule le inner

/-- One that is broken by the current token and the one behind it. -/
theorem rejectPair (hs : w.left.stands s) (rule : Rule) (inner : Cursor.kindAt s 0 ≠ .eof)
    (second : Cursor.kindAt s 1 ≠ .eof) :
    w.At s least see
      (Grammar.reject rule (w.left.mark (Cursor.index s)) (w.left.mark (Cursor.index s + 1)))
      (Grammar.reject rule (w.right.mark (Cursor.index s))
        (w.right.mark (Cursor.index s + 1))) := by
  refine .rejectUpTo hs rule (Nat.le_succ _) (w.left.lt_length hs second)
    ⟨Nat.le_succ _, Or.inl ?_⟩ fun near t abreast => ⟨Nat.le_succ _, Or.inl ?_⟩
  · rwa [← w.left.current hs]
  · rw [← w.index_eq abreast, ← w.right.current (w.right_stands abreast)]
    exact w.inner hs abreast (w.near_mono (Nat.le_succ _) near) inner

-- ---------------------------------------------------------- sequencing

/-- A sequence whose first part takes `least` tokens and whose second part
takes `m`. What the first part does on the left may be used. -/
theorem bindOf {m : α → β → Nat} {both : β → Nat} {see' : β → δ} {f : α → ParserOf σ ε β}
    {g : α → ParserOf τ ε' β} (first : w.At s least see p q)
    (later : ∀ a b s', p s = .ok a s' → see a = see b → w.left.stands s' →
      Cursor.index s + least a ≤ Cursor.index s' → w.At s' (m a) see' (f a) (g b))
    (enough : ∀ a c, both c ≤ least a + m a c) :
    w.At s both see' (p >>= f) (q >>= g) := by
  refine ⟨fun c s' h => ?_, fun e s' h => ?_⟩
  · obtain ⟨a, u, hp, hf⟩ := bind_ok.1 h
    obtain ⟨stands, moved, follows⟩ := first.ok hp
    obtain ⟨stands', moved', -⟩ := (later a a u hp rfl stands moved).ok hf
    have := enough a c
    refine ⟨stands', by omega, fun near t abreast => ?_⟩
    obtain ⟨b, v, hq, same, abreast'⟩ := follows (w.near_mono (by omega) near) t abreast
    obtain ⟨-, -, follows'⟩ := (later a b u hp same stands moved).ok hf
    obtain ⟨d, t', hg, same', abreast''⟩ := follows' near v abreast'
    exact ⟨d, t', bind_ok.2 ⟨b, v, hq, hg⟩, same', abreast''⟩
  · rcases bind_error h with hp | ⟨a, u, hp, hf⟩
    · obtain ⟨stands, onward, blames, follows⟩ := first.error hp
      refine ⟨stands, onward, blames, fun within t abreast => ?_⟩
      refine (follows within t abreast).imp_left fun ⟨f, t', hq, same, abreast'⟩ => ?_
      exact ⟨f, t', by rw [bind_apply, hq], same, abreast'⟩
    · obtain ⟨stands, moved, follows⟩ := first.ok hp
      have onward : Cursor.index s ≤ Cursor.index u := Nat.le_trans (Nat.le_add_right _ _) moved
      obtain ⟨stands', onward', blames, -⟩ := (later a a u hp rfl stands moved).error hf
      refine ⟨stands', Nat.le_trans onward onward', blames.before onward,
        fun within t abreast => ?_⟩
      -- the fault lies behind where the first part ends, so that this is near too
      obtain ⟨b, v, hq, same, abreast'⟩ := follows (w.near_of_blames within blames) t abreast
      obtain ⟨-, -, -, follows'⟩ := (later a b u hp same stands moved).error hf
      refine (follows' within v abreast').imp_left fun ⟨f, t', hg, same', abreast''⟩ => ?_
      exact ⟨f, t', by rw [bind_apply, hq]; exact hg, same', abreast''⟩

theorem bind {m : α → β → Nat} {both : β → Nat} {see' : β → δ} {f : α → ParserOf σ ε β}
    {g : α → ParserOf τ ε' β} (first : w.At s least see p q)
    (later : ∀ a b s', see a = see b → w.left.stands s' →
      Cursor.index s + least a ≤ Cursor.index s' → w.At s' (m a) see' (f a) (g b))
    (enough : ∀ a c, both c ≤ least a + m a c) :
    w.At s both see' (p >>= f) (q >>= g) :=
  first.bindOf (fun a b s' _ => later a b s') enough

/-- A sequence whose first part may take nothing. -/
theorem andThen {more : β → Nat} {see' : β → δ} {f : α → ParserOf σ ε β} {g : α → ParserOf τ ε' β}
    (first : w.At s least see p q)
    (later : ∀ a b s', see a = see b → w.left.stands s' →
      Cursor.index s + least a ≤ Cursor.index s' → w.At s' more see' (f a) (g b)) :
    w.At s more see' (p >>= f) (q >>= g) :=
  bind (m := fun _ => more) first later fun _ _ => Nat.le_add_left _ _

/-- A sequence whose first part takes a token. -/
theorem lead {see' : β → δ} {f : α → ParserOf σ ε β} {g : α → ParserOf τ ε' β}
    (first : w.At s one see p q)
    (later : ∀ a b s', see a = see b → w.left.stands s' →
      Cursor.index s < Cursor.index s' → w.At s' none? see' (f a) (g b)) :
    w.At s one see' (p >>= f) (q >>= g) :=
  bind (m := fun _ => none?) first later fun _ _ => Nat.le_refl _

/-- A sequence whose first part yields the same value on both sides. -/
theorem bindSame {m : α → β → Nat} {both : β → Nat} {see' : β → δ} {f : α → ParserOf σ ε β}
    {g : α → ParserOf τ ε' β} (first : w.At s least id p q)
    (later : ∀ a s', w.left.stands s' → Cursor.index s + least a ≤ Cursor.index s' →
      w.At s' (m a) see' (f a) (g a))
    (enough : ∀ a c, both c ≤ least a + m a c) :
    w.At s both see' (p >>= f) (q >>= g) := by
  refine first.bind (fun a b s' same stands moved => ?_) enough
  obtain rfl : a = b := same
  exact later a s' stands moved

/-- One whose first part may take nothing. -/
theorem share {more : β → Nat} {see' : β → δ} {f : α → ParserOf σ ε β} {g : α → ParserOf τ ε' β}
    (first : w.At s least id p q)
    (later : ∀ a s', w.left.stands s' → Cursor.index s + least a ≤ Cursor.index s' →
      w.At s' more see' (f a) (g a)) :
    w.At s more see' (p >>= f) (q >>= g) :=
  bindSame (m := fun _ => more) first later fun _ _ => Nat.le_add_left _ _

/-- What a parser yields can be put into another form. -/
theorem map {see' : β → δ} {least' : β → Nat} {f g : α → β} (h : w.At s least see p q)
    (same : ∀ a b, see a = see b → see' (f a) = see' (g b))
    (enough : ∀ a, least' (f a) ≤ least a) :
    w.At s least' see' (p >>= fun a => pure (f a)) (q >>= fun a => pure (g a)) := by
  refine ⟨fun c s' hc => ?_, fun e s' he => ?_⟩
  · obtain ⟨a, u, hp, hf⟩ := bind_ok.1 hc
    obtain ⟨rfl, rfl⟩ := pure_ok.1 hf
    obtain ⟨stands, moved, follows⟩ := h.ok hp
    refine ⟨stands, Nat.le_trans (Nat.add_le_add_left (enough a) _) moved, fun near t abreast => ?_⟩
    obtain ⟨b, t', hq, seen, abreast'⟩ := follows near t abreast
    exact ⟨g b, t', bind_ok.2 ⟨b, t', hq, rfl⟩, same a b seen, abreast'⟩
  · rcases bind_error he with hp | ⟨a, u, -, hf⟩
    · obtain ⟨stands, onward, blames, follows⟩ := h.error hp
      refine ⟨stands, onward, blames, fun within t abreast => ?_⟩
      refine (follows within t abreast).imp_left fun ⟨f', t', hq, seen, abreast'⟩ => ?_
      exact ⟨f', t', by rw [bind_apply, hq], seen, abreast'⟩
    · cases hf

-- ------------------------------------------------------------- looking

/-- A look at a token of which something is known on both sides. -/
theorem look {f : Kind → ParserOf σ ε α} {g : Kind → ParserOf τ ε' α} {R : Kind → Kind → Prop}
    {ahead : Nat} (itself : R (Cursor.kindAt s ahead) (Cursor.kindAt s ahead))
    (sight : w.near (Cursor.index s) → ∀ t, w.abreast s t →
      R (Cursor.kindAt s ahead) (Cursor.kindAt t ahead))
    (later : ∀ k l, Cursor.kindAt s ahead = k → R k l → w.At s least see (f k) (g l)) :
    w.At s least see (peek ahead >>= f) (peek ahead >>= g) := by
  have left := later _ _ rfl itself
  refine ⟨fun a s' h => ?_, fun e s' h => ?_⟩
  · obtain ⟨stands, moved, -⟩ := left.ok h
    refine ⟨stands, moved, fun near t abreast => ?_⟩
    have here := w.near_mono (Nat.le_trans (Nat.le_add_right _ _) moved) near
    obtain ⟨-, -, follows⟩ := (later _ _ rfl (sight here t abreast)).ok h
    exact follows near t abreast
  · obtain ⟨stands, onward, blames, -⟩ := left.error h
    refine ⟨stands, onward, blames, fun within t abreast => ?_⟩
    have here := w.near_of_blames within blames
    obtain ⟨-, -, -, follows⟩ := (later _ _ rfl (sight here t abreast)).error h
    exact follows within t abreast

/-- A look at the current token or at one of the two behind it. -/
protected theorem peek {f : Kind → ParserOf σ ε α} {g : Kind → ParserOf τ ε' α}
    (hs : w.left.stands s) {ahead : Nat} (near : ahead ≤ 2)
    (later : ∀ k l, Cursor.kindAt s ahead = k → k.Alike w.view l →
      w.At s least see (f k) (g l)) :
    w.At s least see (peek ahead >>= f) (peek ahead >>= g) :=
  .look (.same _) (fun here _ abreast => w.kindAt (i := 0) hs abreast here near) later

protected theorem current {f : Kind → ParserOf σ ε α} {g : Kind → ParserOf τ ε' α}
    (hs : w.left.stands s)
    (later : ∀ k l, Cursor.kindAt s 0 = k → k.Alike w.view l → w.At s least see (f k) (g l)) :
    w.At s least see (current >>= f) (current >>= g) :=
  .peek hs (Nat.zero_le 2) later

protected theorem atSymbol {f : Bool → ParserOf σ ε α} {g : Bool → ParserOf τ ε' α}
    (hs : w.left.stands s) (symbol : Symbol)
    (later : ∀ found, (found = true → Cursor.kindAt s 0 = .symbol symbol) →
      w.At s least see (f found) (g found)) :
    w.At s least see (atSymbol symbol >>= f) (atSymbol symbol >>= g) := by
  unfold Grammar.atSymbol
  rw [bind_assoc, bind_assoc]
  refine .current hs fun k l here alike => ?_
  have same : (k == .symbol symbol) = (l == .symbol symbol) := by
    rw [Bool.eq_iff_iff, beq_iff_eq, beq_iff_eq]
    exact alike.symbol symbol
  rw [pure_bind, pure_bind, ← same]
  exact later _ fun found => here.trans (eq_of_beq found)

protected theorem atKeyword {f : Bool → ParserOf σ ε α} {g : Bool → ParserOf τ ε' α}
    (hs : w.left.stands s) (keyword : Keyword)
    (later : ∀ found, w.At s least see (f found) (g found)) :
    w.At s least see (atKeyword keyword >>= f) (atKeyword keyword >>= g) := by
  unfold Grammar.atKeyword
  rw [bind_assoc, bind_assoc]
  refine .current hs fun k l _ alike => ?_
  rw [pure_bind, pure_bind, alike.keyword?]
  exact later _

protected theorem positionAt {f : μ → ParserOf σ ε α} {g : μ' → ParserOf τ ε' α}
    (hs : w.left.stands s) (ahead : Nat)
    (later : w.At s least see (f (w.left.mark (Cursor.index s + ahead)))
      (g (w.right.mark (Cursor.index s + ahead)))) :
    w.At s least see (positionAt ahead >>= f) (positionAt ahead >>= g) := by
  have left : (positionAt ahead >>= f) s = f (w.left.mark (Cursor.index s + ahead)) s := by
    rw [← w.left.markAt hs]
    rfl
  have right {t : τ} (abreast : w.abreast s t) :
      (positionAt ahead >>= g) t = g (w.right.mark (Cursor.index s + ahead)) t := by
    rw [← w.index_eq abreast, ← w.right.markAt (w.right_stands abreast)]
    rfl
  exact later.congr left right

protected theorem position {f : μ → ParserOf σ ε α} {g : μ' → ParserOf τ ε' α}
    (hs : w.left.stands s)
    (later : w.At s least see (f (w.left.mark (Cursor.index s)))
      (g (w.right.mark (Cursor.index s)))) :
    w.At s least see (position >>= f) (position >>= g) := .positionAt hs 0 later

/-- The mark of the token before the current one. -/
protected theorem previous {f : μ → ParserOf σ ε α} {g : μ' → ParserOf τ ε' α}
    (hs : w.left.stands s) (moved : 0 < Cursor.index s)
    (later : w.At s least see (f (w.left.mark (Cursor.index s - 1)))
      (g (w.right.mark (Cursor.index s - 1)))) :
    w.At s least see (previous >>= f) (previous >>= g) := by
  have left : (previous >>= f) s = f (w.left.mark (Cursor.index s - 1)) s := by
    rw [← w.left.previous hs moved]
    rfl
  have right {t : τ} (abreast : w.abreast s t) :
      (previous >>= g) t = g (w.right.mark (Cursor.index s - 1)) t := by
    have same := w.index_eq abreast
    rw [← same, ← w.right.previous (w.right_stands abreast) (same ▸ moved)]
    rfl
  exact later.congr left right

/-- Either number of tokens left is enough for the tokens of its side. -/
protected theorem tokensLeft {f : Nat → ParserOf σ ε α} {g : Nat → ParserOf τ ε' α}
    (hs : w.left.stands s)
    (later : ∀ n m, w.left.kinds.length ≤ n + Cursor.index s →
      w.right.kinds.length ≤ m + Cursor.index s → w.At s least see (f n) (g m)) :
    w.At s least see (tokensLeft >>= f) (tokensLeft >>= g) := by
  have enough : w.left.kinds.length ≤ Cursor.left s + Cursor.index s := by
    rw [w.left.left hs]
    omega
  have here (m : Nat) (right : w.right.kinds.length ≤ m + Cursor.index s) :=
    later (Cursor.left s) m enough right
  have plenty := here w.right.kinds.length (Nat.le_add_right _ _)
  have count {t : τ} (abreast : w.abreast s t) :
      w.right.kinds.length ≤ Cursor.left t + Cursor.index s := by
    rw [w.right.left (w.right_stands abreast), w.index_eq abreast]
    omega
  refine ⟨fun a s' h => ?_, fun e s' h => ?_⟩
  · obtain ⟨stands, moved, -⟩ := plenty.ok h
    refine ⟨stands, moved, fun near t abreast => ?_⟩
    obtain ⟨-, -, follows⟩ := (here _ (count abreast)).ok h
    exact follows near t abreast
  · obtain ⟨stands, onward, blames, -⟩ := plenty.error h
    refine ⟨stands, onward, blames, fun within t abreast => ?_⟩
    obtain ⟨-, -, -, follows⟩ := (here _ (count abreast)).error h
    exact follows within t abreast

-- -------------------------------------------------------------- moving

/-- The current token is passed, and then as many as what follows takes. -/
protected theorem advance {m : α → Nat} {f : Unit → ParserOf σ ε α} {g : Unit → ParserOf τ ε' α}
    (hs : w.left.stands s) (inner : Cursor.kindAt s 0 ≠ .eof)
    (later : ∀ s', s' = Cursor.step s → w.left.stands s' →
      Cursor.index s' = Cursor.index s + 1 → w.At s' m see (f ()) (g ()))
    (enough : ∀ a, least a ≤ m a + 1) :
    w.At s least see (advance >>= f) (advance >>= g) := by
  obtain ⟨stands, next⟩ := w.left.step hs inner
  have behind := later (Cursor.step s) rfl stands next
  refine ⟨fun a s' h => ?_, fun e s' h => ?_⟩
  · obtain ⟨stands', moved, follows⟩ := behind.ok h
    have := enough a
    refine ⟨stands', by omega, fun near t abreast => ?_⟩
    exact follows near _ (w.step hs abreast (w.near_mono (by omega) near) inner)
  · obtain ⟨stands', onward, blames, follows⟩ := behind.error h
    refine ⟨stands', by omega, blames.before (by omega), fun within t abreast => ?_⟩
    have near := w.near_of_blames within blames
    exact follows within _ (w.step hs abreast (w.near_mono (by omega) near) inner)

/-- A token that is passed and yields a value. -/
theorem take (hs : w.left.stands s) (inner : Cursor.kindAt s 0 ≠ .eof) {a b : α}
    (same : see a = see b) (le : least a ≤ 1) :
    w.At s least see (Grammar.advance >>= fun _ => pure a)
      (Grammar.advance >>= fun _ => pure b) := by
  obtain ⟨stands, next⟩ := w.left.step hs inner
  refine ⟨fun c s' h => ?_, fun e s' h => nomatch h⟩
  obtain ⟨_, u, hp, hf⟩ := bind_ok.1 h
  cases hp
  obtain ⟨rfl, rfl⟩ := pure_ok.1 hf
  refine ⟨stands, by omega, fun near t abreast => ?_⟩
  exact ⟨b, _, rfl, same, w.step hs abreast (w.near_mono (by omega) near) inner⟩

/-- A rule that is broken by tokens up to one that is just passed. -/
theorem rejectPassed (hs : w.left.stands s) (inner : Cursor.kindAt s 0 ≠ .eof) (rule : Rule)
    {i : Nat} (le : i ≤ Cursor.index s) :
    w.At s least see
      (Grammar.advance >>= fun _ =>
        Grammar.reject rule (w.left.mark i) (w.left.mark (Cursor.index s)))
      (Grammar.advance >>= fun _ =>
        Grammar.reject rule (w.right.mark i) (w.right.mark (Cursor.index s))) := by
  obtain ⟨stands, next⟩ := w.left.step hs inner
  obtain ⟨stands', same⟩ :=
    w.left.refused stands rule (w.left.mark i) (w.left.mark (Cursor.index s))
  refine .fail (w.left.reject_apply stands rule i _) stands' (by omega) (Nat.le_refl _)
    (w.left.index_lt hs) (w.left.suits_rule hs rule le (Or.inr inner)) fun near t abreast => ?_
  have abreast' := w.step hs abreast near inner
  exact ⟨_, _, w.right.reject_apply (w.right_stands abreast') rule i _, rfl,
    w.suits_rule hs abreast near rule le (Or.inr inner), w.refused stands abreast' rule i _⟩

/-- The same where the mark of that token is asked for behind it. -/
theorem rejectPrevious (hs : w.left.stands s) (inner : Cursor.kindAt s 0 ≠ .eof) (rule : Rule)
    {i : Nat} (le : i ≤ Cursor.index s) :
    w.At s least see
      (Grammar.advance >>= fun _ => Grammar.previous >>= Grammar.reject rule (w.left.mark i))
      (Grammar.advance >>= fun _ => Grammar.previous >>= Grammar.reject rule (w.right.mark i)) := by
  have place {σ μ π ε : Type} [Cursor σ μ π ε] (k : Track σ) {s : σ} (hs : k.stands s)
      (inner : Cursor.kindAt s 0 ≠ .eof) :
      (Grammar.advance >>= fun _ => Grammar.previous >>= Grammar.reject rule (k.mark i)
        : ParserOf σ ε α) s
      = .error (k.fault (.invalid rule) i (Cursor.index s))
        (Grammar.refused rule (k.mark i) (k.mark (Cursor.index s)) (Cursor.step s)) := by
    obtain ⟨stands, next⟩ := k.step hs inner
    have here : Cursor.previous (Cursor.step s) = k.mark (Cursor.index s) := by
      rw [k.previous stands (by omega), next, Nat.add_sub_cancel]
    rw [← k.reject_apply stands rule i, ← here]
    rfl
  obtain ⟨stands, next⟩ := w.left.step hs inner
  obtain ⟨stands', same⟩ :=
    w.left.refused stands rule (w.left.mark i) (w.left.mark (Cursor.index s))
  refine .fail (place w.left hs inner) stands' (by omega) (Nat.le_refl _)
    (w.left.index_lt hs) (w.left.suits_rule hs rule le (Or.inr inner)) fun near t abreast => ?_
  have right := place w.right (w.right_stands abreast) (w.inner hs abreast near inner)
  rw [w.index_eq abreast] at right
  exact ⟨_, _, right, rfl, w.suits_rule hs abreast near rule le (Or.inr inner),
    w.refused stands (w.step hs abreast near inner) rule i _⟩

/-- Tokens that are seen, none of them the end of the input, can be
passed. -/
protected theorem skip (hs : w.left.stands s) {count : Nat}
    (inner : ∀ i < count, Cursor.kindAt s i ≠ .eof) :
    w.At s (fun _ => count) id (skip count) (skip count) := by
  induction count generalizing s with
  | zero => exact .done hs () rfl
  | succ count ih =>
      have first := inner 0 (Nat.succ_pos count)
      refine .advance hs first (fun s' next hs' moved => ih hs' fun i hi => ?_)
        fun _ => Nat.le_refl _
      rw [next, w.left.kindAt_step hs first]
      exact inner (i + 1) (Nat.succ_lt_succ hi)

/-- A symbol that must be there. What follows is told its mark. -/
protected theorem expect {m : α → Nat} {f : μ → ParserOf σ ε α} {g : μ' → ParserOf τ ε' α}
    (hs : w.left.stands s) (symbol : Symbol)
    (later : ∀ s', w.left.stands s' → Cursor.index s' = Cursor.index s + 1 →
      w.At s' m see (f (w.left.mark (Cursor.index s))) (g (w.right.mark (Cursor.index s))))
    (enough : ∀ a, least a ≤ m a + 1) :
    w.At s least see (expect symbol >>= f) (expect symbol >>= g) := by
  rw [expect_bind_eq, expect_bind_eq]
  refine .position hs (.current hs fun k l found alike => ?_)
  simp only [← alike.symbol]
  split
  next here =>
    refine .advance (m := m) hs ?_ (fun s' _ hs' moved => later s' hs' moved) enough
    exact ne_eof_of_symbol (found.trans here)
  next => exact .unexpected hs _

/-- A symbol that must be there and ends what is read. -/
theorem close (hs : w.left.stands s) (symbol : Symbol) {a b : α} (same : see a = see b) :
    w.At s none? see (Grammar.expect symbol >>= fun _ => pure a)
      (Grammar.expect symbol >>= fun _ => pure b) :=
  .expect (m := none?) hs symbol (fun _ hs' _ => .pure hs' same rfl) fun _ => Nat.zero_le _

end Tandem.At

-- ============================================================== loops

namespace Tandem.From

variable {α β γ δ : Type} {w : Tandem σ τ} {start : Nat} {least : α → Nat} {see : α → γ}
  {p : ParserOf σ ε α} {q : ParserOf τ ε' α}

theorem mono (h : w.From start least see p q) {later : Nat} (le : start ≤ later) :
    w.From later least see p q :=
  fun s hs reached => h s hs (Nat.le_trans le reached)

theorem ease {fewer : α → Nat} (h : w.From start least see p q) (le : ∀ a, fewer a ≤ least a) :
    w.From start fewer see p q :=
  fun s hs reached => (h s hs reached).ease le

/-- What takes a token may take nothing. -/
theorem eased (h : w.From start one see p q) : w.From start none? see p q :=
  h.ease fun _ => Nat.zero_le 1

/-- Behind the last token of the left side there is nothing to compare. -/
theorem past (beyond : w.left.kinds.length ≤ start) : w.From start least see p q := by
  intro s hs reached
  have := w.left.index_lt hs
  omega

/-- Behind the end of the right side there is nothing to follow. -/
theorem spare (h : w.From start least see p q) (past : w.right.kinds.length ≤ start)
    (q' : ParserOf τ ε' α) : w.From start least see p q' := by
  intro s hs reached
  have never {t : τ} (abreast : w.abreast s t) : False := by
    have := w.right.index_lt (w.right_stands abreast)
    rw [w.index_eq abreast] at this
    omega
  refine ⟨fun a s' hp => ?_, fun e s' hp => ?_⟩
  · obtain ⟨stands, moved, -⟩ := (h s hs reached).ok hp
    exact ⟨stands, moved, fun _ t abreast => (never abreast).elim⟩
  · obtain ⟨stands, onward, blames, -⟩ := (h s hs reached).error hp
    exact ⟨stands, onward, blames, fun _ t abreast => (never abreast).elim⟩

end Tandem.From

/-- Two loops can be compared from `start` on: their bounds are the same and
what they answer with no round left is comparable, or either bound suffices
for the tokens of its side. -/
def Tandem.Bounds (w : Tandem σ τ) (start n m : Nat) (answers : Prop) : Prop :=
  (n = m ∧ answers) ∨ w.left.kinds.length ≤ n + start ∧ w.right.kinds.length ≤ m + start

namespace Tandem.From

variable {α β γ δ ι κ : Type} {w : Tandem σ τ} {start n m : Nat} {least : α → Nat} {see : α → γ}

/-- A loop is compared round by round if each takes a token before the
next. -/
theorem loop {answers : Prop} (key : ι → κ) {p : Nat → ι → ParserOf σ ε α}
    {q : Nat → ι → ParserOf τ ε' α}
    (spent : answers → ∀ c d, key c = key d → w.From start least see (p 0 c) (q 0 d))
    (round : ∀ n m later, start ≤ later → w.Bounds (later + 1) n m answers →
      (∀ c d, key c = key d → w.From (later + 1) least see (p n c) (q m d)) →
      ∀ c d, key c = key d → w.From later least see (p (n + 1) c) (q (m + 1) d))
    (bounds : w.Bounds start n m answers) {c d : ι} (same : key c = key d) :
    w.From start least see (p n c) (q m d) := by
  induction n generalizing m start c d with
  | zero =>
      rcases bounds with ⟨rfl, given⟩ | ⟨left, -⟩
      · exact spent given c d same
      · exact .past (by omega)
  | succ n ih =>
      have next {m : Nat} (bounds : w.Bounds (start + 1) n m answers) (c d : ι)
          (same : key c = key d) : w.From start least see (p (n + 1) c) (q (m + 1) d) := by
        refine round n m start (Nat.le_refl _) bounds (fun c d same => ?_) c d same
        refine ih (fun given c d same => (spent given c d same).mono (Nat.le_succ _))
          (fun n m later reached => round n m later (Nat.le_of_succ_le reached)) bounds same
      rcases bounds with ⟨rfl, given⟩ | ⟨left, right⟩
      · exact next (Or.inl ⟨rfl, given⟩) c d same
      · cases m with
        | zero =>
            -- the right side is over, so that its bound does not matter
            exact (next (m := 0) (Or.inr (by omega)) c d same).spare (by omega) _
        | succ m => exact next (Or.inr (by omega)) c d same

/-- Rounds that list what they yield. -/
theorem collect {spent : ParserOf σ ε (List α)} {spent' : ParserOf τ ε' (List α)}
    {round : ParserOf σ ε (Option α)} {round' : ParserOf τ ε' (Option α)}
    (rounds : w.From start drawn (Option.map see) round round')
    (bounds : w.Bounds start n m (w.From start none? (List.map see) spent spent')) :
    w.From start none? (List.map see) (collect spent round n) (collect spent' round' m) := by
  refine loop (fun _ : Unit => ()) (p := fun n _ => Grammar.collect spent round n)
    (q := fun m _ => Grammar.collect spent' round' m) (fun answers _ _ _ => answers) ?_ bounds
    (c := ()) (d := ()) rfl
  intro n m later le _ rest _ _ _ s hs reached
  refine (rounds s hs (Nat.le_trans le reached)).andThen fun a b s' same hs' moved => ?_
  cases a with
  | none =>
      cases b with
      | none => exact .done hs' [] rfl
      | some b => cases same
  | some a =>
      cases b with
      | none => cases same
      | some b =>
          have further := rest () () rfl s' hs' (Nat.le_trans (Nat.succ_le_succ reached) moved)
          exact further.map (fun as bs seen => List.cons_eq_cons.2 ⟨Option.some.inj same, seen⟩)
            fun _ => Nat.le_refl 0

/-- Rounds that hand on a value. -/
theorem iterate {spent : α → ParserOf σ ε α} {spent' : α → ParserOf τ ε' α}
    {round : α → ParserOf σ ε (Option α)} {round' : α → ParserOf τ ε' (Option α)}
    (rounds : ∀ c d, see c = see d →
      w.From start drawn (Option.map see) (round c) (round' d))
    (bounds : w.Bounds start n m
      (∀ c d, see c = see d → w.From start none? see (spent c) (spent' d)))
    {c d : α} (same : see c = see d) :
    w.From start none? see (iterate spent round n c) (iterate spent' round' m d) := by
  refine loop see (fun answers => answers) ?_ bounds same
  intro n m later le _ rest c d same s hs reached
  refine (rounds c d same s hs (Nat.le_trans le reached)).andThen fun a b s' found hs' moved => ?_
  cases a with
  | none =>
      cases b with
      | none => exact .pure hs' same rfl
      | some b => cases found
  | some a =>
      cases b with
      | none => cases found
      | some b =>
          exact rest a b (Option.some.inj found) s' hs'
            (Nat.le_trans (Nat.succ_le_succ reached) moved)

end Tandem.From

-- ========================================================= primitives

section Primitives

variable {w : Tandem σ τ} {s : σ} {start : Nat} {α γ : Type}

theorem tandem_consume (hs : w.left.stands s) (symbol : Symbol) :
    w.At s taken id (consume symbol) (consume symbol) := by
  rw [consume_eq, consume_eq]
  refine .current hs fun k l found alike => ?_
  simp only [← alike.symbol]
  split
  next here => exact .take hs (ne_eof_of_symbol (found.trans here)) rfl (Nat.le_refl 1)
  next => exact .done hs false rfl

theorem tandem_consumeKeyword (hs : w.left.stands s) (keyword : Keyword) :
    w.At s taken id (consumeKeyword keyword) (consumeKeyword keyword) := by
  rw [consumeKeyword_eq, consumeKeyword_eq]
  refine .current hs fun k l found alike => ?_
  rw [← alike.keyword?]
  split
  next here => exact .take hs (ne_eof_of_keyword? (found ▸ here)) rfl (Nat.le_refl 1)
  next => exact .done hs false rfl

theorem tandem_expectKeyword (hs : w.left.stands s) (keyword : Keyword) :
    w.At s one id (expectKeyword keyword) (expectKeyword keyword) := by
  rw [expectKeyword_eq, expectKeyword_eq]
  refine .current hs fun k l found alike => ?_
  rw [← alike.keyword?]
  split
  next here => exact .take hs (ne_eof_of_keyword? (found ▸ here)) rfl (Nat.le_refl 1)
  next => exact .unexpected hs _

theorem tandem_identifier (hs : w.left.stands s) :
    w.At s one w.view.see identifier identifier := by
  refine .current hs fun k l found alike => ?_
  have named := alike.identifier?
  cases hk : k.identifier? with
  | none =>
      rw [hk] at named
      cases hl : l.identifier? with
      | none => exact .unexpected hs _
      | some y =>
          rw [hl] at named
          cases named
  | some x =>
      rw [hk] at named
      cases hl : l.identifier? with
      | none =>
          rw [hl] at named
          cases named
      | some y =>
          rw [hl] at named
          obtain ⟨seen⟩ := named
          exact .take hs (ne_eof_of_identifier? (found ▸ hk)) seen (Nat.le_refl 1)

variable {body : ParserOf σ ε α} {body' : ParserOf τ ε' α} {least : α → Nat} {see : α → γ}

/-- A clause is compared by what follows its keyword. -/
theorem tandem_clause (hs : w.left.stands s) (keyword : Keyword)
    (hbody : w.From (Cursor.index s + 1) none? see body body') :
    w.At s none? (Option.map see) (clause keyword body) (clause keyword body') := by
  refine (tandem_consumeKeyword hs keyword).share fun found s' hs' moved => ?_
  cases found with
  | true =>
      exact (hbody s' hs' moved).map (fun _ _ same => congrArg some same) fun _ => Nat.le_refl 0
  | false => exact .done hs' none rfl

theorem tandem_afterBy (hs : w.left.stands s)
    (hbody : w.From (Cursor.index s + 1) none? see body body') :
    w.At s none? see (afterBy body) (afterBy body') :=
  (tandem_expectKeyword hs .BY).share fun _ s' hs' moved => hbody s' hs' moved

/-- A further item is behind its comma. -/
theorem tandem_afterComma (hbody : w.From (start + 1) none? see body body') :
    w.From start drawn (Option.map see) (afterComma body) (afterComma body') := by
  intro s hs reached
  refine (tandem_consume hs .comma).bindSame (m := fun found item => drawn item - taken found)
    (fun found s' hs' moved => ?_) fun found item => by omega
  cases found with
  | true =>
      have behind := hbody s' hs' (Nat.le_trans (Nat.succ_le_succ reached) moved)
      exact behind.map (fun _ _ same => congrArg some same) fun _ => Nat.le_refl 0
  | false => exact .done hs' none rfl

theorem tandem_moreItems (hbody : w.From (start + 1) none? see body body') {n m : Nat}
    (bounds : w.Bounds start n m True) :
    w.From start none? (List.map see) (moreItems body n) (moreItems body' m) := by
  rw [moreItems_eq_collect, moreItems_eq_collect]
  refine .collect (tandem_afterComma hbody) (bounds.imp_left fun ⟨same, _⟩ => ⟨same, ?_⟩)
  exact fun s hs _ => .done hs [] rfl

theorem tandem_commaSeparated (hbody : w.From start none? see body body') :
    w.From start none? (List.map see) (commaSeparated body) (commaSeparated body') := by
  intro s hs reached
  refine (hbody s hs reached).andThen fun a b u head hu moved => ?_
  refine .tokensLeft hu fun n m left right => ?_
  have further : start ≤ Cursor.index u + 1 := by omega
  have tail := tandem_moreItems (hbody.mono further) (Or.inr ⟨left, right⟩) u hu (Nat.le_refl _)
  exact tail.map (fun as bs same => List.cons_eq_cons.2 ⟨head, same⟩) fun _ => Nat.le_refl 0

end Primitives

end SqlSelect.Grammar
