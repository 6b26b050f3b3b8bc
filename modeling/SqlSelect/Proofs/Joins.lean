/-
The `FROM` list as a fold over its entries.

An entry is whatever the parser accepts as one when nothing follows it, and
so is the condition of a join: a `FurtherEntry` is such an entry behind a
comma, or between the words of a join and its condition. What follows an
entry in a list is a comma, a word of the next join, `ON` or the end of the
list. None of them continues an entry or a condition (`Halts`), so each is
read in the list as it is read alone, and the loop takes one entry a round.

The join belongs to the entry behind its words. It is looked up once `JOIN`
has been passed, before the entry is read, and the first words that spell no
join end the run there.

# Entries by themselves

What an entry is, is not said by a grammar of entries but by the parser:
`Entry` and `Condition` hold tokens that it reads to the end when they stand
alone. So the theorem about lists is about whatever the parser takes for an
entry, derived tables included.

# Rounds and the list

`Folds` is what a list of further entries comes to, one entry a round, and
`FirstIllegal` the first words that spell no join, with what is in front of
them. Every list is one or the other (`FurtherEntry.legal_or_firstIllegal`),
and the loop is run along either (`runs_moreSources`, `moreSources_illegal`).
-/
import SqlSelect.Proofs.Kinds
import SqlSelect.Proofs.Twin.Select
import Mathlib.Data.List.Forall2

namespace SqlSelect.Grammar

variable {rest : List Kind} {bound : Nat}

-- ================================================== entries on their own

/-- The parser reads the tokens, to the last of them, where nothing follows
them. -/
def Accepts {α : Type} (p : Parser α) (kinds : List Kind) (a : α) : Prop :=
  ∃ t : State, p (.ofKinds (kinds ++ [.eof])) = .ok a t ∧ t.rest = [.eof]

/-- Reads one entry of the `FROM` list; the number of tokens bounds its
depth. -/
def soleSource : Parser Source := do
  source (selectWithin (← tokensLeft))

/-- An entry of the `FROM` list, without its join, and its tokens. -/
structure Entry where
  kinds : List Kind
  source : Source
  accepted : Accepts soleSource kinds source

/-- The condition of a join, and its tokens. -/
structure Condition where
  kinds : List Kind
  expr : Expr
  accepted : Accepts (expression 0) kinds expr

/-- An entry behind the first, with what introduces it. -/
inductive FurtherEntry where
  | comma (entry : Entry)
  | join (words : List Keyword) (modifiers : ∀ word ∈ words, isJoinModifier word = true)
    (entry : Entry) (condition : Condition)

/-- The keywords that can follow the `FROM` list. -/
def afterEntries : List Keyword := .WHERE :: .GROUP :: afterGroups

/-- What ends the list ends its last entry. -/
theorem halts_of_endsClause {kind : Kind} (h : endsClause afterEntries kind = true) : Halts kind :=
  Or.inr (endsClause_mono (by decide) h)

theorem startsJoin_of_endsClause {kind : Kind} (h : endsClause afterEntries kind = true) :
    startsJoin kind = false := by
  rcases cases_of_endsClause h with rfl | rfl | rfl | ⟨name, keyword, rfl, word, given⟩
  · rfl
  · rfl
  · rfl
  · have others : ∀ keyword ∈ afterEntries,
        (keyword == .JOIN || isJoinModifier keyword) = false := by decide
    show (Keyword.ofWord? name).any _ = false
    rw [word]
    exact others keyword given

/-- An entry on its own has no join. -/
theorem join?_of_source {select : Parser Select} {s t : State} {e : Source}
    (h : source select s = .ok e t) : e.join? = none := by
  unfold source at h
  rw [atSymbol_bind] at h
  split at h
  next =>
    obtain ⟨_, _, -, h⟩ := bind_ok.1 h
    obtain ⟨statement, _, -, h⟩ := bind_ok.1 h
    obtain ⟨_, _, -, h⟩ := bind_ok.1 h
    obtain ⟨found, _, -, h⟩ := bind_ok.1 h
    cases found with
    | some aliasName =>
        obtain ⟨rfl, -⟩ := pure_ok.1 h
        rfl
    | none => exact (reject_ok.1 h).elim
  next =>
    obtain ⟨⟨schema, name⟩, _, -, h⟩ := bind_ok.1 h
    obtain ⟨_, _, -, h⟩ := bind_ok.1 h
    obtain ⟨aliasName, _, -, h⟩ := bind_ok.1 h
    obtain ⟨rfl, -⟩ := pure_ok.1 h
    rfl

namespace Entry

theorem join?_source (e : Entry) : e.source.join? = none := by
  obtain ⟨t, found, -⟩ := e.accepted
  exact join?_of_source found

/-- In a list an entry is read as it is read alone. -/
theorem reads (e : Entry) (enough : e.kinds.length ≤ bound) (halts : Halts (next rest)) :
    Reads (Grammar.source (selectWithin bound)) e.kinds rest e.source := by
  obtain ⟨t, found, stop⟩ := e.accepted
  let k : Fork := ⟨[.eof], rest, rfl, halts⟩
  have course (bound : Nat) : ∀ mark, Course true mark (selectWithin bound) :=
    fun _ => course_selectWithin bound
  have within : e.kinds.length ≤ (e.kinds ++ [Kind.eof]).length := by
    rw [List.length_append]
    exact Nat.le_add_right _ _
  have same : Clear k e.kinds.length (Grammar.source (selectWithin (e.kinds ++ [Kind.eof]).length))
      (Grammar.source (selectWithin bound)) :=
    clear_source (course _) fun k bare closed => clear_selectWithin bare closed within enough
  have forward : Forward (Grammar.source (selectWithin bound)) :=
    (course_source (course bound) : Course true 0 _).forward
  exact same.meets.reads forward (Nat.le_refl _) rfl found stop

end Entry

theorem Condition.reads (c : Condition) (halts : Halts (next rest)) :
    Reads (expression 0) c.kinds rest c.expr := by
  obtain ⟨t, found, stop⟩ := c.accepted
  let k : Fork := ⟨[.eof], rest, rfl, halts⟩
  have same : Twin k c.kinds.length [] (fun _ => 1) (expression 0) (expression 0) :=
    twin_expression 0
  have forward : Forward (expression 0) := (course_expression 0 : Course false 0 _).forward
  exact same.meets.reads forward (Nat.le_refl _) rfl found stop

-- ============================================================ spellings

theorem joinType?_eq_some_iff {words : List Keyword} {type : JoinType} :
    joinType? words = some type ↔ words ∈ type.spellings := by
  refine ⟨mem_spellings_of_joinType?, fun h => ?_⟩
  cases type
  all_goals
    simp only [JoinType.spellings, List.mem_cons, List.not_mem_nil, or_false] at h
    rcases h with rfl | rfl <;> rfl

theorem halts_keyword {word : Keyword} (h : word ∈ afterEntry) : Halts word.kind := by
  right
  show word.kind.keyword?.any afterEntry.contains = true
  rw [Keyword.keyword?_kind]
  exact List.contains_iff_mem.2 h

theorem mem_afterEntry_of_isJoinModifier {word : Keyword} (h : isJoinModifier word = true) :
    word ∈ afterEntry := by
  unfold isJoinModifier at h
  split at h
  case h_8 => cases h
  all_goals decide

/-- The words of a join and `JOIN` end an expression. -/
theorem halts_words {words : List Keyword} (modifiers : ∀ word ∈ words, isJoinModifier word = true)
    (ls : List Kind) : Halts (next (words.map Keyword.kind ++ Keyword.JOIN.kind :: ls)) := by
  cases words with
  | nil => exact halts_keyword (show .JOIN ∈ afterEntry by decide)
  | cons word words =>
      exact halts_keyword (mem_afterEntry_of_isJoinModifier (modifiers word List.mem_cons_self))

namespace FurtherEntry

/-- The tokens of the entry, with those that introduce it. -/
def kinds : FurtherEntry → List Kind
  | .comma entry => .symbol .comma :: entry.kinds
  | .join words _ entry condition =>
    words.map Keyword.kind
      ++ Keyword.JOIN.kind :: (entry.kinds ++ Keyword.ON.kind :: condition.kinds)

/-- The words before `JOIN` spell a join. -/
def Legal : FurtherEntry → Prop
  | .comma _ => True
  | .join words _ _ _ => ∃ type : JoinType, words ∈ type.spellings

/-- What the entry is in the list: it has a join where `JOIN` introduces it,
of the type that the words spell and with the condition behind it. -/
inductive Folds : FurtherEntry → Source → Prop
  | comma {entry : Entry} (bare : entry.source.join? = none) : Folds (.comma entry) entry.source
  | join {words : List Keyword} {modifiers : ∀ word ∈ words, isJoinModifier word = true}
    {entry : Entry} {condition : Condition} {type : JoinType} (spelled : words ∈ type.spellings) :
    Folds (.join words modifiers entry condition) (entry.source.withJoin ⟨type, condition.expr⟩)

theorem Legal.folds {f : FurtherEntry} (legal : f.Legal) : ∃ e, f.Folds e := by
  cases f with
  | comma entry => exact ⟨_, .comma entry.join?_source⟩
  | join words modifiers entry condition =>
      obtain ⟨type, spelled⟩ := legal
      exact ⟨_, .join spelled⟩

theorem forall₂_folds {later : List FurtherEntry} (legal : ∀ f ∈ later, f.Legal) :
    ∃ entries, List.Forall₂ Folds later entries := by
  induction later with
  | nil => exact ⟨[], .nil⟩
  | cons f later ih =>
      obtain ⟨e, first⟩ := (legal f List.mem_cons_self).folds
      obtain ⟨entries, others⟩ := ih fun f h => legal f (List.mem_cons_of_mem _ h)
      exact ⟨e :: entries, .cons first others⟩

/-- The words are the first that spell no join, behind the entries of
`front`. -/
structure FirstIllegal (later front : List FurtherEntry) (words : List Keyword) : Prop where
  split : ∃ modifiers entry condition back,
    later = front ++ .join words modifiers entry condition :: back
  legal : ∀ f ∈ front, f.Legal
  illegal : ∀ type : JoinType, words ∉ type.spellings

theorem FirstIllegal.behind {later front : List FurtherEntry} {words : List Keyword}
    {f : FurtherEntry} (first : f.Legal) (h : FirstIllegal later front words) :
    FirstIllegal (f :: later) (f :: front) words := by
  obtain ⟨modifiers, entry, condition, back, split⟩ := h.split
  refine ⟨⟨modifiers, entry, condition, back, ?_⟩, List.forall_mem_cons.2 ⟨first, h.legal⟩,
    h.illegal⟩
  rw [split, List.cons_append]

/-- Where not every join is legal, one is the first that is not. -/
theorem legal_or_firstIllegal (later : List FurtherEntry) :
    (∀ f ∈ later, f.Legal) ∨ ∃ front words, FirstIllegal later front words := by
  induction later with
  | nil => exact Or.inl nofun
  | cons f later ih =>
      by_cases first : f.Legal
      · rcases ih with others | ⟨front, words, others⟩
        · exact Or.inl (List.forall_mem_cons.2 ⟨first, others⟩)
        · exact Or.inr ⟨f :: front, words, others.behind first⟩
      · cases f with
        | comma entry => exact absurd trivial first
        | join words modifiers entry condition =>
            exact Or.inr ⟨[], words, ⟨modifiers, entry, condition, later, rfl⟩, nofun,
              fun type spelled => first ⟨type, spelled⟩⟩

/-- An entry starts with a comma or with a word of its join. -/
theorem halts (f : FurtherEntry) (ls : List Kind) : Halts (next (f.kinds ++ ls)) := by
  cases f with
  | comma entry => exact Or.inl rfl
  | join words modifiers entry condition =>
      rw [kinds, List.append_assoc]
      exact halts_words modifiers _

theorem halts_flatMap (later : List FurtherEntry) (halts : Halts (next rest)) :
    Halts (next (later.flatMap kinds ++ rest)) := by
  cases later with
  | nil => exact halts
  | cons f later =>
      rw [List.flatMap_cons, List.append_assoc]
      exact f.halts _

theorem one_le_kinds (f : FurtherEntry) : 1 ≤ f.kinds.length := by
  cases f with
  | comma entry => exact Nat.le_add_left _ _
  | join words modifiers entry condition =>
      simp only [kinds, List.length_append, List.length_cons]
      omega

theorem length_le_flatMap (later : List FurtherEntry) :
    later.length ≤ (later.flatMap kinds).length := by
  induction later with
  | nil => exact Nat.le_refl 0
  | cons f later ih =>
      have := f.one_le_kinds
      rw [List.flatMap_cons, List.length_cons, List.length_append]
      omega

end FurtherEntry

-- ================================================================ rounds

open FurtherEntry (kinds Folds)

/-- One round takes one entry. -/
theorem FurtherEntry.Folds.runs {f : FurtherEntry} {e : Source} (folds : f.Folds e)
    (enough : f.kinds.length ≤ bound) (halts : Halts (next rest)) (count : Nat) :
    Runs (moreSources (selectWithin bound) (count + 1)) f.kinds rest
      (moreSources (selectWithin bound) count >>= fun later => pure (e :: later)) := by
  cases folds with
  | @comma entry bare =>
      have within : entry.kinds.length ≤ bound := Nat.le_of_succ_le enough
      exact runs_moreSources_comma (entry.reads within halts) count
  | @join words modifiers entry condition type spelled =>
      have within : entry.kinds.length ≤ bound := by
        simp only [kinds, List.length_append, List.length_cons] at enough
        omega
      have on : Halts (next (Keyword.ON.kind :: (condition.kinds ++ rest))) := Or.inr rfl
      exact runs_moreSources_join modifiers (joinType?_eq_some_iff.2 spelled)
        (entry.reads within on) (condition.reads halts) count

/-- The rounds over legal entries, whatever is read behind them. -/
theorem runs_moreSources {later : List FurtherEntry} {entries : List Source}
    (folds : List.Forall₂ Folds later entries) (enough : (later.flatMap kinds).length ≤ bound)
    (halts : Halts (next rest)) (count : Nat) :
    Runs (moreSources (selectWithin bound) (later.length + count)) (later.flatMap kinds) rest
      (moreSources (selectWithin bound) count >>= fun more => pure (entries ++ more)) := by
  induction folds with
  | nil =>
      rw [List.length_nil, Nat.zero_add]
      show Runs _ [] rest (_ >>= pure)
      rw [bind_pure]
      exact Runs.refl _ rest
  | @cons f e later entries first others ih =>
      rw [List.flatMap_cons, List.length_append] at enough
      have round := first.runs (show f.kinds.length ≤ bound by omega)
        (FurtherEntry.halts_flatMap later halts) (later.length + count)
      have behind := (ih (by omega)).bind fun later => pure (e :: later)
      simp only [bind_assoc, pure_bind] at behind
      rw [List.flatMap_cons, List.length_cons, Nat.succ_add]
      exact round.trans behind

/-- Words that spell no join end the run, at `JOIN`. -/
theorem moreSources_illegal (select : Parser Select) {words : List Keyword}
    (modifiers : ∀ word ∈ words, isJoinModifier word = true)
    (illegal : ∀ type : JoinType, words ∉ type.spellings) {s : State} {ls : List Kind}
    (hs : s.rest = words.map Keyword.kind ++ Keyword.JOIN.kind :: ls) (count : Nat) :
    ∃ t, moreSources select (count + 1) s = .error ⟨.invalid (.illegalJoinType
      (String.intercalate " " ((words ++ [Keyword.JOIN]).map Keyword.spelling))),
      ⟨s.position, s.position + words.length⟩⟩ t := by
  have unknown : joinType? words = none := by
    rw [Option.eq_none_iff_forall_ne_some]
    exact fun type found => illegal type (joinType?_eq_some_iff.1 found)
  have joined : Runs (moreSources select (count + 1)) [] _ _ :=
    runs_moreSources_joined modifiers ls count
  obtain ⟨u, hu, same, round⟩ := joined s hs
  obtain ⟨t, -, -, found⟩ := joinType_words modifiers hu
  rw [unknown, show u.position = s.position from same] at found
  rw [round, bind_apply, joinedSource, bind_apply, found]
  exact ⟨_, rfl⟩

-- ============================================================== the list

/-- All entries are read where every join is legal and the list is over
behind them. -/
theorem reads_entries {later : List FurtherEntry} {entries : List Source}
    (folds : List.Forall₂ Folds later entries) (enough : (later.flatMap kinds).length ≤ bound)
    (ends : endsClause afterEntries (next rest) = true) {count : Nat}
    (many : later.length ≤ count) :
    Reads (moreSources (selectWithin bound) count) (later.flatMap kinds) rest entries := by
  obtain ⟨extra, rfl⟩ := Nat.exists_eq_add_of_le many
  have comma : next rest ≠ .symbol .comma := by
    intro comma
    rw [comma] at ends
    cases ends
  have stop : Reads (moreSources (selectWithin bound) extra) [] rest [] :=
    reads_moreSources_stop comma (startsJoin_of_endsClause ends) extra
  have last := stop.map (f := (entries ++ ·))
  rw [List.append_nil] at last
  have rounds : Runs _ (later.flatMap kinds) ([] ++ rest) _ :=
    runs_moreSources folds enough (halts_of_endsClause ends) extra
  have whole := rounds.trans last
  rwa [List.append_nil] at whole

/-- The first words that spell no join are the error, whatever follows. -/
theorem moreSources_firstIllegal {later front : List FurtherEntry} {words : List Keyword}
    (first : FurtherEntry.FirstIllegal later front words)
    (enough : (later.flatMap kinds).length ≤ bound) {s : State}
    (hs : s.rest = later.flatMap kinds ++ rest) {count : Nat} (many : later.length ≤ count) :
    ∃ t, moreSources (selectWithin bound) count s = .error ⟨.invalid (.illegalJoinType
      (String.intercalate " " ((words ++ [Keyword.JOIN]).map Keyword.spelling))),
      ⟨s.position + (front.flatMap kinds).length,
        s.position + (front.flatMap kinds).length + words.length⟩⟩ t := by
  obtain ⟨⟨modifiers, entry, condition, back, rfl⟩, legal, illegal⟩ := first
  obtain ⟨entries, folds⟩ := FurtherEntry.forall₂_folds legal
  simp only [List.flatMap_append, List.flatMap_cons, List.length_append, List.append_assoc, kinds,
    List.length_cons, List.cons_append] at hs enough many
  obtain ⟨extra, rfl⟩ := Nat.exists_eq_add_of_lt (show front.length < count by omega)
  obtain ⟨u, hu, place, rounds⟩ := runs_moreSources folds
    (show (front.flatMap kinds).length ≤ bound by omega) (halts_words modifiers _) (extra + 1) s hs
  obtain ⟨t, found⟩ := moreSources_illegal (selectWithin bound) modifiers illegal hu extra
  refine ⟨t, ?_⟩
  rw [Nat.add_assoc, rounds, bind_apply, found, place]

/-- The `FROM` list is the fold of its entries: the first, and each further
one with a join exactly where `JOIN` introduces it, of the type that its
words spell and with the condition behind it. Where some words spell no
join, the first such words are the error, from the first of them to `JOIN`.
As a bound of the depth the number of tokens will do. -/
theorem sources_of_entries (first : Entry) (later : List FurtherEntry)
    (ends : endsClause afterEntries (next rest) = true) {s : State}
    (hs : s.rest = first.kinds ++ (later.flatMap kinds ++ rest)) (enough : s.rest.length ≤ bound) :
    ((∀ f ∈ later, f.Legal) ∨ ∃ front words, FurtherEntry.FirstIllegal later front words)
    ∧ ((∀ f ∈ later, f.Legal) → ∃ entries t, sources (selectWithin bound) s
        = .ok (first.source :: entries) t ∧ first.source.join? = none
      ∧ List.Forall₂ Folds later entries ∧ t.rest = rest)
    ∧ ∀ front words, FurtherEntry.FirstIllegal later front words →
      ∃ start t, start = s.position + (first.kinds ++ front.flatMap kinds).length
      ∧ sources (selectWithin bound) s = .error ⟨.invalid (.illegalJoinType
        (String.intercalate " " ((words ++ [Keyword.JOIN]).map Keyword.spelling))),
        ⟨start, start + words.length⟩⟩ t := by
  have halts := FurtherEntry.halts_flatMap later (halts_of_endsClause ends)
  rw [hs, List.length_append, List.length_append] at enough
  obtain ⟨u, hu, place, head⟩ :=
    first.reads (show first.kinds.length ≤ bound by omega) halts s hs
  -- behind the first entry there is a round for every token
  have run : sources (selectWithin bound) s = (moreSources (selectWithin bound) u.rest.length
      >>= fun entries => pure (first.source :: entries)) u := by
    rw [sources, bind_apply, head]
    rfl
  have many : later.length ≤ u.rest.length := by
    rw [hu, List.length_append]
    exact Nat.le_trans (FurtherEntry.length_le_flatMap later) (Nat.le_add_right _ _)
  have within : (later.flatMap kinds).length ≤ bound := by omega
  refine ⟨FurtherEntry.legal_or_firstIllegal later, fun legal => ?_, fun front words illegal => ?_⟩
  · obtain ⟨entries, folds⟩ := FurtherEntry.forall₂_folds legal
    obtain ⟨t, ht, -, more⟩ := reads_entries folds within ends many u hu
    refine ⟨entries, t, ?_, first.join?_source, folds, ht⟩
    rw [run, bind_apply, more]
    rfl
  · obtain ⟨t, found⟩ := moreSources_firstIllegal illegal within hu many
    refine ⟨_, t, rfl, ?_⟩
    rw [run, bind_apply, found, place, List.length_append, Nat.add_assoc s.position]

/-- A table by its name in quotes. -/
def Entry.named (name : String) : Entry :=
  ⟨[.quoted name], .plain name, ⟨1, [.eof], false, []⟩, rfl, rfl⟩

/-- A parameter as the condition. -/
def Condition.parameter (name : String) : Condition :=
  ⟨[.parameter name], .parameter name, ⟨1, [.eof], false, []⟩, rfl, rfl⟩

/-- A left join and an entry behind a comma, and an inner join before one
that is full and inner. -/
theorem sources_of_entries_chain :
    (∃ entries t, sources (selectWithin 10) ⟨4, [.quoted "a", Keyword.LEFT.kind,
        Keyword.OUTER.kind, Keyword.JOIN.kind, .quoted "b", Keyword.ON.kind, .parameter "x",
        .symbol .comma, .quoted "c", .eof], false, []⟩ = .ok (.plain "a" :: entries) t
      ∧ (Source.plain "a").join? = none
      ∧ List.Forall₂ Folds [.join [.LEFT, .OUTER] (by decide) (.named "b") (.parameter "x"),
        .comma (.named "c")] entries ∧ t.rest = [.eof])
    ∧ ∃ t, sources (selectWithin 12) ⟨4, [.quoted "a", Keyword.JOIN.kind, .quoted "b",
        Keyword.ON.kind, .parameter "x", Keyword.FULL.kind, Keyword.INNER.kind, Keyword.JOIN.kind,
        .quoted "c", Keyword.ON.kind, .parameter "y", Keyword.WHERE.kind], false, []⟩
      = .error ⟨.invalid (.illegalJoinType "FULL INNER JOIN"), ⟨9, 11⟩⟩ t := by
  refine ⟨(sources_of_entries (.named "a") [.join [.LEFT, .OUTER] (by decide) (.named "b")
    (.parameter "x"), .comma (.named "c")] (show endsClause _ (next [.eof]) = true from rfl)
    rfl (by decide)).2.1 ?_, ?_⟩
  · simp only [List.forall_mem_cons]
    exact ⟨⟨.left, by decide⟩, trivial, nofun⟩
  · have first : FurtherEntry.FirstIllegal [.join [] (by decide) (.named "b") (.parameter "x"),
        .join [.FULL, .INNER] (by decide) (.named "c") (.parameter "y")]
        [.join [] (by decide) (.named "b") (.parameter "x")] [.FULL, .INNER] := by
      refine ⟨⟨_, _, _, [], rfl⟩, ?_, fun type => by cases type <;> decide⟩
      simp only [List.forall_mem_cons]
      exact ⟨⟨.inner, by decide⟩, nofun⟩
    obtain ⟨start, t, rfl, found⟩ := (sources_of_entries (.named "a") _
      (show endsClause _ (next [Keyword.WHERE.kind]) = true from rfl)
      (s := ⟨4, _, false, []⟩) rfl (Nat.le_refl 12)).2.2 _ _ first
    exact ⟨t, found⟩

end SqlSelect.Grammar
