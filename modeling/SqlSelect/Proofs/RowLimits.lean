/-
What the clauses about rows say together.

`LIMIT`, `OFFSET` and `FETCH` can be written in any order, and the same
thing can be said in several ways. A `RowItem` is one of the clauses as it
is written, and its `request` is what it says. Limits are one family and
offsets the other, and each family may speak once: the loop reads the items
as long as none repeats a family, and the first that does is refused at its
keyword. What is read off the requests at the end asks for the only limit
and the only offset among them, so their order is of no account.

# Requests

What is said is settled without the parser. `RowRequest.clause?` asks a list
of requests for its only limit and its only offset, and where no family speaks
twice the answer does not depend on their order (`RowRequest.clause?_perm`).

# State

The loop keeps what has been said so far, and `RowLimits.add` is one item's
share in it. `RowLimits.Fresh` says of the items to come that none repeats a
family, among themselves or with what was said; it is what each round needs and
what it leaves for the rest (`RowLimits.Fresh.cons`).

# The run

A round reads an item if its family is fresh and fails at its keyword if not.
From this the run follows by induction on the items, and the theorem puts the
run and the requests together.
-/
import SqlSelect.Proofs.Complete.Clause
import Mathlib.Data.List.Nodup
import Mathlib.Data.List.Induction

namespace SqlSelect

-- =========================================================== requests

/-- The two families of clauses: each may speak once. -/
inductive RowFamily where
  | limit
  | offset
  deriving DecidableEq

/-- The rule that a second clause of the family breaks. -/
def RowFamily.duplicate : RowFamily → Rule
  | .limit => .duplicateLimit
  | .offset => .duplicateOffset

/-- What a clause says: how many rows to return, or all of them, or how many
to pass over. -/
inductive RowRequest where
  | limit (rows : Option UInt64)
  | offset (rows : UInt64)
  deriving DecidableEq

namespace RowRequest

def family : RowRequest → RowFamily
  | .limit _ => .limit
  | .offset _ => .offset

/-- The number of rows to return, where one is given. -/
def limit? : RowRequest → Option UInt64
  | .limit rows => rows
  | .offset _ => none

/-- The number of rows to pass over, where one is given. -/
def offset? : RowRequest → Option UInt64
  | .offset rows => some rows
  | .limit _ => none

/-- What requests of different families amount to. -/
def clause? (requests : List RowRequest) : Option Limit :=
  match requests.findSome? limit?, requests.findSome? offset? with
  | none, none => none
  | count, rows => some ⟨count, rows⟩

/-- Requests of different families are told apart by them. -/
theorem eq_of_family {requests : List RowRequest} (once : (requests.map family).Nodup)
    {a b : RowRequest} (ha : a ∈ requests) (hb : b ∈ requests) (same : a.family = b.family) :
    a = b :=
  List.inj_on_of_nodup_map once ha hb same

/-- The one request of a family gives its number of rows. -/
theorem findSome?_eq_some_iff {requests : List RowRequest} (once : (requests.map family).Nodup)
    {f : RowRequest → Option UInt64} {spoken : RowFamily}
    (only : ∀ request rows, f request = some rows → request.family = spoken) {rows : UInt64} :
    requests.findSome? f = some rows ↔ ∃ request ∈ requests, f request = some rows := by
  constructor
  · exact List.exists_of_findSome?_eq_some
  · rintro ⟨request, mem, said⟩
    cases found : requests.findSome? f with
    | none =>
        have silent := List.findSome?_eq_none_iff.1 found request mem
        rw [said] at silent
        cases silent
    | some other =>
        obtain ⟨another, mem', said'⟩ := List.exists_of_findSome?_eq_some found
        have same := (only _ _ said').trans (only _ _ said).symm
        rw [eq_of_family once mem' mem same, said] at said'
        exact said'.symm

/-- The order of requests of different families is of no account. -/
theorem clause?_perm {requests others : List RowRequest} (once : (requests.map family).Nodup)
    (perm : others.Perm requests) : clause? others = clause? requests := by
  have once' : (others.map family).Nodup := (perm.map family).nodup_iff.2 once
  have alike {f : RowRequest → Option UInt64} {spoken : RowFamily}
      (only : ∀ request rows, f request = some rows → request.family = spoken) :
      others.findSome? f = requests.findSome? f := by
    apply Option.ext
    intro rows
    rw [findSome?_eq_some_iff once' only, findSome?_eq_some_iff once only]
    simp only [perm.mem_iff]
  have limits : ∀ request rows, limit? request = some rows → request.family = .limit := by
    rintro (given | given) rows said
    · rfl
    · cases said
  have offsets : ∀ request rows, offset? request = some rows → request.family = .offset := by
    rintro (given | given) rows said
    · cases said
    · rfl
  unfold clause?
  rw [alike limits, alike offsets]

end RowRequest

-- ============================================================== items

/-- A number of rows, of those that are whole numbers in a text. -/
structure RowNumber where
  number : Nat
  fits : number < 9223372036854775808

namespace RowNumber

def kind (n : RowNumber) : Kind := .integer (.ofNat n.number)

def rows (n : RowNumber) : UInt64 := .ofNat n.number

theorem toInt64_rows (n : RowNumber) : n.rows.toInt64 = .ofNat n.number := rfl

theorem spelled (n : RowNumber) : 0 ≤ n.rows.toInt64 := by
  rw [toInt64_rows, Int64.le_iff_toInt_le, Int64.toInt_ofNat_of_lt n.fits]
  exact Int.natCast_nonneg n.number

end RowNumber

/-- The words behind a number of rows, which say nothing. -/
inductive RowWord where
  | row
  | rows
  deriving DecidableEq

def RowWord.keyword : RowWord → Keyword
  | .row => .ROW
  | .rows => .ROWS

/-- The words behind `FETCH`, which say the same thing. -/
inductive FetchWord where
  | first
  | next
  deriving DecidableEq

def FetchWord.keyword : FetchWord → Keyword
  | .first => .FIRST
  | .next => .NEXT

/-- A clause about the rows as it is written. -/
inductive RowItem where
  | limit (count : RowNumber)
  | limitAll
  | offset (count : RowNumber) (word : Option RowWord)
  | fetch (lead : FetchWord) (count : RowNumber) (word : Option RowWord) (only : Bool)
  /-- Without a number one row is meant. -/
  | fetchOne (lead : FetchWord) (word : RowWord) (only : Bool)

namespace RowItem

/-- What the clause says. -/
def request : RowItem → RowRequest
  | .limit count => .limit (some count.rows)
  | .limitAll => .limit none
  | .offset count _ => .offset count.rows
  | .fetch _ count _ _ => .limit (some count.rows)
  | .fetchOne _ _ _ => .limit (some 1)

def family (item : RowItem) : RowFamily := item.request.family

/-- The tokens of a word that may be there. -/
def wordKinds (word : Option RowWord) : List Kind := (word.map (·.keyword.kind)).toList

/-- The tokens of `ONLY`, which may be there. -/
def onlyKinds (only : Bool) : List Kind := if only then [Keyword.ONLY.kind] else []

/-- The tokens of the clause. -/
def kinds : RowItem → List Kind
  | .limit count => [Keyword.LIMIT.kind, count.kind]
  | .limitAll => [Keyword.LIMIT.kind, Keyword.ALL.kind]
  | .offset count word => Keyword.OFFSET.kind :: count.kind :: wordKinds word
  | .fetch lead count word only =>
    Keyword.FETCH.kind :: lead.keyword.kind :: count.kind :: (wordKinds word ++ onlyKinds only)
  | .fetchOne lead word only =>
    Keyword.FETCH.kind :: lead.keyword.kind :: word.keyword.kind :: onlyKinds only

/-- The keyword that the clause starts with. -/
def keyword : RowItem → Keyword
  | .limit _ | .limitAll => .LIMIT
  | .offset _ _ => .OFFSET
  | .fetch .. | .fetchOne .. => .FETCH

theorem kinds_eq (item : RowItem) : ∃ later, item.kinds = item.keyword.kind :: later := by
  cases item <;> exact ⟨_, rfl⟩

theorem map_family (items : List RowItem) :
    (items.map request).map RowRequest.family = items.map family := List.map_map

/-- Among items that repeat a family there is a first one that does. -/
theorem exists_repeat {items : List RowItem} (twice : ¬(items.map family).Nodup) :
    ∃ front item back, items = front ++ item :: back ∧ (front.map family).Nodup
      ∧ item.family ∈ front.map family := by
  induction items using List.reverseRecOn with
  | nil => exact absurd List.nodup_nil twice
  | append_singleton front item ih =>
      by_cases once : (front.map family).Nodup
      · refine ⟨front, item, [], rfl, once, ?_⟩
        by_contra apart
        apply twice
        rw [List.map_append]
        exact once.append (List.nodup_singleton _) (List.disjoint_singleton.2 apart)
      · obtain ⟨first, again, back, rfl, rest⟩ := ih once
        exact ⟨first, again, back ++ [item], by simp, rest⟩

end RowItem

/-- The words that can go on with a clause about the rows. -/
def rowNoise : List Keyword := [.ROW, .ROWS, .ONLY]

/-- The words that can go on with the clauses about the rows. -/
def rowWords : List Keyword := [.LIMIT, .OFFSET, .FETCH] ++ rowNoise

namespace Grammar

-- ================================================================ state

namespace RowLimits

/-- Whether the family has spoken. -/
def given (limits : RowLimits) : RowFamily → Bool
  | .limit => limits.count.isSome
  | .offset => limits.offset.isSome

theorem count_eq_none {limits : RowLimits} (silent : limits.given .limit = false) :
    limits.count = none :=
  Option.not_isSome_iff_eq_none.1 (Bool.eq_false_iff.1 silent)

theorem offset_eq_none {limits : RowLimits} (silent : limits.given .offset = false) :
    limits.offset = none :=
  Option.not_isSome_iff_eq_none.1 (Bool.eq_false_iff.1 silent)

/-- What has been said with one request more. -/
def add (limits : RowLimits) : RowRequest → RowLimits
  | .limit rows => { limits with count := some rows }
  | .offset rows => { limits with offset := some rows }

theorem given_add (limits : RowLimits) (request : RowRequest) (family : RowFamily) :
    (limits.add request).given family = (request.family == family || limits.given family) := by
  cases request <;> cases family <;> rfl

theorem given_foldl (limits : RowLimits) (requests : List RowRequest) (family : RowFamily) :
    (requests.foldl add limits).given family
      = (requests.any (·.family == family) || limits.given family) := by
  induction requests generalizing limits with
  | nil => rfl
  | cons request later ih =>
      rw [List.foldl_cons, ih, given_add, List.any_cons, Bool.or_left_comm, Bool.or_assoc]

/-- Each family speaks in one request at most, and none that has spoken. -/
def Fresh (limits : RowLimits) (requests : List RowRequest) : Prop :=
  (requests.map RowRequest.family).Nodup
    ∧ ∀ request ∈ requests, limits.given request.family = false

theorem Fresh.cons {limits : RowLimits} {request : RowRequest} {later : List RowRequest}
    (h : limits.Fresh (request :: later)) :
    limits.given request.family = false ∧ (limits.add request).Fresh later := by
  obtain ⟨once, before⟩ := h
  obtain ⟨apart, once⟩ := List.nodup_cons.1 once
  refine ⟨before request List.mem_cons_self, once, fun other mem => ?_⟩
  rw [given_add, Bool.or_eq_false_iff]
  refine ⟨beq_false_of_ne fun same => apart ?_, before other (List.mem_cons_of_mem _ mem)⟩
  rw [same]
  exact List.mem_map_of_mem mem

/-- Before anything is said no family has spoken. -/
theorem fresh_none {requests : List RowRequest}
    (once : (requests.map RowRequest.family).Nodup) :
    (RowLimits.mk none none).Fresh requests :=
  ⟨once, fun request _ => by cases request <;> rfl⟩

/-- What is said at the end is what was said before and what the requests
say. -/
theorem foldl_add {limits : RowLimits} {requests : List RowRequest}
    (fresh : limits.Fresh requests) :
    (requests.foldl add limits).count.join
        = limits.count.join.or (requests.findSome? RowRequest.limit?)
      ∧ (requests.foldl add limits).offset
        = limits.offset.or (requests.findSome? RowRequest.offset?) := by
  induction requests generalizing limits with
  | nil => exact ⟨(Option.or_none).symm, (Option.or_none).symm⟩
  | cons request later ih =>
      obtain ⟨silent, fresh⟩ := fresh.cons
      obtain ⟨count, offset⟩ := ih fresh
      rw [List.foldl_cons, count, offset]
      cases request with
      | limit rows =>
          refine ⟨?_, rfl⟩
          rw [count_eq_none silent]
          cases rows <;> rfl
      | offset rows =>
          refine ⟨rfl, ?_⟩
          rw [offset_eq_none silent]
          rfl

theorem clause?_foldl {requests : List RowRequest}
    (once : (requests.map RowRequest.family).Nodup) :
    (requests.foldl add ⟨none, none⟩).clause? = RowRequest.clause? requests := by
  obtain ⟨count, offset⟩ := foldl_add (fresh_none once)
  have count : (requests.foldl add ⟨none, none⟩).count.join
      = requests.findSome? RowRequest.limit? := count
  have offset : (requests.foldl add ⟨none, none⟩).offset
      = requests.findSome? RowRequest.offset? := offset
  unfold clause? RowRequest.clause?
  simp only [count, offset]
  cases requests.findSome? RowRequest.limit? <;> cases requests.findSome? RowRequest.offset? <;> rfl

end RowLimits

-- ============================================================ reading

section Reading

variable {rest : List Kind} {limits : RowLimits}

/-- None of these words stands next. -/
def Without (words : List Keyword) (rest : List Kind) : Prop :=
  ∀ word ∈ words, (next rest).keyword? ≠ some word

theorem Without.mono {words others : List Keyword} (h : Without words rest)
    (sub : others ⊆ words) : Without others rest :=
  fun word mem => h word (sub mem)

/-- Before a keyword none of the others stands next. -/
theorem without_keyword {words : List Keyword} {keyword : Keyword} (other : keyword ∉ words)
    (rest : List Kind) : Without words (keyword.kind :: rest) := by
  intro word mem
  apply next_ne_keyword
  rintro rfl
  exact other mem

theorem reads_rowNumber (n : RowNumber) (rest : List Kind) : Reads rowCount [n.kind] rest n.rows :=
  reads_rowCount n.spelled rest

theorem reads_rowWord (word : Option RowWord) (plain : Without [.ROW, .ROWS] rest) :
    Reads rowWord (RowItem.wordKinds word) rest () := by
  cases word with
  | none =>
      refine (reads_consumeKeyword_absent (plain .ROWS (by decide))).none ?_
      exact (reads_consumeKeyword_absent (plain .ROW (by decide))).none (Runs.refl _ rest)
  | some word =>
      cases word with
      | rows => exact (reads_consumeKeyword .ROWS _).cons (Runs.refl _ rest)
      | row =>
          have single : (next ([Keyword.ROW.kind] ++ rest)).keyword? ≠ some .ROWS :=
            next_ne_keyword nofun
          refine (reads_consumeKeyword_absent single).none ?_
          exact (reads_consumeKeyword .ROW _).cons (Runs.refl _ rest)

/-- `ONLY` is none of the words before it. -/
theorem without_onlyKinds (plain : Without rowNoise rest) (only : Bool) :
    Without [.ROW, .ROWS] (RowItem.onlyKinds only ++ rest) := by
  cases only with
  | true => exact without_keyword (by decide) rest
  | false => exact plain.mono (by decide)

/-- What stands behind the number of rows that `FETCH` gives. -/
theorem reads_fetched {ks : List Kind} {rows : UInt64} (word : Option RowWord) (only : Bool)
    (plain : Without rowNoise rest)
    (count : Reads rowCountOrOne ks
      (RowItem.wordKinds word ++ RowItem.onlyKinds only ++ rest) rows) :
    Reads fetched (ks ++ (RowItem.wordKinds word ++ RowItem.onlyKinds only)) rest rows := by
  refine count.then (Reads.then (reads_rowWord word (without_onlyKinds plain only)) ?_)
  have last : Reads (consumeKeyword .ONLY) (RowItem.onlyKinds only) rest only :=
    reads_consumeKeyword_if only (plain .ONLY (by decide))
  exact last.last (Runs.refl _ rest)

theorem reads_rowCountOrOne (n : RowNumber) (rest : List Kind) :
    Reads rowCountOrOne [n.kind] rest n.rows := by
  refine runs_current (runs_else ?_ (reads_rowNumber n rest))
  rintro (word | word) <;> cases word

/-- Without a number there is one row. -/
theorem reads_rowCountOrOne_word (word : RowWord) (rest : List Kind) :
    Reads rowCountOrOne [] (word.keyword.kind :: rest) 1 := by
  refine runs_current (runs_if ?_ (Runs.refl _ _))
  have here : (next ([] ++ word.keyword.kind :: rest)).keyword? = some word.keyword :=
    word.keyword.keyword?_kind
  rw [here]
  cases word with
  | row => exact Or.inl rfl
  | rows => exact Or.inr rfl

theorem reads_fetchCount {ks : List Kind} {rows : UInt64} (lead : FetchWord)
    (h : Reads fetched ks rest rows) :
    Reads fetchCount (lead.keyword.kind :: ks) rest rows := by
  cases lead with
  | first => exact (reads_consumeKeyword .FIRST _).cons h
  | next =>
      have other : (Grammar.next (Keyword.NEXT.kind :: ks ++ rest)).keyword? ≠ some .FIRST :=
        next_ne_keyword nofun
      refine (reads_consumeKeyword_absent other).none ?_
      exact (reads_consumeKeyword .NEXT _).cons h

theorem reads_rowLimit?_fetch (first : limits.count = none) {ks : List Kind} {rows : UInt64}
    (said : Reads fetchCount ks rest rows) :
    Reads (rowLimit? limits) (Keyword.FETCH.kind :: ks) rest
      (some { limits with count := some (some rows) }) := by
  refine runs_position fun here => runs_current ?_
  have word : (next (Keyword.FETCH.kind :: ks ++ rest)).keyword? = some .FETCH :=
    Keyword.FETCH.keyword?_kind
  rw [word]
  refine runs_else (by simp [first]) ((reads_advance (k := Keyword.FETCH.kind) nofun).cons ?_)
  exact said.map (f := fun rows => some { limits with count := some (some rows) })

-- ============================================================= one item

/-- An item is read where its family has not spoken, and adds what it says. -/
theorem reads_rowLimit? {item : RowItem} (silent : limits.given item.family = false)
    (plain : Without rowNoise rest) :
    Reads (rowLimit? limits) item.kinds rest (some (limits.add item.request)) := by
  cases item with
  | limit count =>
      have said := reads_limitCount count.spelled rest
      exact reads_rowLimit?_limit (RowLimits.count_eq_none silent) said
  | limitAll =>
      have all : Reads limitCount [Keyword.ALL.kind] rest none :=
        (reads_consumeKeyword .ALL _).cons (Runs.refl _ rest)
      exact reads_rowLimit?_limit (RowLimits.count_eq_none silent) all
  | offset count word =>
      have behind := reads_rowWord word (plain.mono (by decide))
      have said := reads_rowNumber count (RowItem.wordKinds word ++ rest)
      exact reads_rowLimit?_offset (RowLimits.offset_eq_none silent) said behind
  | fetch lead count word only =>
      have behind := reads_fetched word only plain (reads_rowCountOrOne count _)
      exact reads_rowLimit?_fetch (RowLimits.count_eq_none silent) (reads_fetchCount lead behind)
  | fetchOne lead word only =>
      have behind := reads_fetched (some word) only plain (reads_rowCountOrOne_word word _)
      exact reads_rowLimit?_fetch (RowLimits.count_eq_none silent) (reads_fetchCount lead behind)

/-- Where it has, the item is refused at its keyword. -/
theorem rowLimit?_repeated {item : RowItem} (spoken : limits.given item.family = true) {s : State}
    (hs : s.rest = item.kinds ++ rest) : ∃ t,
    rowLimit? limits s = .error ⟨.invalid item.family.duplicate, ⟨s.position, s.position⟩⟩ t := by
  have refused {rule : Rule} {p : Parser (Option RowLimits)} {c : Prop} [Decidable c] (hc : c) :
      ∃ t, (if c then reject rule s.position s.position else p : Parser (Option RowLimits)) s
        = .error ⟨.invalid rule, ⟨s.position, s.position⟩⟩ t := by
    rw [if_pos hc]
    exact ⟨_, rfl⟩
  obtain ⟨later, kinds⟩ := item.kinds_eq
  have here : (s.kindAt 0).keyword? = some item.keyword := by
    rw [kinds] at hs
    rw [State.kindAt, hs]
    exact Keyword.keyword?_kind _
  unfold rowLimit?
  rw [position_bind, current_bind, here]
  cases item <;> exact refused spoken

-- ============================================================ the run

/-- An item starts with a keyword that goes on with none. -/
theorem without_item (item : RowItem) (rest : List Kind) :
    Without rowNoise (item.kinds ++ rest) := by
  obtain ⟨more, kinds⟩ := item.kinds_eq
  have other : item.keyword ∉ rowNoise := by
    cases item with
    | limit _ => exact (by decide : Keyword.LIMIT ∉ rowNoise)
    | limitAll => exact (by decide : Keyword.LIMIT ∉ rowNoise)
    | offset _ _ => exact (by decide : Keyword.OFFSET ∉ rowNoise)
    | fetch _ _ _ _ => exact (by decide : Keyword.FETCH ∉ rowNoise)
    | fetchOne _ _ _ => exact (by decide : Keyword.FETCH ∉ rowNoise)
  rw [kinds]
  exact without_keyword other _

/-- Behind an item comes another, or what ends them. -/
theorem without_items (items : List RowItem) (plain : Without rowNoise rest) :
    Without rowNoise (items.flatMap RowItem.kinds ++ rest) := by
  cases items with
  | nil => exact plain
  | cons item later =>
      rw [List.flatMap_cons, List.append_assoc]
      exact without_item item _

/-- Items of which none repeats a family are read, one in each round. -/
theorem runs_rowLimits {items : List RowItem} (fresh : limits.Fresh (items.map RowItem.request))
    (plain : Without rowNoise rest) (count : Nat) :
    Runs (rowLimits (items.length + count) limits) (items.flatMap RowItem.kinds) rest
      (rowLimits count ((items.map RowItem.request).foldl RowLimits.add limits)) := by
  induction items generalizing limits with
  | nil =>
      rw [List.length_nil, Nat.zero_add]
      exact Runs.refl _ rest
  | cons item later ih =>
      obtain ⟨silent, fresh⟩ := fresh.cons
      rw [List.length_cons, Nat.add_right_comm, List.flatMap_cons]
      exact Reads.then (reads_rowLimit? silent (without_items later plain)) (ih fresh)

/-- Every item has a token, so there are rounds enough. -/
theorem length_le_items (items : List RowItem) :
    items.length ≤ (items.flatMap RowItem.kinds).length := by
  induction items with
  | nil => exact Nat.le_refl 0
  | cons item later ih =>
      obtain ⟨more, kinds⟩ := item.kinds_eq
      rw [List.flatMap_cons, List.length_append, List.length_cons, kinds, List.length_cons]
      omega

/-- Items of different families are read, and they amount to what they ask
for. -/
theorem reads_limitClause_items {items : List RowItem} (once : (items.map RowItem.family).Nodup)
    (plain : Without rowWords rest) :
    Reads limitClause (items.flatMap RowItem.kinds) rest
      (RowRequest.clause? (items.map RowItem.request)) := by
  rw [← RowItem.map_family] at once
  refine runs_tokensLeft ?_
  obtain ⟨count, enough⟩ := Nat.exists_eq_add_of_le
    (Nat.le_trans (length_le_items items) (Nat.le_add_right _ rest.length))
  rw [List.length_append, enough, ← RowLimits.clause?_foldl once]
  have all := runs_rowLimits (RowLimits.fresh_none once) (plain.mono (by decide)) count
  have reads : Reads (rowLimits (items.length + count) ⟨none, none⟩)
      (items.flatMap RowItem.kinds) rest
      ((items.map RowItem.request).foldl RowLimits.add ⟨none, none⟩) := by
    rw [← List.append_nil (items.flatMap RowItem.kinds)]
    exact all.trans (reads_rowLimits_stop (plain.mono (by decide)) _ count)
  exact reads.map (f := RowLimits.clause?)

section Outcome

variable {items : List RowItem} {s : State} (plain : Without rowWords rest)
  (hs : s.rest = items.flatMap RowItem.kinds ++ rest)

include hs

/-- The first item that repeats a family is refused at its keyword. -/
theorem limitClause_repeated {front back : List RowItem} {item : RowItem}
    (split : items = front ++ item :: back) (once : (front.map RowItem.family).Nodup)
    (again : item.family ∈ front.map RowItem.family) : ∃ t,
    limitClause s = .error ⟨.invalid item.family.duplicate,
      ⟨s.position + (front.flatMap RowItem.kinds).length,
        s.position + (front.flatMap RowItem.kinds).length⟩⟩ t := by
  rw [split, List.flatMap_append, List.flatMap_cons, List.append_assoc, List.append_assoc] at hs
  generalize back.flatMap RowItem.kinds ++ rest = behind at hs
  rw [← RowItem.map_family] at once
  obtain ⟨more, kinds⟩ := item.kinds_eq
  -- there is a round left for the item
  obtain ⟨count, enough⟩ : ∃ count, s.rest.length = front.length + (count + 1) := by
    have rounds := length_le_items front
    have width : s.rest.length
        = (front.flatMap RowItem.kinds).length + (more.length + 1 + behind.length) := by
      rw [hs, kinds, List.length_append, List.length_append, List.length_cons]
    exact ⟨s.rest.length - front.length - 1, by omega⟩
  obtain ⟨t, ht, position, run⟩ :=
    runs_rowLimits (RowLimits.fresh_none once) (without_item item behind) (count + 1) s hs
  have spoken : ((front.map RowItem.request).foldl RowLimits.add ⟨none, none⟩).given item.family
      = true := by
    rw [RowLimits.given_foldl, Bool.or_eq_true_iff]
    obtain ⟨earlier, mem, same⟩ := List.mem_map.1 again
    exact Or.inl (List.any_eq_true.2 ⟨_, List.mem_map_of_mem mem, beq_iff_eq.2 same⟩)
  obtain ⟨u, refused⟩ := rowLimit?_repeated spoken ht
  rw [position] at refused
  refine ⟨u, ?_⟩
  unfold limitClause
  rw [tokensLeft_bind, enough, bind_apply, run, rowLimits, bind_apply, refused]

/-- Items that repeat a family are refused. -/
theorem limitClause_twice (twice : ¬(items.map RowItem.family).Nodup) :
    ∃ fault t, limitClause s = .error fault t := by
  obtain ⟨front, item, back, split, once, again⟩ := RowItem.exists_repeat twice
  obtain ⟨t, refused⟩ := limitClause_repeated hs split once again
  exact ⟨_, t, refused⟩

include plain

theorem limitClause_ok_iff {clause : Option Limit} : (∃ t, limitClause s = .ok clause t)
    ↔ (items.map RowItem.family).Nodup
      ∧ clause = RowRequest.clause? (items.map RowItem.request) := by
  constructor
  · rintro ⟨t, ht⟩
    by_cases once : (items.map RowItem.family).Nodup
    · obtain ⟨u, -, -, read⟩ := reads_limitClause_items once plain s hs
      exact ⟨once, (pure_ok.1 (read.symm.trans ht)).1.symm⟩
    · obtain ⟨_, u, refused⟩ := limitClause_twice hs once
      rw [refused] at ht
      cases ht
  · rintro ⟨once, rfl⟩
    obtain ⟨u, -, -, read⟩ := reads_limitClause_items once plain s hs
    exact ⟨u, read⟩

end Outcome

end Reading

/-- The clauses about the rows, before a token that goes on with none of
them. They fail if and only if a family speaks twice, and then at the keyword
of the first clause that repeats one. Otherwise all of them are read, and
nothing else, and they amount to the rows they ask for. Neither their order
nor how they are written makes a difference to what is read. -/
theorem limitClause_of_items (items : List RowItem) {rest : List Kind}
    (plain : Without rowWords rest) {s : State}
    (hs : s.rest = items.flatMap RowItem.kinds ++ rest) :
    ((∃ fault t, limitClause s = .error fault t) ↔ ¬(items.map RowItem.family).Nodup)
      ∧ (∀ front item back, items = front ++ item :: back → (front.map RowItem.family).Nodup →
        item.family ∈ front.map RowItem.family → ∃ t,
          limitClause s = .error ⟨.invalid item.family.duplicate,
            ⟨s.position + (front.flatMap RowItem.kinds).length,
              s.position + (front.flatMap RowItem.kinds).length⟩⟩ t)
      ∧ ((items.map RowItem.family).Nodup → ∃ t,
        limitClause s = .ok (RowRequest.clause? (items.map RowItem.request)) t ∧ t.rest = rest
          ∧ t.position = s.position + (items.flatMap RowItem.kinds).length)
      ∧ ∀ (others : List RowItem) (rest' : List Kind) (t : State), Without rowWords rest' →
        t.rest = others.flatMap RowItem.kinds ++ rest' →
        (others.map RowItem.request).Perm (items.map RowItem.request) → ∀ clause,
          (∃ s', limitClause s = .ok clause s') ↔ ∃ t', limitClause t = .ok clause t' := by
  refine ⟨⟨?_, limitClause_twice hs⟩, fun _ _ _ => limitClause_repeated hs, fun once => ?_, ?_⟩
  · rintro ⟨fault, t, refused⟩ once
    obtain ⟨u, read⟩ := (limitClause_ok_iff plain hs).2 ⟨once, rfl⟩
    rw [refused] at read
    cases read
  · obtain ⟨t, ht, position, read⟩ := reads_limitClause_items once plain s hs
    exact ⟨t, read, ht, position⟩
  · intro others rest' t plain' ht perm clause
    have families : (others.map RowItem.family).Perm (items.map RowItem.family) := by
      rw [← RowItem.map_family, ← RowItem.map_family]
      exact perm.map RowRequest.family
    rw [limitClause_ok_iff plain hs, limitClause_ok_iff plain' ht, families.nodup_iff]
    refine and_congr_right fun once => ?_
    rw [← RowItem.map_family] at once
    rw [RowRequest.clause?_perm once perm]

/-- Two clauses in either order and written in two ways, and three of which
the last says again how many rows to return, after all of them. -/
theorem limitClause_of_items_reordered :
    (∃ t, limitClause ⟨0, [Keyword.OFFSET.kind, .integer 3, Keyword.ROWS.kind,
          Keyword.FETCH.kind, Keyword.NEXT.kind, Keyword.ROW.kind, Keyword.ONLY.kind, .eof],
          false, []⟩ = .ok (some ⟨some 1, some 3⟩) t
        ∧ t.rest = [.eof] ∧ t.position = 7)
      ∧ (∃ t, limitClause ⟨0, [Keyword.LIMIT.kind, .integer 1, Keyword.OFFSET.kind, .integer 3,
          .symbol .rightParen], false, []⟩ = .ok (some ⟨some 1, some 3⟩) t)
      ∧ ∃ t, limitClause ⟨0, [Keyword.LIMIT.kind, Keyword.ALL.kind, Keyword.OFFSET.kind,
          .integer 0, Keyword.FETCH.kind, Keyword.FIRST.kind, .integer 5, .eof], false, []⟩
        = .error ⟨.invalid .duplicateLimit, ⟨4, 4⟩⟩ t := by
  let one : RowNumber := ⟨1, by decide⟩
  let three : RowNumber := ⟨3, by decide⟩
  have ends : Without rowWords [.eof] := fun _ _ => nofun
  have closes : Without rowWords [.symbol .rightParen] := fun _ _ => nofun
  obtain ⟨-, -, read, alike⟩ := limitClause_of_items
    [.offset three (some .rows), .fetchOne .next .row true] ends
    (s := ⟨0, _, false, []⟩) rfl
  obtain ⟨t, ht, rest, position⟩ := read (by decide)
  have swapped := (alike [.limit one, .offset three none] _ ⟨0, _, false, []⟩ closes rfl
    (.swap _ _ _) _).1 ⟨t, ht⟩
  obtain ⟨-, refused, -⟩ := limitClause_of_items
    [.limitAll, .offset ⟨0, by decide⟩ none, .fetch .first ⟨5, by decide⟩ none false]
    ends (s := ⟨0, _, false, []⟩) rfl
  have again := refused [.limitAll, .offset ⟨0, by decide⟩ none] _ [] rfl (by decide) (by decide)
  exact ⟨⟨t, ht, rest, position⟩, swapped, again⟩

end Grammar

end SqlSelect
