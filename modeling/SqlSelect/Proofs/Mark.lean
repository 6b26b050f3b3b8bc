/-
Tokens with a fixed spelling, and tokens put together.

A `Mark` is a symbol or a keyword; every operator is spelled by one to
three marks. The tables here are what a printer writes and what the
grammar takes for an operator: a bare word of a text is in lower case, so
there is one token for each keyword.
-/
import SqlSelect.Grammar.Clause
import SqlSelect.Proofs.Lexed

namespace SqlSelect

-- ========================================================= keywords

/-- The keyword as a bare word is read, in lower case. -/
def Keyword.word (keyword : Keyword) : String :=
  String.ofList (keyword.spelling.toList.map Char.toLower)

/-- The token that spells a keyword. -/
def Keyword.kind (keyword : Keyword) : Kind := .word keyword.word

/-- Every keyword is in the list of all. -/
theorem Keyword.mem_all (keyword : Keyword) : keyword ∈ all := by
  cases keyword <;> decide

/-- A keyword in lower case spells that keyword. -/
@[simp]
theorem Keyword.ofWord?_word (keyword : Keyword) : ofWord? keyword.word = some keyword := by
  have every : ∀ k ∈ all, ofWord? k.word = some k := by decide +kernel
  exact every keyword keyword.mem_all

@[simp]
theorem Keyword.keyword?_kind (keyword : Keyword) : keyword.kind.keyword? = some keyword :=
  keyword.ofWord?_word

/-- A reserved keyword names nothing. -/
theorem Keyword.identifier?_kind {keyword : Keyword} (reserved : keyword.isReserved = true) :
    keyword.kind.identifier? = none := by
  unfold Keyword.kind Kind.identifier?
  simp only [ofWord?_word]
  exact if_pos reserved

/-- A character that is no capital letter comes back from upper case. -/
theorem toLower_toUpper {c : Char} (small : c.isUpper = false) : c.toUpper.toLower = c := by
  have notUpper : ¬('A'.val ≤ c.val ∧ c.val ≤ 'Z'.val) := by
    intro range
    exact absurd (Text.isUpper_iff.2 range) (by rw [small]; exact Bool.false_ne_true)
  by_cases low : 'a'.val ≤ c.val ∧ c.val ≤ 'z'.val
  · have upper : c.toUpper.val = c.val + ('A'.val - 'a'.val) := by
      unfold Char.toUpper
      rw [dif_pos low]
    have range : c.toUpper.val ≥ 'A'.val ∧ c.toUpper.val ≤ 'Z'.val := by
      rw [upper]
      simp only [UInt32.le_iff_toNat_le, UInt32.toNat_add, ge_iff_le] at low ⊢
      simp at low ⊢
      omega
    unfold Char.toLower
    rw [dif_pos range]
    apply Char.ext
    simp only [upper]
    rw [UInt32.add_assoc]
    simp
  · have same : c.toUpper = c := dif_neg low
    rw [same]
    exact dif_neg notUpper

/-- A word without capital letters that spells a keyword is that keyword in
lower case. -/
theorem Keyword.eq_word_of_ofWord? {name : String} {keyword : Keyword}
    (folded : ∀ c ∈ name.toList, Text.IsFolded c) (h : ofWord? name = some keyword) :
    name = keyword.word := by
  have upper : keyword.spelling.toList = name.toList.map Char.toUpper := by
    have found := List.find?_some h
    rw [beq_iff_eq] at found
    rw [found, String.toList_ofList]
  rw [word, upper, List.map_map]
  have back : name.toList.map (Char.toLower ∘ Char.toUpper) = name.toList := by
    calc name.toList.map (Char.toLower ∘ Char.toUpper)
        = name.toList.map id :=
          List.map_congr_left fun c hc => toLower_toUpper (folded c hc).1
      _ = name.toList := List.map_id _
  rw [back, String.ofList_toList]

/-- In a text there is one token for each keyword. -/
theorem Kind.eq_kind_of_keyword? {kind : Kind} {keyword : Keyword} (lexed : kind.Lexed)
    (h : kind.keyword? = some keyword) : kind = keyword.kind := by
  cases kind with
  | word name => rw [Keyword.kind, ← Keyword.eq_word_of_ofWord? lexed.2 h]
  | _ => cases h

-- ============================================================ marks

/-- A token with a fixed spelling: a symbol or a keyword. -/
inductive Mark where
  | symbol (mark : Symbol)
  | keyword (word : Keyword)
  deriving DecidableEq

namespace Mark

/-- The token that spells a mark. -/
def kind : Mark → Kind
  | .symbol mark => .symbol mark
  | .keyword word => word.kind

end Mark

/-- The tokens that spell a list of marks. -/
def Mark.kinds (marks : List Mark) : List Kind := marks.map Mark.kind

-- ========================================================= grouping

/-- The tokens in a pair of parentheses. -/
def inParens (kinds : List Kind) : List Kind :=
  .symbol .leftParen :: (kinds ++ [.symbol .rightParen])

/-- The tokens of several items with a comma between neighbours. -/
def commas (items : List (List Kind)) : List Kind := [Kind.symbol .comma].intercalate items

@[simp]
theorem commas_singleton (item : List Kind) : commas [item] = item := by
  simp [commas]

theorem commas_cons_cons (item next : List Kind) (later : List (List Kind)) :
    commas (item :: next :: later) = item ++ .symbol .comma :: commas (next :: later) := by
  simp [commas, List.intercalate]

/-- The tokens of an item are among those of the list. -/
theorem mem_commas {k : Kind} {item : List Kind} {items : List (List Kind)}
    (hitem : item ∈ items) (hk : k ∈ item) : k ∈ commas items := by
  induction items with
  | nil => cases hitem
  | cons first later ih =>
      cases later with
      | nil =>
          rw [commas_singleton]
          exact List.mem_singleton.1 hitem ▸ hk
      | cons next later =>
          rw [commas_cons_cons]
          rcases List.mem_cons.1 hitem with rfl | hitem
          · exact List.mem_append_left _ hk
          · exact List.mem_append_right _ (List.mem_cons_of_mem _ (ih hitem))

/-- What holds of a comma and of the tokens of every item holds of those of
the list. -/
theorem forall_commas {P : Kind → Prop} {items : List (List Kind)} (comma : P (.symbol .comma))
    (each : ∀ item ∈ items, ∀ k ∈ item, P k) : ∀ k ∈ commas items, P k := by
  induction items with
  | nil => exact nofun
  | cons first later ih =>
      cases later with
      | nil =>
          rw [commas_singleton]
          exact each first List.mem_cons_self
      | cons next later =>
          rw [commas_cons_cons]
          have tail := ih fun item hitem => each item (List.mem_cons_of_mem _ hitem)
          exact List.forall_mem_append.2
            ⟨each first List.mem_cons_self, List.forall_mem_cons.2 ⟨comma, tail⟩⟩

/-- The tokens of an item are among those of its list in parentheses. -/
theorem mem_inParens_commas {α : Type} {k : Kind} {p : α × List Kind}
    {parts : List (α × List Kind)} (hp : p ∈ parts) (hk : k ∈ p.2) :
    k ∈ inParens (commas (parts.map Prod.snd)) := by
  have inside := mem_commas (List.mem_map_of_mem hp) hk
  simp [inParens, inside]

-- ======================================================== operators

/-- The marks that spell a binary operator. -/
def BinaryOp.marks : BinaryOp → List Mark
  | .eq => [.symbol .eq]
  | .notEq => [.symbol .notEq]
  | .lt => [.symbol .lt]
  | .ltEq => [.symbol .ltEq]
  | .gt => [.symbol .gt]
  | .gtEq => [.symbol .gtEq]
  | .and => [.keyword .AND]
  | .or => [.keyword .OR]
  | .add => [.symbol .plus]
  | .sub => [.symbol .minus]
  | .mul => [.symbol .star]
  | .div => [.symbol .slash]
  | .mod => [.symbol .percent]
  | .pow => [.symbol .caret]
  | .concat => [.symbol .concat]
  | .like => [.keyword .LIKE]
  | .notLike => [.keyword .NOT, .keyword .LIKE]
  | .ilike => [.keyword .ILIKE]
  | .notIlike => [.keyword .NOT, .keyword .ILIKE]
  | .isIn => [.keyword .IN]
  | .notIn => [.keyword .NOT, .keyword .IN]

/-- The marks that spell a unary operator, before or behind its operand. -/
def UnaryOp.marks : UnaryOp → List Mark
  | .neg => [.symbol .minus]
  | .plus => [.symbol .plus]
  | .not => [.keyword .NOT]
  | .isNull => [.keyword .IS, .keyword .NULL]
  | .isNotNull => [.keyword .IS, .keyword .NOT, .keyword .NULL]
  | .isTrue => [.keyword .IS, .keyword .TRUE]
  | .isNotTrue => [.keyword .IS, .keyword .NOT, .keyword .TRUE]
  | .isFalse => [.keyword .IS, .keyword .FALSE]
  | .isNotFalse => [.keyword .IS, .keyword .NOT, .keyword .FALSE]

/-- Whether a unary operator stands before its operand. -/
def UnaryOp.isPrefix : UnaryOp → Bool
  | .neg | .plus | .not => true
  | _ => false

/-- The marks that spell a range test, its `AND` apart. -/
def betweenMarks (negated : Bool) : List Mark :=
  if negated then [.keyword .NOT, .keyword .BETWEEN] else [.keyword .BETWEEN]

/-- The operator of a membership test. -/
def membershipOp (negated : Bool) : BinaryOp := if negated then .notIn else .isIn

namespace Grammar

/-- The marks that spell an operator between operands. -/
def Connective.marks : Connective → List Mark
  | .binary op => op.marks
  | .isIn negated => (membershipOp negated).marks
  | .between negated => betweenMarks negated

/-- The tokens that start an operator between operands are its marks; a
membership test is never read as a plain operator. -/
theorem Connective.marks_of_at? {kind next : Kind} {c : Connective} (h : at? kind next = some c) :
    c ≠ .binary .isIn ∧ c ≠ .binary .notIn ∧
      ((∃ mark, kind = .symbol mark ∧ c.marks = [.symbol mark] ∧ c.width = 1)
        ∨ (∃ word, kind.keyword? = some word ∧ c.marks = [.keyword word] ∧ c.width = 1)
        ∨ ∃ word, kind.keyword? = some .NOT ∧ next.keyword? = some word
          ∧ c.marks = [.keyword .NOT, .keyword word] ∧ c.width = 2) := by
  unfold at? at h
  split at h
  next mark =>
    unfold ofSymbol? at h
    split at h <;> cases h <;> exact ⟨nofun, nofun, Or.inl ⟨_, rfl, rfl, rfl⟩⟩
  next =>
    obtain ⟨word, hword, h⟩ := Option.bind_eq_some_iff.1 h
    unfold ofKeyword? at h
    split at h
    case h_7 =>
      -- `NOT` belongs to the word behind it
      split at h
      case h_5 => cases h
      all_goals
        next hnext =>
          cases h
          exact ⟨nofun, nofun, Or.inr (Or.inr ⟨_, hword, hnext, rfl, rfl⟩)⟩
    case h_8 => cases h
    all_goals
      cases h
      exact ⟨nofun, nofun, Or.inr (Or.inl ⟨_, hword, rfl, rfl⟩)⟩

/-- The token of a prefix operator is its mark. -/
theorem marks_of_prefixOp? {kind : Kind} {op : UnaryOp} (h : prefixOp? kind = some op) :
    op.isPrefix = true ∧ ((∃ mark, kind = .symbol mark ∧ op.marks = [.symbol mark])
      ∨ ∃ word, kind.keyword? = some word ∧ op.marks = [.keyword word]) := by
  unfold prefixOp? at h
  split at h
  next => cases h; exact ⟨rfl, Or.inl ⟨_, rfl, rfl⟩⟩
  next => cases h; exact ⟨rfl, Or.inl ⟨_, rfl, rfl⟩⟩
  next =>
    split at h
    next hword => cases h; exact ⟨rfl, Or.inr ⟨_, hword, rfl⟩⟩
    next => cases h

/-- The words behind `IS` are the other marks of the test. -/
theorem marks_of_testOp? {word : Option Keyword} {negated : Bool} {op : UnaryOp}
    (h : testOp? word negated = some op) :
    op.isPrefix = false ∧ ∃ last, word = some last
      ∧ op.marks = .keyword .IS :: ((if negated then [.keyword .NOT] else [])
        ++ [.keyword last]) := by
  unfold testOp? at h
  split at h
  case h_7 => cases h
  all_goals
    cases h
    exact ⟨rfl, _, rfl, rfl⟩

end Grammar

end SqlSelect
