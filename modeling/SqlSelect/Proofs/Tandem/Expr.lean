/-
Expressions read side by side.

One lemma for every production of types, operands and expressions. Each is
written along the text of its production: what is asked of the current token
has the same answer on both sides, what is taken is taken on both, and the
trees that come out look the same. A change to one production is a change to
its lemma here, and to none of the comparisons that are made with it: a text
beside the kinds of its tokens, two texts with other names or quotes, two
texts that agree up to an error, and a loop beside the same loop with another
bound are all tandems.

# What comes in

The productions that contain expressions are compared for any two parsers of
the expressions in them, which need only be comparable behind the token that
the production takes first (`nested`). The knot is tied in
`tandem_expressionOver`, by the loop over the bounds of both sides.

# Types

The target of a cast is the one place where the grammar looks into a name in
double quotes. Whether types are comparable is therefore up to the tandem
(`Tandem.Types`), and it is asked only behind a token that marks a type. Where
alike tokens are the same it always holds (`Tandem.types_of_exact`).
-/
import SqlSelect.Proofs.Tandem.Basic

namespace SqlSelect

/-- Behind the token stands a type. -/
def Kind.MarksType (kind : Kind) : Prop :=
  kind = .symbol .doubleColon ∨ kind.keyword? = some .AS

namespace Grammar

variable {σ μ π ε τ μ' π' ε' : Type} [Cursor σ μ π ε] [Cursor τ μ' π' ε'] {w : Tandem σ τ}
  {s : σ} {start : Nat}

-- ============================================================== types

/-- What goes on with a second word is one of three words, and the second
word is one of two. -/
theorem words_of_secondWord? {name second : String} (h : secondWord? name = some second) :
    name ∈ typeWords ∧ (second = "precision" ∨ second = "varying") := by
  unfold secondWord? at h
  split at h
  next => exact ⟨by decide, Or.inl (Option.some.inj h).symm⟩
  next => exact ⟨by decide, Or.inr (Option.some.inj h).symm⟩
  next => exact ⟨by decide, Or.inr (Option.some.inj h).symm⟩
  next => exact ⟨by decide, Or.inr (Option.some.inj h).symm⟩
  next => cases h

/-- So the second word is one that counts where it is bare. -/
theorem mem_typeWords_of_secondWord? {name second : String} (h : secondWord? name = some second) :
    second ∈ typeWords := by
  rcases (words_of_secondWord? h).2 with rfl | rfl <;> decide

/-- Which second word there may be is told by the first, and that is the same.
-/
theorem tandem_typeName (hs : w.left.stands s) (first : String) :
    w.At s none? id (typeName first) (typeName first) := by
  unfold typeName
  split
  next => exact .done hs first rfl
  next second belongs =>
    refine .current hs fun k l found alike => ?_
    simp only [← alike.word (mem_typeWords_of_secondWord? belongs)]
    split
    next here => exact .take hs (found.trans here ▸ nofun) rfl (Nat.zero_le 1)
    next => exact .done hs first rfl

/-- A number is no plain name, so it is the same on both sides. -/
theorem tandem_typeModifier (hs : w.left.stands s) :
    w.At s none? id typeModifier typeModifier := by
  refine .current hs fun k l found alike => ?_
  cases alike with
  | plain left right => cases left <;> cases right <;> exact .unexpected hs _
  | same =>
      split
      next => exact .take hs (found ▸ nofun) rfl (Nat.zero_le 1)
      next => exact .unexpected hs _

/-- The numbers of a type are the same numbers. -/
theorem tandem_typeConfig (hs : w.left.stands s) :
    w.At s none? id typeConfig typeConfig := by
  refine (tandem_consume hs .leftParen).share fun found s' hs' _ => ?_
  cases found with
  | true =>
      have modifiers : w.From 0 none? (List.map id) (commaSeparated typeModifier)
          (commaSeparated typeModifier) :=
        tandem_commaSeparated fun s hs _ => tandem_typeModifier hs
      refine (modifiers s' hs' (Nat.zero_le _)).andThen fun as bs u same hu _ => ?_
      rw [List.map_id, List.map_id] at same
      exact .close hu .rightParen (congrArg some same)
  | false => exact .done hs' none rfl

/-- Three tokens are seen at once, none of them a plain name. -/
theorem tandem_zonedName (hs : w.left.stands s) (name : String) :
    w.At s none? id (zonedName name) (zonedName name) := by
  unfold zonedName
  split
  next =>
    refine .peek hs (by decide) fun k l hk h => .peek hs (by decide) fun k' l' hk' h' => ?_
    refine .peek hs (by decide) fun m m' hm h'' => ?_
    subst hk hk' hm
    rw [← h.zone? h' h'']
    split
    next hzone =>
      have passed := Tandem.At.skip (w := w) hs (forall_three (zone?_inner hzone))
      exact passed.map (fun _ _ _ => rfl) fun _ => Nat.zero_le _
    next => exact .done hs name rfl
  next => exact .done hs name rfl

/-- What stands behind the name of a type. -/
theorem tandem_typeTail (hs : w.left.stands s) (name : String) :
    w.At s none? id (typeTail name) (typeTail name) := by
  refine (tandem_typeConfig hs).share fun config s₁ h₁ _ => ?_
  exact (tandem_zonedName h₁ name).share fun zoned s₂ h₂ _ => .done h₂ _ rfl

/-- Behind a token that marks a type, types are comparable. -/
def Tandem.Types (w : Tandem σ τ) : Prop :=
  ∀ s, w.left.stands s → (Cursor.kindAt s 0).MarksType →
    w.At (Cursor.step s) one (DataType.mapName w.view.see) dataType dataType

/-- Tokens that are known to be alike are the same. -/
def Tandem.Exact (w : Tandem σ τ) : Prop :=
  ∀ i, w.near i → w.left.kinds.getD i .eof = w.right.kinds.getD i .eof

/-- A type is compared by its first word and by what stands behind it. Of the
first words more may be known than that they are alike. -/
theorem tandem_dataType {R : Kind → Kind → Prop} (hs : w.left.stands s)
    (itself : R (Cursor.kindAt s 0) (Cursor.kindAt s 0))
    (sight : w.near (Cursor.index s) → ∀ t, w.abreast s t →
      R (Cursor.kindAt s 0) (Cursor.kindAt t 0))
    (named : ∀ l, R (Cursor.kindAt s 0) l →
      (Cursor.kindAt s 0).identifier?.isSome = l.identifier?.isSome)
    (behind : ∀ l x y s', R (Cursor.kindAt s 0) l → (Cursor.kindAt s 0).identifier? = some x →
      l.identifier? = some y → w.left.stands s' → Cursor.index s' = Cursor.index s + 1 →
      w.At s' none? (DataType.mapName w.view.see) (typeName x >>= typeTail)
        (typeName y >>= typeTail)) :
    w.At s one (DataType.mapName w.view.see) dataType dataType := by
  rw [dataType_eq, dataType_eq]
  refine .look itself sight fun k l found related => ?_
  subst found
  have both := named l related
  cases hx : (Cursor.kindAt s 0).identifier? with
  | none =>
      rw [hx] at both
      rw [Option.isSome_eq_false_iff.1 both.symm |> Option.isNone_iff_eq_none.1]
      exact .unexpected hs _
  | some x =>
      rw [hx] at both
      obtain ⟨y, hy⟩ := Option.isSome_iff_exists.1 both.symm
      rw [hy]
      exact .advance (m := none?) hs (ne_eof_of_identifier? hx)
        (fun s' _ hs' moved => behind l x y s' related hx hy hs' moved) fun _ => Nat.le_refl 1

/-- A type with the same first word is the same type. -/
theorem tandem_type (hs : w.left.stands s) (first : String) :
    w.At s none? (DataType.mapName w.view.see) (typeName first >>= typeTail)
      (typeName first >>= typeTail) := by
  refine (tandem_typeName hs first).share fun name s' hs' _ => ?_
  exact (tandem_typeTail hs' name).blur fun _ _ same => congrArg _ same

/-- Where alike tokens are the same, the first word of a type is. -/
theorem Tandem.dataType_of_exact (exact : w.Exact) (hs : w.left.stands s) :
    w.At s one (DataType.mapName w.view.see) dataType dataType := by
  refine tandem_dataType (R := Eq) hs rfl (fun near t abreast => ?_) (fun l same => by rw [same])
    fun l x y s' same hx hy hs' _ => ?_
  · rw [w.left.current hs, w.right.current (w.right_stands abreast), w.index_eq abreast]
    exact exact _ near
  · obtain rfl : x = y := Option.some.inj (hx.symm.trans (same ▸ hy))
    exact tandem_type hs' x

/-- Where alike tokens are the same, types are comparable. -/
theorem Tandem.types_of_exact (exact : w.Exact) : w.Types := by
  intro s hs marks
  have inner : Cursor.kindAt s 0 ≠ .eof := by
    rcases marks with symbol | keyword
    · exact ne_eof_of_symbol symbol
    · exact ne_eof_of_keyword? keyword
  obtain ⟨stands, -⟩ := w.left.step hs inner
  exact w.dataType_of_exact exact stands

-- ========================================================== wildcards

/-- A wildcard is of as many tokens on both sides, and its table looks the
same. -/
theorem tandem_wildcard? (hs : w.left.stands s) :
    w.At s drawn (Option.map (Expr.mapNames w.view.see)) wildcard? wildcard? := by
  refine .peek hs (by decide) fun k l hk h => .peek hs (by decide) fun k' l' hk' h' => ?_
  refine .peek hs (by decide) fun m m' hm h'' => ?_
  subst hk hk' hm
  have found := h.wildcardAt? h' h''
  generalize hleft : wildcardAt? (Cursor.kindAt s 0) (Cursor.kindAt s 1) (Cursor.kindAt s 2) = a
    at found ⊢
  generalize wildcardAt? l l' m' = b at found ⊢
  cases found with
  | none => exact .done hs none rfl
  | @some a b same =>
      obtain ⟨a, width⟩ := a
      obtain ⟨b, width'⟩ := b
      obtain ⟨same, rfl⟩ : a.mapNames w.view.see = b.mapNames w.view.see ∧ width = width' := same
      obtain ⟨some_token, inner⟩ := wildcardAt?_seen hleft
      have passed := Tandem.At.skip (w := w) hs inner
      exact passed.map (fun _ _ _ => congrArg some same) fun _ =>
        Nat.le_trans (drawn_le _) some_token

/-- The star in quotes is refused on both sides. -/
theorem tandem_noQuotedStar (hs : w.left.stands s) :
    w.At s none? id noQuotedStar noQuotedStar := by
  refine .current hs fun k l found alike => ?_
  simp only [← alike.quotedStar]
  split
  next here =>
    exact .position hs (.reject hs _ (Nat.le_refl _) (Or.inr (found.trans here ▸ nofun)))
  next => exact .done hs () rfl

/-- The column behind the point is a name on both sides, keyword or not. -/
theorem tandem_qualified (hs : w.left.stands s) {x y : String}
    (seen : w.view.see x = w.view.see y) :
    w.At s one (Expr.mapNames w.view.see) (qualified x) (qualified y) := by
  refine (tandem_noQuotedStar hs).share fun _ s₁ h₁ _ => .current h₁ fun k l found alike => ?_
  have named := alike.anyName?
  generalize hk : k.anyName? = m at named ⊢
  generalize l.anyName? = n at named ⊢
  cases named with
  | none => exact .unexpected h₁ _
  | some same =>
      refine .take h₁ (ne_eof_of_anyName? (found ▸ hk)) ?_ (Nat.le_refl 1)
      simp [Expr.mapNames, seen, same]

/-- The token has been seen to be the same. -/
theorem tandem_literal (hs : w.left.stands s) (inner : Cursor.kindAt s 0 ≠ .eof) (value : Expr) :
    w.At s one (Expr.mapNames w.view.see) (literal value) (literal value) :=
  .take hs inner rfl (Nat.le_refl 1)

-- ============================================================ nesting

/-- Lists of which the same is seen are both empty or both not. -/
theorem isEmpty_congr {α γ : Type} {see : α → γ} {as bs : List α}
    (h : as.map see = bs.map see) : as.isEmpty = bs.isEmpty := by
  have same := congrArg List.isEmpty h
  rwa [List.isEmpty_map, List.isEmpty_map] at same

section Lists

variable {expr : Nat → ParserOf σ ε Expr} {expr' : Nat → ParserOf τ ε' Expr}
  (nested : ∀ floor, w.From start none? (Expr.mapNames w.view.see) (expr floor) (expr' floor))

include nested

/-- A list of expressions has as many on both sides. -/
theorem tandem_expressionList :
    w.From start none? (List.map (Expr.mapNames w.view.see)) (expressionList expr)
      (expressionList expr') :=
  tandem_commaSeparated (nested 0)

/-- What is seen behind a wildcard decides whether it is refused, and it is in
sight there. -/
theorem tandem_item :
    w.From start none? (Expr.mapNames w.view.see) (item expr) (item expr') := by
  intro s hs reached
  refine .position hs ((tandem_wildcard? hs).andThen fun a b s' same hs' moved => ?_)
  cases a with
  | none =>
      cases b with
      | none => exact nested 0 s' hs' (Nat.le_trans reached moved)
      | some b => cases same
  | some a =>
      cases b with
      | none => cases same
      | some b =>
          refine .peek hs' (by decide) fun k l _ h => .peek hs' (by decide) fun k' l' _ h' => ?_
          rw [← h.continuesOperand h']
          split
          next =>
            exact .position hs' (.reject hs' _ (Nat.le_of_succ_le moved) (Or.inl moved))
          next => exact .pure hs' (Option.some.inj same) rfl

/-- Whether there are any arguments is seen at the parenthesis. -/
theorem tandem_arguments :
    w.From start none? (List.map (Expr.mapNames w.view.see)) (arguments expr)
      (arguments expr') := by
  intro s hs reached
  refine .atSymbol hs .rightParen fun closed _ => ?_
  cases closed with
  | true => exact .done hs [] rfl
  | false => exact tandem_commaSeparated (tandem_item nested) s hs reached

/-- Whether there is an operand is seen at the keyword. -/
theorem tandem_caseOperand :
    w.From start none? (Option.map (Expr.mapNames w.view.see)) (caseOperand expr)
      (caseOperand expr') := by
  intro s hs reached
  refine .atKeyword hs .WHEN fun found => ?_
  cases found with
  | true => exact .done hs none rfl
  | false =>
      exact (nested 0 s hs reached).map (fun _ _ same => congrArg some same) fun _ => Nat.le_refl 0

end Lists

section Productions

variable {expr : Nat → ParserOf σ ε Expr} {expr' : Nat → ParserOf τ ε' Expr}
  (nested : ∀ floor, w.From (start + 1) none? (Expr.mapNames w.view.see) (expr floor)
    (expr' floor))

include nested

/-- The arguments are behind the parenthesis, which is a token of its own. -/
theorem tandem_call (hs : w.left.stands s) (reached : start ≤ Cursor.index s) {f g : Callee}
    (same : f.mapName w.view.see = g.mapName w.view.see) :
    w.At s one (Expr.mapNames w.view.see) (call expr f) (call expr' g) := by
  refine .expect (m := none?) hs .leftParen (fun s₁ h₁ moved => ?_) fun _ => Nat.le_refl 1
  refine (tandem_arguments nested s₁ h₁ (by omega)).andThen fun as bs s₂ args h₂ _ => ?_
  exact .close h₂ .rightParen (by simp [Expr.mapNames, same, args])

/-- A subquery is at fault from the parenthesis on. -/
theorem tandem_inList (hs : w.left.stands s) (reached : start ≤ Cursor.index s) :
    w.At s one (Expr.mapNames w.view.see) (inList expr) (inList expr') := by
  refine .expect (m := none?) hs .leftParen (fun s₁ h₁ moved => ?_) fun _ => Nat.le_refl 1
  have lt : Cursor.index s < Cursor.index s₁ := by omega
  refine .atKeyword h₁ .SELECT fun subquery => ?_
  cases subquery with
  | true => exact .position h₁ (.reject h₁ _ (Nat.le_of_lt lt) (Or.inl lt))
  | false =>
      refine (tandem_expressionList nested s₁ h₁ (by omega)).andThen fun as bs s₂ items h₂ _ => ?_
      exact .close h₂ .rightParen (by simp [Expr.mapNames, items])

/-- A subquery and a wildcard are at fault from the parenthesis on, whatever
stands behind the wildcard. -/
theorem tandem_parenthesized (hs : w.left.stands s) (reached : start ≤ Cursor.index s) :
    w.At s one (Expr.mapNames w.view.see) (parenthesized expr) (parenthesized expr') := by
  refine .expect (m := none?) hs .leftParen (fun s₁ h₁ moved => ?_) fun _ => Nat.le_refl 1
  have lt : Cursor.index s < Cursor.index s₁ := by omega
  refine .atKeyword h₁ .SELECT fun subquery => ?_
  cases subquery with
  | true => exact .position h₁ (.reject h₁ _ (Nat.le_of_lt lt) (Or.inl lt))
  | false =>
      refine (tandem_wildcard? h₁).andThen fun a b s₂ same h₂ further => ?_
      have lt : Cursor.index s < Cursor.index s₂ := by omega
      cases a with
      | none =>
          cases b with
          | none =>
              refine (nested 0 s₂ h₂ (by omega)).andThen fun c d s₃ inner h₃ _ => ?_
              exact .close h₃ .rightParen inner
          | some b => cases same
      | some a =>
          cases b with
          | none => cases same
          | some b =>
              refine .atSymbol h₂ .rightParen fun closed _ => ?_
              cases closed with
              | true => exact .position h₂ (.reject h₂ _ (Nat.le_of_lt lt) (Or.inl lt))
              | false => exact .position h₂ (.reject h₂ _ (Nat.le_of_lt lt) (Or.inl lt))

/-- A plain name behind a name goes on with nothing. A point and a star behind
it are at fault together. -/
theorem tandem_reference (hs : w.left.stands s) (reached : start ≤ Cursor.index s) :
    w.At s one (Expr.mapNames w.view.see) (reference expr) (reference expr') := by
  refine (tandem_noQuotedStar hs).share fun _ s₁ h₁ moved => ?_
  refine (tandem_identifier h₁).lead fun x y s₂ seen h₂ further => ?_
  have column : w.At s₂ none? (Expr.mapNames w.view.see) (pure (.ref none x))
      (pure (.ref none y)) := .pure h₂ (by simp [Expr.mapNames, seen]) rfl
  refine .current h₂ fun k l found alike => ?_
  cases alike with
  | plain left right => cases left <;> cases right <;> exact column
  | same =>
      split
      next =>
        refine (tandem_call nested h₂ (by omega) ?_).ease fun _ => Nat.zero_le 1
        exact congrArg Callee.name seen
      next =>
        have inner : Cursor.kindAt s₂ 0 ≠ .eof := ne_eof_of_symbol found
        refine .position h₂ (.peek h₂ (by decide) fun k l second alike => ?_)
        simp only [← alike.symbol]
        split
        next here =>
          exact .positionAt h₂ 1 (.rejectPair h₂ _ inner (ne_eof_of_symbol (second.trans here)))
        next =>
          exact .advance h₂ inner (fun s₃ _ h₃ _ => tandem_qualified h₃ seen) fun _ => Nat.zero_le _
      next => exact column

/-- An arm of a `CASE` starts with a `WHEN`. -/
theorem tandem_caseArm :
    w.From start drawn (Option.map (Expr.mapNamesArm w.view.see)) (caseArm expr)
      (caseArm expr') := by
  intro s hs reached
  refine (tandem_consumeKeyword hs .WHEN).bindSame (m := fun found arm => drawn arm - taken found)
    (fun found s₁ h₁ moved => ?_) fun found arm => by omega
  cases found with
  | true =>
      have passed : Cursor.index s + 1 ≤ Cursor.index s₁ := moved
      refine (nested 0 s₁ h₁ (by omega)).andThen fun a b s₂ condition h₂ _ => ?_
      refine (tandem_expectKeyword h₂ .THEN).share fun _ s₃ h₃ _ => ?_
      exact (nested 0 s₃ h₃ (by omega)).map
        (fun c d value => congrArg some (Prod.ext condition value)) fun _ => Nat.le_refl 0
  | false => exact .done h₁ none rfl

/-- Arms are read as long as there are any, with two bounds that suffice. -/
theorem tandem_caseArms {n m : Nat} (bounds : w.Bounds start n m True) :
    w.From start none? (List.map (Expr.mapNamesArm w.view.see)) (caseArms expr n)
      (caseArms expr' m) := by
  rw [caseArms_eq_collect, caseArms_eq_collect]
  refine .collect (tandem_caseArm nested) (bounds.imp_left fun ⟨same, _⟩ => ⟨same, ?_⟩)
  exact fun s hs _ => .done hs [] rfl

/-- Both sides have arms or neither does, since as many are read on both. -/
theorem tandem_case (hs : w.left.stands s) (reached : start ≤ Cursor.index s) :
    w.At s one (Expr.mapNames w.view.see) (case expr) (case expr') := by
  refine (tandem_expectKeyword hs .CASE).lead fun _ _ s₁ _ h₁ moved => ?_
  have behind (floor : Nat) : w.From (Cursor.index s₁) none? (Expr.mapNames w.view.see)
      (expr floor) (expr' floor) := (nested floor).mono (by omega)
  refine (tandem_caseOperand behind s₁ h₁ (Nat.le_refl _)).andThen
    fun a b s₂ operand h₂ further => ?_
  refine .tokensLeft h₂ fun n m left right => ?_
  have bounds : w.Bounds (Cursor.index s₂) n m True := Or.inr ⟨left, right⟩
  have arms := tandem_caseArms (fun floor => (behind floor).mono (by omega)) bounds s₂ h₂
    (Nat.le_refl _)
  refine arms.andThen fun as bs s₃ arms h₃ last => ?_
  rw [isEmpty_congr arms]
  split
  next => exact .unexpected h₃ _
  next =>
    refine (tandem_clause h₃ .ELSE ((behind 0).mono (by omega))).andThen
      fun c d s₄ otherwise h₄ _ => ?_
    refine (tandem_expectKeyword h₄ .END).share fun _ s₅ h₅ _ => .pure h₅ ?_ rfl
    simp [Expr.mapNames, operand, arms, otherwise]

variable (types : w.Types)

include types

/-- The type is behind its `AS`, which marks it. -/
theorem tandem_cast (hs : w.left.stands s) (reached : start ≤ Cursor.index s) :
    w.At s one (Expr.mapNames w.view.see) (cast expr) (cast expr') := by
  refine (tandem_expectKeyword hs .CAST).lead fun _ _ s₁ _ h₁ moved => ?_
  refine .expect (m := none?) h₁ .leftParen (fun s₂ h₂ further => ?_) fun _ => Nat.zero_le _
  refine (nested 0 s₂ h₂ (by omega)).andThen fun a b s₃ operand h₃ _ => ?_
  rw [expectKeyword_eq, expectKeyword_eq, bind_assoc, bind_assoc]
  refine .current h₃ fun k l found alike => ?_
  rw [← alike.keyword?]
  split
  next here =>
    rw [bind_assoc, bind_assoc]
    have marks : (Cursor.kindAt s₃ 0).keyword? = some .AS := found ▸ here
    refine .advance (m := none?) h₃ (ne_eof_of_keyword? marks) (fun s₄ next h₄ _ => ?_)
      fun _ => Nat.zero_le _
    rw [pure_bind, pure_bind]
    subst next
    refine (types s₃ h₃ (Or.inr marks)).andThen fun m n s₅ target h₅ _ => ?_
    exact .close h₅ .rightParen (by simp [Expr.mapNames, operand, target])
  next =>
    rw [unexpected_bind, unexpected_bind]
    exact .unexpected h₃ _

/-- The word is the same on both sides, and what it starts is. -/
theorem tandem_wordOperand (hs : w.left.stands s) (reached : start ≤ Cursor.index s)
    {word : String} (here : Cursor.kindAt s 0 = .word word) :
    w.At s one (Expr.mapNames w.view.see) (wordOperand expr word) (wordOperand expr' word) := by
  have inner : Cursor.kindAt s 0 ≠ .eof := here ▸ nofun
  unfold wordOperand
  split
  next => exact tandem_literal hs inner _
  next => exact tandem_literal hs inner _
  next => exact tandem_literal hs inner _
  next => exact tandem_case nested hs reached
  next => exact tandem_cast nested types hs reached
  next =>
    refine .peek hs (by decide) fun k l _ alike => ?_
    simp only [← alike.symbol]
    split
    next =>
      refine .advance (m := none?) hs inner (fun s' _ hs' moved => ?_) fun _ => Nat.le_refl 1
      exact (tandem_call nested hs' (by omega) rfl).ease fun _ => Nat.zero_le 1
    next =>
      split
      next => exact .unexpected hs _
      next => exact tandem_reference nested hs reached
  next => exact tandem_reference nested hs reached

omit nested types in
/-- A word that spells no keyword starts a reference, as a quoted name does. -/
theorem wordOperand_of_free {word : String} (free : Keyword.ofWord? word = none)
    (expr : Nat → ParserOf σ ε Expr) : wordOperand expr word = reference expr := by
  unfold wordOperand
  rw [free]

/-- A plain name starts a reference, and any other token is the same. -/
theorem tandem_operand (hs : w.left.stands s) (reached : start ≤ Cursor.index s) :
    w.At s one (Expr.mapNames w.view.see) (operand expr) (operand expr') := by
  refine .current hs fun k l found alike => ?_
  cases alike with
  | plain left right =>
      -- bare or in quotes, a plain name starts a reference
      have both := tandem_reference nested hs reached
      cases left <;> cases right <;> simp_all [wordOperand_of_free]
  | same =>
      cases k with
      | integer | numeric | string | parameter => exact tandem_literal hs (found ▸ nofun) _
      | quoted name => exact tandem_reference nested hs reached
      | word word => exact tandem_wordOperand nested types hs reached found
      | eof => exact .unexpected hs _
      | symbol mark =>
          cases mark with
          | leftParen => exact tandem_parenthesized nested hs reached
          | star =>
              exact .position hs (.reject hs _ (Nat.le_refl _) (Or.inr (ne_eof_of_symbol found)))
          | _ => exact .unexpected hs _

/-- The operand of a prefix operator is behind that operator. -/
theorem tandem_prefixed (hs : w.left.stands s) (reached : start ≤ Cursor.index s) :
    w.At s one (Expr.mapNames w.view.see) (prefixed expr) (prefixed expr') := by
  refine .current hs fun k l found alike => ?_
  rw [← alike.prefixOp?]
  split
  next op hop =>
    refine .advance (m := none?) hs (ne_eof_of_prefixOp? (found ▸ hop)) (fun s' _ hs' moved => ?_)
      fun _ => Nat.le_refl 1
    refine (nested op.tier.rank s' hs' (by omega)).map (fun a b operand => ?_)
      fun _ => Nat.le_refl 0
    rw [Expr.mapNames_applyPrefix, Expr.mapNames_applyPrefix, operand]
  next => exact tandem_operand nested types hs reached

-- ======================================================== operators

omit nested types

variable {left right : Expr} (operands : left.mapNames w.view.see = right.mapNames w.view.see)

include operands

/-- A word behind `IS` is no plain name. -/
theorem tandem_test (hs : w.left.stands s) :
    w.At s one (Expr.mapNames w.view.see) (test left) (test right) := by
  refine (tandem_consumeKeyword hs .NOT).share fun negated s' hs' _ => ?_
  refine .current hs' fun k l found alike => ?_
  rw [← alike.keyword?]
  split
  next op hop =>
    refine .take hs' (ne_eof_of_testOp? (found ▸ hop)) ?_ (Nat.le_refl 1)
    simp [Expr.mapNames, operands]
  next => exact .unexpected hs' _

include types

/-- The type of a cast is behind its mark. -/
theorem tandem_applyPostfix (hs : w.left.stands s) :
    w.At s one (Expr.mapNames w.view.see) (applyPostfix left) (applyPostfix right) := by
  rw [applyPostfix_eq, applyPostfix_eq]
  refine .current hs fun k l found alike => ?_
  simp only [← alike.symbol]
  split
  next here =>
    have marks := found.trans here
    refine .advance (m := none?) hs (ne_eof_of_symbol marks) (fun s₁ next h₁ _ => ?_)
      fun _ => Nat.le_refl 1
    subst next
    refine (types s hs (Or.inl marks)).map (fun m n target => ?_) fun _ => Nat.zero_le 1
    simp [Expr.mapNames, operands, target]
  next =>
    exact (tandem_expectKeyword hs .IS).lead fun _ _ s₁ _ h₁ _ =>
      (tandem_test operands h₁).ease fun _ => Nat.zero_le 1

omit types

include nested

/-- The operands are as far behind as the operator takes tokens. -/
theorem tandem_applyConnective (connective : Connective) :
    w.From (start + 1) none? (Expr.mapNames w.view.see) (applyConnective expr connective left)
      (applyConnective expr' connective right) := by
  intro s hs reached
  cases connective with
  | binary op =>
      refine (nested _ s hs reached).map (fun a b other => ?_) fun _ => Nat.le_refl 0
      simp [Expr.mapNames, operands, other]
  | isIn negated =>
      refine (tandem_inList nested hs (by omega)).map (fun a b items => ?_) fun _ => Nat.zero_le 1
      simp [Expr.mapNames, operands, items]
  | between negated =>
      refine (nested _ s hs reached).andThen fun a b s₁ low h₁ _ => ?_
      refine (tandem_expectKeyword h₁ .AND).share fun _ s₂ h₂ _ => ?_
      refine (nested _ s₂ h₂ (by omega)).map (fun c d high => ?_) fun _ => Nat.le_refl 0
      simp [Expr.mapNames, operands, low, high]

include types

/-- One or two tokens decide on an operator, and both are in sight. -/
theorem tandem_extend? (floor : Nat) :
    w.From start drawn (Option.map (Expr.mapNames w.view.see)) (extend? expr floor left)
      (extend? expr' floor right) := by
  intro s hs reached
  rw [extend?_eq, extend?_eq]
  refine .current hs fun k l hk h => ?_
  rw [← h.postfixTier?]
  split
  next =>
    split
    next => exact .done hs none rfl
    next =>
      exact (tandem_applyPostfix types operands hs).map (fun _ _ same => congrArg some same)
        fun _ => Nat.le_refl 1
  next =>
    refine .peek hs (by decide) fun k' l' hk' h' => ?_
    rw [← h.connective h']
    split
    next => exact .done hs none rfl
    next connective hfound =>
      split
      next => exact .done hs none rfl
      next =>
        subst hk hk'
        obtain ⟨some_token, inner⟩ := Connective.seen hfound
        refine (Tandem.At.skip hs inner).bindSame (m := fun _ => none?) (fun _ s₁ h₁ moved => ?_)
          fun _ found => Nat.le_trans (drawn_le found) some_token
        have longer := tandem_applyConnective nested operands connective s₁ h₁ (by omega)
        exact longer.map (fun _ _ same => congrArg some same) fun _ => Nat.zero_le _

/-- Every round passes an operator. -/
theorem tandem_iterate_extend? {stuck : Expr → ParserOf σ ε Expr}
    {stuck' : Expr → ParserOf τ ε' Expr} {n m : Nat}
    (bounds : w.Bounds start n m (∀ c d, c.mapNames w.view.see = d.mapNames w.view.see →
      w.From start none? (Expr.mapNames w.view.see) (stuck c) (stuck' d))) (floor : Nat) :
    w.From start none? (Expr.mapNames w.view.see)
      (iterate stuck (extend? expr floor) n left)
      (iterate stuck' (extend? expr' floor) m right) :=
  .iterate (fun _ _ same => tandem_extend? nested types same floor) bounds operands

end Productions

-- =========================================================== the knot

/-- What two expressions answer with no round left is comparable. -/
def Tandem.Answers (w : Tandem σ τ) (start : Nat) (spent : Nat → ParserOf σ ε Expr)
    (spent' : Nat → ParserOf τ ε' Expr) (stuck : Expr → ParserOf σ ε Expr)
    (stuck' : Expr → ParserOf τ ε' Expr) : Prop :=
  (∀ floor, w.From start one (Expr.mapNames w.view.see) (spent floor) (spent' floor))
    ∧ ∀ c d, c.mapNames w.view.see = d.mapNames w.view.see →
      w.From start none? (Expr.mapNames w.view.see) (stuck c) (stuck' d)

section Knot

variable (types : w.Types) {spent : Nat → ParserOf σ ε Expr} {spent' : Nat → ParserOf τ ε' Expr}
  {stuck : Expr → ParserOf σ ε Expr} {stuck' : Expr → ParserOf τ ε' Expr} {n m : Nat}

include types

/-- Every nested expression is behind a token of its own. -/
theorem tandem_expressionOver
    (bounds : w.Bounds start n m (w.Answers start spent spent' stuck stuck')) (floor : Nat) :
    w.From start one (Expr.mapNames w.view.see) (expressionOver spent stuck n floor)
      (expressionOver spent' stuck' m floor) := by
  refine .loop id (fun answers c d same => ?_) ?_ bounds rfl
  · obtain rfl : c = d := same
    exact answers.1 c
  -- a round reads the first operand and then all operators behind it
  · intro n m later le bounds rest c d same s hs reached
    obtain rfl : c = d := same
    have nested (floor : Nat) := (rest floor floor rfl).eased
    refine (tandem_prefixed nested types hs reached).lead fun a b s' operands hs' moved => ?_
    have further (floor : Nat) := (nested floor).mono (Nat.le_succ (later + 1))
    refine tandem_iterate_extend? further types operands ?_ c s' hs'
      (Nat.le_trans (Nat.succ_le_succ reached) moved)
    exact bounds.imp_left fun ⟨same, answers⟩ => ⟨same, fun c d same =>
      (answers.2 c d same).mono (Nat.le_succ_of_le le)⟩

/-- Without a round left, an expression is missing on both sides. -/
theorem tandem_expressionWithin (bounds : w.Bounds start n m True) (floor : Nat) :
    w.From start one (Expr.mapNames w.view.see) (expressionWithin n floor)
      (expressionWithin m floor) := by
  rw [expressionWithin_eq_over, expressionWithin_eq_over]
  refine tandem_expressionOver types (bounds.imp_left fun ⟨same, _⟩ => ⟨same, ?_, ?_⟩) floor
  · exact fun _ s hs _ => .unexpected hs _
  · exact fun c d same s hs _ => .pure hs same rfl

/-- An expression has a round for every token left. -/
theorem tandem_expression (floor : Nat) :
    w.From start one (Expr.mapNames w.view.see) (expression floor) (expression floor) := by
  intro s hs _
  refine .tokensLeft hs fun n m left right => ?_
  exact tandem_expressionWithin types (Or.inr ⟨left, right⟩) floor s hs (Nat.le_refl _)

end Knot

end Grammar

end SqlSelect
