/-
The names in a statement, seen another way.

`mapNames` replaces every name of a tree, be it of a column, a table, a
schema, a function or a type, or an alias, and leaves the rest alone; a
keyword that is called and a parameter are no names. Trees that differ in
names only are those that agree once all names are made the same.
-/
import SqlSelect.Grammar.Expr
import SqlSelect.Proofs.Tree

namespace SqlSelect

-- ============================================================ names

/-- The function called, under another name. -/
def Callee.mapName (f : String → String) : Callee → Callee
  | .name function => .name (f function)
  | .keyword word => .keyword word

/-- The type under another name. -/
def DataType.mapName (f : String → String) (t : DataType) : DataType :=
  { t with name := f t.name }

namespace Expr

mutual

/-- The expression with its names seen another way. -/
def mapNames (f : String → String) : Expr → Expr
  | .ref table name => .ref (table.map f) (f name)
  | .call function args => .call (function.mapName f) (mapNamesList f args)
  | .binary op left right => .binary op (left.mapNames f) (right.mapNames f)
  | .unary op operand => .unary op (operand.mapNames f)
  | .between negated value low high =>
    .between negated (value.mapNames f) (low.mapNames f) (high.mapNames f)
  | .cast operand target => .cast (operand.mapNames f) (target.mapName f)
  | .case operand arms otherwise =>
    .case (mapNamesOption f operand) (mapNamesArms f arms) (mapNamesOption f otherwise)
  | .list items => .list (mapNamesList f items)
  | leaf => leaf

/-- The names in a list of expressions. -/
def mapNamesList (f : String → String) : List Expr → List Expr
  | [] => []
  | e :: later => e.mapNames f :: mapNamesList f later

/-- The names in an expression that may be absent. -/
def mapNamesOption (f : String → String) : Option Expr → Option Expr
  | none => none
  | some e => some (e.mapNames f)

/-- The names in the arms of a `CASE`. -/
def mapNamesArms (f : String → String) : List (Expr × Expr) → List (Expr × Expr)
  | [] => []
  | (condition, value) :: later =>
    (condition.mapNames f, value.mapNames f) :: mapNamesArms f later

end

/-- The names in an arm of a `CASE`. -/
def mapNamesArm (f : String → String) (arm : Expr × Expr) : Expr × Expr :=
  (arm.1.mapNames f, arm.2.mapNames f)

variable (f g : String → String)

/-- Of a list it maps the items. -/
@[simp]
theorem mapNamesList_eq (es : List Expr) : mapNamesList f es = es.map (mapNames f) := by
  induction es with
  | nil => rfl
  | cons e es ih => rw [mapNamesList, ih, List.map_cons]

/-- And of what may be missing what is there. -/
@[simp]
theorem mapNamesOption_eq (o : Option Expr) : mapNamesOption f o = o.map (mapNames f) := by
  cases o <;> rfl

/-- And of the arms of a `CASE` both sides. -/
@[simp]
theorem mapNamesArms_eq (arms : List (Expr × Expr)) :
    mapNamesArms f arms = arms.map (mapNamesArm f) := by
  induction arms with
  | nil => rfl
  | cons arm arms ih =>
      obtain ⟨condition, value⟩ := arm
      rw [mapNamesArms, ih, List.map_cons]
      rfl

end Expr

/-- The entry of the select list with its names seen another way. -/
def Column.mapNames (f : String → String) (c : Column) : Column :=
  ⟨c.expr.mapNames f, c.aliasName.map f⟩

/-- The join with the names in its condition seen another way. -/
def Join.mapNames (f : String → String) (j : Join) : Join := ⟨j.type, j.on.mapNames f⟩

/-- The sort key with its names seen another way. -/
def SortKey.mapNames (f : String → String) (key : SortKey) : SortKey :=
  ⟨key.expr.mapNames f, key.direction⟩

mutual

/-- The statement with its names seen another way. -/
def Select.mapNames (f : String → String) : Select → Select
  | ⟨distinct, columns, sources, filter, groups, having, order, limit⟩ =>
    { distinct
      columns := columns.map (List.map (Column.mapNames f))
      sources := mapSourceListNames f sources
      filter := filter.map (Expr.mapNames f)
      groups := groups.map (List.map (Expr.mapNames f))
      having := having.map (Expr.mapNames f)
      order := order.map (List.map (SortKey.mapNames f))
      limit }

/-- The entry of the `FROM` list with its names seen another way. -/
def Source.mapNames (f : String → String) : Source → Source
  | .table name schema aliasName join =>
    .table (f name) (schema.map f) (aliasName.map f) (join.map (Join.mapNames f))
  | .derived statement aliasName join =>
    .derived (statement.mapNames f) (f aliasName) (join.map (Join.mapNames f))

/-- The names in a `FROM` list that may be absent. -/
def mapSourceListNames (f : String → String) : Option (List Source) → Option (List Source)
  | none => none
  | some entries => some (mapSourceNames f entries)

/-- The names in a `FROM` list. -/
def mapSourceNames (f : String → String) : List Source → List Source
  | [] => []
  | entry :: later => entry.mapNames f :: mapSourceNames f later

end

section Lists

variable (f : String → String)

/-- Entries of `FROM` are mapped one by one. -/
@[simp]
theorem mapSourceNames_eq (entries : List Source) :
    mapSourceNames f entries = entries.map (Source.mapNames f) := by
  induction entries with
  | nil => rfl
  | cons entry entries ih => rw [mapSourceNames, ih, List.map_cons]

/-- The clause is mapped if it is there. -/
@[simp]
theorem mapSourceListNames_eq (entries : Option (List Source)) :
    mapSourceListNames f entries = entries.map (List.map (Source.mapNames f)) := by
  cases entries with
  | none => rfl
  | some entries => rw [mapSourceListNames, mapSourceNames_eq, Option.map_some]

end Lists

/-- The statement without its names: each is replaced by the empty one. -/
def Select.nameless (s : Select) : Select := s.mapNames fun _ => ""

-- ============================================================= laws

/-- Items that are mapped to themselves make a list that is. -/
theorem mapList_self {α : Type} {f : α → α} {as : List α} (h : ∀ a ∈ as, f a = a) :
    as.map f = as := by
  rw [List.map_congr_left h, List.map_id']

/-- What is mapped to itself where it is there is the same. -/
theorem mapOption_self {α : Type} {f : α → α} {o : Option α} (h : ∀ a ∈ o, f a = a) :
    o.map f = o := by
  cases o with
  | none => rfl
  | some a => rw [Option.map_some, h a rfl]

@[simp]
theorem Callee.mapName_id (c : Callee) : c.mapName id = c := by cases c <;> rfl

@[simp]
theorem Callee.mapName_mapName (f g : String → String) (c : Callee) :
    (c.mapName f).mapName g = c.mapName (g ∘ f) := by cases c <;> rfl

namespace Expr

/-- What holds of the children of a `CASE` holds of its three parts. -/
theorem forall_children_case {P : Expr → Prop} {operand otherwise : Option Expr}
    {arms : List (Expr × Expr)}
    (h : ∀ x ∈ (Expr.case operand arms otherwise).children, P x) :
    (∀ x ∈ operand, P x) ∧ (∀ arm ∈ arms, P arm.1 ∧ P arm.2) ∧ ∀ x ∈ otherwise, P x := by
  refine ⟨fun x hx => h x ?_, fun arm harm => ⟨h _ ?_, h _ ?_⟩, fun x hx => h x ?_⟩
  · exact List.mem_append_left _ (List.mem_append_left _ (Option.mem_toList.2 hx))
  · exact mem_children_of_arm harm List.mem_cons_self
  · exact mem_children_of_arm harm (List.mem_cons_of_mem _ List.mem_cons_self)
  · exact List.mem_append_right _ (Option.mem_toList.2 hx)

/-- Names that are seen as they are make no difference. -/
@[simp]
theorem mapNames_id (e : Expr) : e.mapNames id = e := by
  induction e using childInduction with
  | step e ih =>
  cases e with
  | call function args =>
      have items : args.map (mapNames id) = args := mapList_self ih
      simp [mapNames, items]
  | list items =>
      have items : items.map (mapNames id) = items := mapList_self ih
      simp [mapNames, items]
  | case operand arms otherwise =>
      obtain ⟨first, both, last⟩ := forall_children_case ih
      have arm : ∀ arm ∈ arms, mapNamesArm id arm = arm := fun arm harm =>
        Prod.ext (both arm harm).1 (both arm harm).2
      simp [mapNames, mapOption_self first, mapList_self arm, mapOption_self last]
  | cast operand target =>
      have inner : operand.mapNames id = operand := ih operand (List.mem_singleton_self _)
      rw [mapNames, inner]
      rfl
  | _ => simp_all [mapNames, children]

/-- So nothing is lost by the names staying as they are. -/
theorem mapNames_id_injective : Function.Injective (mapNames id) := fun a b same => by
  rwa [mapNames_id, mapNames_id] at same

/-- Names seen one way after the other. -/
@[simp]
theorem mapNames_mapNames (f g : String → String) (e : Expr) :
    (e.mapNames f).mapNames g = e.mapNames (g ∘ f) := by
  induction e using childInduction with
  | step e ih =>
  cases e with
  | call function args =>
      have items : ∀ e ∈ args, (e.mapNames f).mapNames g = e.mapNames (g ∘ f) := ih
      simpa [mapNames] using items
  | list items =>
      have items : ∀ e ∈ items, (e.mapNames f).mapNames g = e.mapNames (g ∘ f) := ih
      simpa [mapNames] using items
  | case operand arms otherwise =>
      obtain ⟨first, both, last⟩ := forall_children_case ih
      simp only [mapNames, mapNamesOption_eq, mapNamesArms_eq, List.map_map, Option.map_map,
        case.injEq]
      refine ⟨Option.map_congr first, List.map_congr_left fun arm harm => ?_,
        Option.map_congr last⟩
      exact Prod.ext (both arm harm).1 (both arm harm).2
  | cast operand target =>
      have inner := ih operand (List.mem_singleton_self _)
      rw [mapNames, mapNames, inner]
      rfl
  | _ => simp_all [mapNames, children]

/-- What looks like a column under other names is one. -/
theorem ref_of_mapNames {f : String → String} {e : Expr} {table : Option String} {name : String}
    (h : e.mapNames f = .ref table name) :
    ∃ t n, e = .ref t n ∧ t.map f = table ∧ f n = name := by
  cases e with
  | ref t n =>
      rw [mapNames] at h
      injection h with htable hname
      exact ⟨t, n, rfl, htable, hname⟩
  | _ => simp [mapNames] at h

/-- Where the star can be told from other names, so can a wildcard from other
expressions. -/
theorem isWildcard_congr {f : String → String}
    (star : ∀ x y, f x = f y → (x = Expr.star ↔ y = Expr.star)) {a b : Expr}
    (h : a.mapNames f = b.mapNames f) : a.isWildcard = b.isWildcard := by
  have one {a b : Expr} (h : a.mapNames f = b.mapNames f) (wild : a.isWildcard = true) :
      b.isWildcard = true := by
    unfold isWildcard at wild
    split at wild
    next table name =>
      rw [mapNames] at h
      obtain ⟨t, n, rfl, -, hname⟩ := ref_of_mapNames h.symm
      exact beq_iff_eq.2 ((star n name hname).2 (eq_of_beq wild))
    next => cases wild
  exact Bool.eq_iff_iff.2 ⟨one h, one h.symm⟩

open Grammar (applyPrefix)

/-- A prefix operator does not look at names. -/
theorem mapNames_applyPrefix (f : String → String) (op : UnaryOp) (e : Expr) :
    (applyPrefix op e).mapNames f = applyPrefix op (e.mapNames f) := by
  cases op with
  | neg =>
      cases e with
      | integer value =>
          show (if _ then _ else _ : Expr).mapNames f = if _ then _ else _
          split <;> rfl
      | _ => simp [applyPrefix, mapNames]
  | _ => simp [applyPrefix, mapNames]

end Expr

-- Both laws for what holds expressions; statements and entries by one
-- induction over the entries.

@[simp]
theorem Column.mapNames_id : Column.mapNames id = id := by
  funext c
  simp [mapNames]

@[simp]
theorem Column.mapNames_comp (f g : String → String) :
    Column.mapNames g ∘ Column.mapNames f = Column.mapNames (g ∘ f) := by
  funext c
  simp [mapNames]

@[simp]
theorem Join.mapNames_id : Join.mapNames id = id := by
  funext j
  simp [mapNames]

@[simp]
theorem Join.mapNames_comp (f g : String → String) :
    Join.mapNames g ∘ Join.mapNames f = Join.mapNames (g ∘ f) := by
  funext j
  simp [mapNames]

@[simp]
theorem SortKey.mapNames_id : SortKey.mapNames id = id := by
  funext key
  simp [mapNames]

@[simp]
theorem SortKey.mapNames_comp (f g : String → String) :
    SortKey.mapNames g ∘ SortKey.mapNames f = SortKey.mapNames (g ∘ f) := by
  funext key
  simp [mapNames]

/-- A statement is mapped to itself if the entries of its `FROM` list are. -/
theorem Select.mapNames_id_of_sources {s : Select}
    (h : ∀ entries, s.sources = some entries → ∀ x ∈ entries, x.mapNames id = x) :
    s.mapNames id = s := by
  obtain ⟨distinct, columns, sources, filter, groups, having, order, limit⟩ := s
  have inner : sources.map (List.map (Source.mapNames id)) = sources :=
    mapOption_self fun entries given => mapList_self (h entries given)
  have exprs : Expr.mapNames id = id := funext Expr.mapNames_id
  simp [mapNames, inner, exprs]

/-- An entry whose names stay is the same. -/
@[simp]
theorem Source.mapNames_id (entry : Source) : entry.mapNames id = entry := by
  induction entry using Source.entryInduction with
  | table name schema aliasName join => simp [mapNames]
  | derived statement aliasName join ih =>
      rw [mapNames, Select.mapNames_id_of_sources ih]
      simp

/-- So is a statement. -/
@[simp]
theorem Select.mapNames_id (s : Select) : s.mapNames id = s :=
  mapNames_id_of_sources fun _ _ x _ => x.mapNames_id

/-- And nothing is lost in it. -/
theorem Select.mapNames_id_injective : Function.Injective (Select.mapNames id) :=
  fun a b same => by rwa [mapNames_id, mapNames_id] at same

/-- To map names twice is to map them once, if it is so in the `FROM` list. -/
theorem Select.mapNames_mapNames_of_sources (f g : String → String) {s : Select}
    (h : ∀ entries, s.sources = some entries →
      ∀ x ∈ entries, (x.mapNames f).mapNames g = x.mapNames (g ∘ f)) :
    (s.mapNames f).mapNames g = s.mapNames (g ∘ f) := by
  obtain ⟨distinct, columns, sources, filter, groups, having, order, limit⟩ := s
  have inner : (sources.map (List.map (Source.mapNames f))).map (List.map (Source.mapNames g))
      = sources.map (List.map (Source.mapNames (g ∘ f))) := by
    rw [Option.map_map]
    refine Option.map_congr fun entries given => ?_
    rw [Function.comp_apply, List.map_map]
    exact List.map_congr_left (h entries given)
  have exprs : Expr.mapNames g ∘ Expr.mapNames f = Expr.mapNames (g ∘ f) :=
    funext (Expr.mapNames_mapNames f g)
  have lists {α : Type} (p q : α → α) : List.map q ∘ List.map p = List.map (q ∘ p) :=
    funext fun as => List.map_map
  simp [mapNames, inner, exprs, lists]

/-- To map the names of an entry twice is to map them once. -/
@[simp]
theorem Source.mapNames_mapNames (f g : String → String) (entry : Source) :
    (entry.mapNames f).mapNames g = entry.mapNames (g ∘ f) := by
  induction entry using Source.entryInduction with
  | table name schema aliasName join => simp [mapNames]
  | derived statement aliasName join ih =>
      rw [mapNames, mapNames, Select.mapNames_mapNames_of_sources f g ih, mapNames]
      simp

/-- The same for a statement. -/
@[simp]
theorem Select.mapNames_mapNames (f g : String → String) (s : Select) :
    (s.mapNames f).mapNames g = s.mapNames (g ∘ f) :=
  mapNames_mapNames_of_sources f g fun _ _ x _ => x.mapNames_mapNames f g

/-- However names are seen first, without names a statement is the same. -/
theorem Select.nameless_mapNames (f : String → String) (s : Select) :
    (s.mapNames f).nameless = s.nameless := by
  unfold nameless
  rw [mapNames_mapNames]
  rfl

/-- A join is put on an entry whatever its names. -/
theorem Source.mapNames_withJoin (f : String → String) (entry : Source) (join : Join) :
    (entry.withJoin join).mapNames f = (entry.mapNames f).withJoin (join.mapNames f) := by
  cases entry <;> rfl

end SqlSelect
