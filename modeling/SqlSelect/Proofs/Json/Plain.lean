/-
Statements as plain JSON: no null anywhere, no key twice in one object.

`Json.Within` is how one value stands in another, at any depth, and what
stands in a plain value is plain. Every object written here has its members
in a fixed order, some of them left out: `Json.Listed` says so of a list of
members, built up as the list itself is, and the keys are then distinct
because those of the fixed order are.
-/
import SqlSelect.Statement.Json
import SqlSelect.Proofs.Tree

namespace SqlSelect

namespace Json

/-- The first value is the second or stands in it, at any depth. -/
inductive Within : Json → Json → Prop where
  | self (value : Json) : Within value value
  | item {part value : Json} {items : List Json} (mem : value ∈ items)
      (deeper : Within part value) : Within part (.arr items)
  | member {part value : Json} {key : String} {members : List (String × Json)}
      (mem : (key, value) ∈ members) (deeper : Within part value) : Within part (.obj members)

/-- No null in the value, and no key twice in an object of it. -/
inductive Plain : Json → Prop where
  | bool (value : Bool) : Plain (.bool value)
  | int (value : Int) : Plain (.int value)
  | real (value : Double) : Plain (.real value)
  | str (value : String) : Plain (.str value)
  | arr {items : List Json} (each : ∀ item ∈ items, Plain item) : Plain (.arr items)
  | obj {members : List (String × Json)} (keys : (members.map Prod.fst).Nodup)
      (values : ∀ member ∈ members, Plain member.2) : Plain (.obj members)

/-- What stands in a plain value is plain. -/
theorem Plain.of_within {part value : Json} (plain : Plain value) (within : Within part value) :
    Plain part := by
  induction within with
  | self => exact plain
  | item mem _ ih =>
      cases plain with
      | arr each => exact ih (each _ mem)
  | member mem _ ih =>
      cases plain with
      | obj _ values => exact ih (values _ mem)

/-- There is no null in a plain value. -/
theorem Plain.not_null_within {value : Json} (plain : Plain value) : ¬Within .null value :=
  fun within => nomatch plain.of_within within

/-- The keys of an object in a plain value are distinct. -/
theorem Plain.nodup_keys {value : Json} (plain : Plain value) {members : List (String × Json)}
    (within : Within (.obj members) value) : (members.map Prod.fst).Nodup := by
  cases plain.of_within within with
  | obj keys => exact keys

/-- Written one by one, values are plain if each of them is. -/
theorem Plain.arr_map {α : Type} {write : α → Json} {xs : List α}
    (plain : ∀ x ∈ xs, Plain (write x)) : Plain (.arr (xs.map write)) := by
  refine .arr fun item mem => ?_
  obtain ⟨x, hx, rfl⟩ := List.mem_map.1 mem
  exact plain x hx

-- ========================================================= members

/-- Plain members with some of the given keys, in the order given. -/
structure Listed (keys : List String) (members : List (String × Json)) : Prop where
  keys : (members.map Prod.fst).Sublist keys
  values : ∀ member ∈ members, Plain member.2

namespace Listed

/-- No members are listed under no keys. -/
theorem nil : Listed [] [] := ⟨.slnil, nofun⟩

/-- A member is listed under its key, before those of the later keys. -/
theorem cons {key : String} {keys : List String} {value : Json} {members : List (String × Json)}
    (plain : Plain value) (later : Listed keys members) :
    Listed (key :: keys) ((key, value) :: members) := by
  refine ⟨later.keys.cons_cons key, fun member mem => ?_⟩
  rcases List.mem_cons.1 mem with rfl | mem
  · exact plain
  · exact later.values member mem

/-- Lists of members under lists of keys are put behind each other. -/
theorem append {keys keys' : List String} {members members' : List (String × Json)}
    (first : Listed keys members) (later : Listed keys' members') :
    Listed (keys ++ keys') (members ++ members') := by
  refine ⟨?_, fun member mem => ?_⟩
  · rw [List.map_append]
    exact first.keys.append later.keys
  · rcases List.mem_append.1 mem with mem | mem
    · exact first.values member mem
    · exact later.values member mem

/-- A member that may be left out is listed under its key. -/
theorem member? {α : Type} {key : String} {write : α → Json} {value : Option α}
    (plain : ∀ x, value = some x → Plain (write x)) :
    Listed [key] (member? key (value.map write)) := by
  cases value with
  | none => exact ⟨List.nil_sublist [key], nofun⟩
  | some x => exact cons (plain x rfl) nil

/-- An object with such members is plain if the keys are distinct. -/
theorem plain {keys : List String} {members : List (String × Json)} (listed : Listed keys members)
    (distinct : keys.Nodup) : Plain (.obj members) :=
  .obj (listed.keys.nodup distinct) listed.values

end Listed

end Json

open Json

-- ===================================================== expressions

/-- A type is written plainly. -/
theorem DataType.plain_toJson (t : DataType) : Plain t.toJson := by
  have config : Listed ["config"]
      (member? "config" (t.config.map fun config => .arr (config.map fun n => .int n.toInt))) :=
    .member? fun numbers _ => .arr_map fun n _ => .int n.toInt
  exact (Listed.cons (.str t.name) config).plain (by decide)

/-- So is what is called. -/
theorem Callee.plain_toJson (callee : Callee) : Plain callee.toJson := by
  cases callee with
  | name function => exact .str function
  | keyword word => exact (Listed.cons (.str "keyword") (.cons (.str word) .nil)).plain (by decide)

namespace Expr

/-- Lists of expressions are written item by item. -/
theorem listToJson_eq (es : List Expr) : listToJson es = es.map toJson := by
  induction es with
  | nil => rfl
  | cons e es ih => rw [listToJson, ih, List.map_cons]

/-- What may be missing is written if it is there. -/
theorem optionToJson_eq (o : Option Expr) : optionToJson o = o.map toJson := by
  cases o <;> rfl

/-- An arm of a `CASE` as an object. -/
def armToJson (arm : Expr × Expr) : Json :=
  .obj [("when", arm.1.toJson), ("value", arm.2.toJson)]

/-- Arms are written one by one. -/
theorem armsToJson_eq (arms : List (Expr × Expr)) : armsToJson arms = arms.map armToJson := by
  induction arms with
  | nil => rfl
  | cons arm arms ih => rw [armsToJson, ih, List.map_cons, armToJson]

/-- An expression is written without nulls and with distinct keys. -/
theorem plain_toJson (e : Expr) : Plain e.toJson := by
  induction e using childInduction with
  | step e ih =>
  cases e with
  | integer value =>
      exact (Listed.cons (.str "integer") (.cons (.int value.toInt) .nil)).plain (by decide)
  | numeric value =>
      exact (Listed.cons (.str "numeric") (.cons (.real value) .nil)).plain (by decide)
  | string value =>
      exact (Listed.cons (.str "string") (.cons (.str value) .nil)).plain (by decide)
  | boolean value =>
      exact (Listed.cons (.str "boolean") (.cons (.bool value) .nil)).plain (by decide)
  | null => exact (Listed.cons (.str "null") .nil).plain (by decide)
  | ref table name =>
      have hname : Listed ["name"] [("name", .str name)] := .cons (.str name) .nil
      have htable : Listed ["table"] (member? "table" (table.map .str)) :=
        .member? fun t _ => .str t
      exact ((Listed.cons (.str "ref") htable).append hname).plain (by decide)
  | parameter name =>
      exact (Listed.cons (.str "parameter") (.cons (.str name) .nil)).plain (by decide)
  | call function args =>
      have hargs : Plain (.arr (listToJson args)) := by
        rw [listToJson_eq]
        exact .arr_map ih
      rw [toJson]
      exact (Listed.cons (.str "call") (.cons function.plain_toJson (.cons hargs .nil))).plain
        (by decide)
  | binary op left right =>
      have hleft := ih left List.mem_cons_self
      have hright := ih right (List.mem_cons_of_mem left List.mem_cons_self)
      rw [toJson]
      exact (Listed.cons (.str "binary") (.cons (.str op.text) (.cons hleft
        (.cons hright .nil)))).plain (by decide)
  | unary op operand =>
      have hoperand := ih operand List.mem_cons_self
      rw [toJson]
      exact (Listed.cons (.str "unary") (.cons (.str op.text) (.cons hoperand .nil))).plain
        (by decide)
  | between negated value low high =>
      have hvalue := ih value (by simp [children])
      have hlow := ih low (by simp [children])
      have hhigh := ih high (by simp [children])
      rw [toJson]
      exact (Listed.cons (.str "ternary") (.cons (.str (betweenText negated)) (.cons hvalue
        (.cons hlow (.cons hhigh .nil))))).plain (by decide)
  | cast operand target =>
      have hoperand := ih operand List.mem_cons_self
      rw [toJson]
      exact (Listed.cons (.str "cast") (.cons hoperand (.cons target.plain_toJson .nil))).plain
        (by decide)
  | case operand arms otherwise =>
      have hoperand : Listed ["value"] (member? "value" (operand.map toJson)) :=
        .member? fun x h => ih x (by simp [children, h])
      have harm (arm : Expr × Expr) (mem : arm ∈ arms) : Plain (armToJson arm) := by
        have condition := ih arm.1 (mem_children_of_arm mem (by simp))
        have result := ih arm.2 (mem_children_of_arm mem (by simp))
        exact (Listed.cons condition (.cons result .nil)).plain (by decide)
      have hotherwise : Listed ["else"] (member? "else" (otherwise.map toJson)) :=
        .member? fun x h => ih x (by simp [children, h])
      rw [toJson, optionToJson_eq, optionToJson_eq, armsToJson_eq]
      exact ((Listed.cons (.str "case") hoperand).append (.cons (.arr_map harm) hotherwise)).plain
        (by decide)
  | list items =>
      have hitems : Plain (.arr (listToJson items)) := by
        rw [listToJson_eq]
        exact .arr_map ih
      rw [toJson]
      exact (Listed.cons (.str "list") (.cons hitems .nil)).plain (by decide)

end Expr

-- ====================================================== statements

/-- A column is written plainly. -/
theorem Column.plain_toJson (c : Column) : Plain c.toJson := by
  have named : Listed ["alias"] (member? "alias" (c.aliasName.map .str)) :=
    .member? fun n _ => .str n
  exact (Listed.cons c.expr.plain_toJson named).plain (by decide)

/-- So is a join. -/
theorem Join.plain_toJson (j : Join) : Plain j.toJson :=
  (Listed.cons (.str j.type.text) (.cons j.on.plain_toJson .nil)).plain (by decide)

/-- And a sort key. -/
theorem SortKey.plain_toJson (k : SortKey) : Plain k.toJson :=
  (Listed.cons k.expr.plain_toJson (.cons (.str k.direction.text) .nil)).plain (by decide)

/-- And both numbers of rows. -/
theorem Limit.plain_toJson (l : Limit) : Plain l.toJson := by
  have count : Listed ["limit"] (member? "limit" (l.count.map fun n => .int n.toNat)) :=
    .member? fun n _ => .int n.toNat
  have offset : Listed ["offset"] (member? "offset" (l.offset.map fun n => .int n.toNat)) :=
    .member? fun n _ => .int n.toNat
  exact (count.append offset).plain (by decide)

/-- Entries of `FROM` are written one by one. -/
theorem sourcesToJson_eq (entries : List Source) :
    sourcesToJson entries = entries.map Source.toJson := by
  induction entries with
  | nil => rfl
  | cons entry later ih => rw [sourcesToJson, ih, List.map_cons]

/-- And the clause is left out where there is none. -/
theorem sourceListToJson_eq (sources : Option (List Source)) :
    sourceListToJson sources = sources.map fun entries => .arr (entries.map Source.toJson) := by
  cases sources with
  | none => rfl
  | some entries => rw [sourceListToJson, sourcesToJson_eq, Option.map_some]

/-- A statement is plain if the entries of its `FROM` list are. -/
theorem Select.plain_of_entries {s : Select}
    (entries : ∀ entries, s.sources = some entries → ∀ x ∈ entries, Plain x.toJson) :
    Plain s.toJson := by
  obtain ⟨distinct, columns, sources, filter, groups, having, order, limit⟩ := s
  have hdistinct : Listed ["distinct"]
      (member? "distinct" ((if distinct then some true else none).map .bool)) :=
    .member? fun b _ => .bool b
  have hcolumns : Listed ["columns"]
      (member? "columns" (columns.map fun cs => .arr (cs.map Column.toJson))) :=
    .member? fun cs _ => .arr_map fun c _ => c.plain_toJson
  have hsources : Listed ["from"]
      (member? "from" (sources.map fun xs => .arr (xs.map Source.toJson))) :=
    .member? fun xs h => .arr_map (entries xs h)
  have hfilter : Listed ["where"] (member? "where" (filter.map Expr.toJson)) :=
    .member? fun e _ => e.plain_toJson
  have hgroups : Listed ["groupBy"]
      (member? "groupBy" (groups.map fun es => .arr (es.map Expr.toJson))) :=
    .member? fun es _ => .arr_map fun e _ => e.plain_toJson
  have hhaving : Listed ["having"] (member? "having" (having.map Expr.toJson)) :=
    .member? fun e _ => e.plain_toJson
  have horder : Listed ["orderBy"]
      (member? "orderBy" (order.map fun ks => .arr (ks.map SortKey.toJson))) :=
    .member? fun ks _ => .arr_map fun k _ => k.plain_toJson
  have hlimit : Listed ["limit"] (member? "limit" (limit.map Limit.toJson)) :=
    .member? fun l _ => l.plain_toJson
  have hdistinct' : (if distinct then some (Json.bool true) else none)
      = (if distinct then some true else none).map .bool := by cases distinct <;> rfl
  rw [Select.toJson, sourceListToJson_eq, hdistinct']
  exact ((((((((Listed.cons (.str "select") hdistinct).append hcolumns).append hsources).append
    hfilter).append hgroups).append hhaving).append horder).append hlimit).plain (by decide)

/-- An entry is written plainly, the statement inside it too. -/
theorem Source.plain_toJson (entry : Source) : Plain entry.toJson := by
  have joined (join : Option Join) : Listed ["join"] (member? "join" (join.map Join.toJson)) :=
    .member? fun j _ => j.plain_toJson
  induction entry using Source.entryInduction with
  | table name schema aliasName join =>
      have hschema : Listed ["schema"] (member? "schema" (schema.map .str)) :=
        .member? fun n _ => .str n
      have hname : Listed ["alias"] (member? "alias" (aliasName.map .str)) :=
        .member? fun n _ => .str n
      rw [Source.toJson]
      exact ((((Listed.cons (.str "table") (.cons (.str name) .nil)).append hschema).append
        hname).append (joined join)).plain (by decide)
  | derived statement aliasName join ih =>
      have inner := Select.plain_of_entries ih
      rw [Source.toJson]
      exact ((Listed.cons (.str "statement") (.cons inner (.cons (.str aliasName) .nil))).append
        (joined join)).plain (by decide)

/-- A statement is written without nulls and with distinct keys. -/
theorem Select.plain_toJson (s : Select) : Plain s.toJson :=
  plain_of_entries fun _ _ x _ => x.plain_toJson

end SqlSelect
