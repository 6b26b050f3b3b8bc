/-
A decoder for statements as JSON.

Every object is told from its `type` and then read by key, a member that is
missing for what is absent. Nothing here depends on the order of members,
so the laws are about every value alike to the one that was written
(`Json.Gives`): one for each type, its proof a law for each member. Two
statements that are written alike are then read alike, and are the same.

# Laws

A law says that a reader gives a value back from anything alike to what is
written for it. The laws of names and of flat records need no induction. Those
of expressions and of entries go by recursion on the value, as the writer does,
since a decoder is told that each part is smaller than the whole.

# Faithfulness

No theorem is about the text of the JSON: what is compared is its tree, up to
the order of members. That two statements with alike trees are the same is all
that `Select.toJson_faithful` takes from the decoder.
-/
import SqlSelect.Proofs.Json.Member
import SqlSelect.Proofs.Json.Plain

namespace SqlSelect

open Json

namespace Json

/-- What sort of object it is. -/
def tag? (value : Json) : Option String := value.field "type" fun part _ => part.text?

/-- One of the things that have a name. -/
def named? {α : Type} (find : String → Option α) (value : Json) : Option α :=
  value.text?.bind find

theorem gives_named {α : Type} {find : String → Option α} {name : String} {a : α}
    (h : find name = some a) : Gives (named? find) (.str name) a := by
  intro other alike
  unfold named?
  rw [gives_text name other alike]
  exact h

/-- Values that are alike are of one sort. -/
theorem Alike.tag {value other : Json} (alike : Alike value other) (tag : String)
    (member : value.get? "type" = some (.str tag)) : other.tag? = some tag :=
  alike.field "type" member (gives_text tag)

end Json

-- =========================================================== names

theorem BinaryOp.ofText?_text (op : BinaryOp) : ofText? op.text = some op := by
  cases op <;> rfl

theorem UnaryOp.ofText?_text (op : UnaryOp) : ofText? op.text = some op := by
  cases op <;> rfl

/-- Whether the range test with the given text is negated. -/
def Expr.betweenOfText? (text : String) : Option Bool :=
  [false, true].find? fun negated => betweenText negated == text

theorem Expr.betweenOfText?_betweenText (negated : Bool) :
    betweenOfText? (betweenText negated) = some negated := by
  cases negated <;> rfl

/-- The join type with the given text. -/
def JoinType.ofText? (text : String) : Option JoinType :=
  [.inner, .left, .right, .full].find? fun type => type.text == text

theorem JoinType.ofText?_text (type : JoinType) : ofText? type.text = some type := by
  cases type <;> rfl

/-- The direction with the given text. -/
def Direction.ofText? (text : String) : Option Direction :=
  [.ascending, .descending].find? fun direction => direction.text == text

theorem Direction.ofText?_text (direction : Direction) :
    ofText? direction.text = some direction := by
  cases direction <;> rfl

-- ===================================================== expressions

/-- A type with its modifiers. -/
def DataType.ofJson? (value : Json) : Option DataType := do
  let name ← value.field "type" fun part _ => part.text?
  let config ← value.field? "config" fun part _ => part.each fun n _ => n.int64?
  some ⟨name, config⟩

theorem DataType.gives_ofJson? (t : DataType) : Gives ofJson? t.toJson t := by
  intro other alike
  have name := alike.field "type" (by simp [toJson]) (gives_text t.name)
  have config := alike.field? "config" (by simp [toJson])
    fun ns (_ : t.config = some ns) => gives_each fun n (_ : n ∈ ns) => gives_int64 n
  rw [ofJson?, name, config]
  rfl

/-- A callee. -/
def Callee.ofJson? (value : Json) : Option Callee :=
  match value with
  | .str function => some (.name function)
  | _ =>
    match value.tag? with
    | some "keyword" => do
      let word ← value.field "keyword" fun part _ => part.text?
      some (.keyword word)
    | _ => none

theorem Callee.gives_ofJson? (callee : Callee) : Gives ofJson? callee.toJson callee := by
  intro other alike
  cases callee with
  | name function =>
      cases alike
      rfl
  | keyword word =>
      have name := alike.field "keyword" rfl (gives_text word)
      have tag := alike.tag "keyword" rfl
      obtain ⟨members, rfl⟩ := alike.eq_obj
      rw [ofJson?, tag]
      · simp only [name]
        rfl
      · nofun

namespace Expr

/-- An expression. -/
def ofJson? (value : Json) : Option Expr :=
  match value.tag? with
  | some "integer" => do
    let n ← value.field "value" fun part _ => part.int64?
    some (.integer n)
  | some "numeric" => do
    let x ← value.field "value" fun part _ => part.real?
    some (.numeric x)
  | some "string" => do
    let text ← value.field "value" fun part _ => part.text?
    some (.string text)
  | some "boolean" => do
    let b ← value.field "value" fun part _ => part.bool?
    some (.boolean b)
  | some "null" => some .null
  | some "ref" => do
    let table ← value.field? "table" fun part _ => part.text?
    let name ← value.field "name" fun part _ => part.text?
    some (.ref table name)
  | some "parameter" => do
    let name ← value.field "name" fun part _ => part.text?
    some (.parameter name)
  | some "call" => do
    let function ← value.field "function" fun part _ => Callee.ofJson? part
    let args ← value.field "args" fun part _ => part.each fun item _ => ofJson? item
    some (.call function args)
  | some "binary" => do
    let op ← value.field "op" fun part _ => part.named? BinaryOp.ofText?
    let left ← value.field "left" fun part _ => ofJson? part
    let right ← value.field "right" fun part _ => ofJson? part
    some (.binary op left right)
  | some "unary" => do
    let op ← value.field "op" fun part _ => part.named? UnaryOp.ofText?
    let operand ← value.field "operand" fun part _ => ofJson? part
    some (.unary op operand)
  | some "ternary" => do
    let negated ← value.field "op" fun part _ => part.named? betweenOfText?
    let tested ← value.field "value" fun part _ => ofJson? part
    let low ← value.field "lo" fun part _ => ofJson? part
    let high ← value.field "hi" fun part _ => ofJson? part
    some (.between negated tested low high)
  | some "cast" => do
    let operand ← value.field "operand" fun part _ => ofJson? part
    let target ← value.field "to" fun part _ => DataType.ofJson? part
    some (.cast operand target)
  | some "case" => do
    let operand ← value.field? "value" fun part _ => ofJson? part
    let arms ← value.field "whens" fun part _ => part.each fun arm _ => do
      let condition ← arm.field "when" fun part _ => ofJson? part
      let result ← arm.field "value" fun part _ => ofJson? part
      some (condition, result)
    let otherwise ← value.field? "else" fun part _ => ofJson? part
    some (.case operand arms otherwise)
  | some "list" => do
    let items ← value.field "expressions" fun part _ => part.each fun item _ => ofJson? item
    some (.list items)
  | _ => none
termination_by sizeOf value
decreasing_by all_goals omega

/-- An expression is read back from whatever is alike to it. -/
theorem gives_ofJson? (e : Expr) : Gives ofJson? e.toJson e := by
  induction e using childInduction with
  | step e ih =>
  intro other alike
  cases e with
  | integer value =>
      have n := alike.field "value" rfl (gives_int64 value)
      rw [ofJson?, alike.tag "integer" rfl]
      simp only [n]
      rfl
  | numeric value =>
      have x := alike.field "value" rfl (gives_real value)
      rw [ofJson?, alike.tag "numeric" rfl]
      simp only [x]
      rfl
  | string value =>
      have text := alike.field "value" rfl (gives_text value)
      rw [ofJson?, alike.tag "string" rfl]
      simp only [text]
      rfl
  | boolean value =>
      have b := alike.field "value" rfl (gives_bool value)
      rw [ofJson?, alike.tag "boolean" rfl]
      simp only [b]
      rfl
  | null =>
      rw [ofJson?, alike.tag "null" rfl]
      rfl
  | ref table name =>
      have table := alike.field? "table" (by simp [toJson]) fun t (_ : table = some t) =>
        gives_text t
      have name := alike.field "name" (by simp [toJson]) (gives_text name)
      rw [ofJson?, alike.tag "ref" rfl]
      simp only [table, name]
      rfl
  | parameter name =>
      have name := alike.field "name" rfl (gives_text name)
      rw [ofJson?, alike.tag "parameter" rfl]
      simp only [name]
      rfl
  | call function args =>
      have function := alike.field "function" (by simp [toJson]) function.gives_ofJson?
      have args := alike.field "args" (by simp [toJson, listToJson_eq])
        (gives_each fun x (mem : x ∈ args) => ih x mem)
      rw [ofJson?, alike.tag "call" (by simp [toJson])]
      simp only [function, args]
      rfl
  | binary op left right =>
      have op := alike.field "op" rfl (gives_named op.ofText?_text)
      have left := alike.field "left" rfl (ih left (by simp [children]))
      have right := alike.field "right" rfl (ih right (by simp [children]))
      rw [ofJson?, alike.tag "binary" rfl]
      simp only [op, left, right]
      rfl
  | unary op operand =>
      have op := alike.field "op" rfl (gives_named op.ofText?_text)
      have operand := alike.field "operand" rfl (ih operand (by simp [children]))
      rw [ofJson?, alike.tag "unary" rfl]
      simp only [op, operand]
      rfl
  | between negated value low high =>
      have op := alike.field "op" rfl (gives_named (betweenOfText?_betweenText negated))
      have value := alike.field "value" rfl (ih value (by simp [children]))
      have low := alike.field "lo" rfl (ih low (by simp [children]))
      have high := alike.field "hi" rfl (ih high (by simp [children]))
      rw [ofJson?, alike.tag "ternary" rfl]
      simp only [op, value, low, high]
      rfl
  | cast operand target =>
      have operand := alike.field "operand" rfl (ih operand (by simp [children]))
      have target := alike.field "to" rfl target.gives_ofJson?
      rw [ofJson?, alike.tag "cast" rfl]
      simp only [operand, target]
      rfl
  | case operand arms otherwise =>
      have arm (x : Expr × Expr) (mem : x ∈ arms) :
          Gives (fun arm => do
            let condition ← arm.field "when" fun part _ => ofJson? part
            let result ← arm.field "value" fun part _ => ofJson? part
            some (condition, result)) (armToJson x) x := by
        intro other alike
        have condition := alike.field "when" rfl (ih x.1 (mem_children_of_arm mem (by simp)))
        have result := alike.field "value" rfl (ih x.2 (mem_children_of_arm mem (by simp)))
        simp only [condition, result]
        rfl
      have operand := alike.field? "value" (by simp [toJson, optionToJson_eq])
        fun x (h : operand = some x) => ih x (by simp [children, h])
      have arms := alike.field "whens" (by simp [toJson, armsToJson_eq]) (gives_each arm)
      have otherwise := alike.field? "else" (by simp [toJson, optionToJson_eq])
        fun x (h : otherwise = some x) => ih x (by simp [children, h])
      rw [ofJson?, alike.tag "case" (by simp [toJson])]
      simp only [operand, arms, otherwise]
      rfl
  | list items =>
      have items := alike.field "expressions" (by simp [toJson, listToJson_eq])
        (gives_each fun x (mem : x ∈ items) => ih x mem)
      rw [ofJson?, alike.tag "list" (by simp [toJson])]
      simp only [items]
      rfl

end Expr

-- ====================================================== statements

/-- A select list entry. -/
def Column.ofJson? (value : Json) : Option Column := do
  let expr ← value.field "expr" fun part _ => Expr.ofJson? part
  let aliasName ← value.field? "alias" fun part _ => part.text?
  some ⟨expr, aliasName⟩

theorem Column.gives_ofJson? (c : Column) : Gives ofJson? c.toJson c := by
  intro other alike
  have expr := alike.field "expr" (by simp [toJson]) c.expr.gives_ofJson?
  have aliasName := alike.field? "alias" (by simp [toJson])
    fun name (_ : c.aliasName = some name) => gives_text name
  rw [ofJson?, expr, aliasName]
  rfl

/-- A join. -/
def Join.ofJson? (value : Json) : Option Join := do
  let type ← value.field "type" fun part _ => part.named? JoinType.ofText?
  let on ← value.field "on" fun part _ => Expr.ofJson? part
  some ⟨type, on⟩

theorem Join.gives_ofJson? (j : Join) : Gives ofJson? j.toJson j := by
  intro other alike
  have type := alike.field "type" rfl (gives_named j.type.ofText?_text)
  have on := alike.field "on" rfl j.on.gives_ofJson?
  rw [ofJson?, type, on]
  rfl

/-- A sort key. -/
def SortKey.ofJson? (value : Json) : Option SortKey := do
  let expr ← value.field "by" fun part _ => Expr.ofJson? part
  let direction ← value.field "order" fun part _ => part.named? Direction.ofText?
  some ⟨expr, direction⟩

theorem SortKey.gives_ofJson? (k : SortKey) : Gives ofJson? k.toJson k := by
  intro other alike
  have expr := alike.field "by" rfl k.expr.gives_ofJson?
  have direction := alike.field "order" rfl (gives_named k.direction.ofText?_text)
  rw [ofJson?, expr, direction]
  rfl

/-- Row limits. -/
def Limit.ofJson? (value : Json) : Option Limit := do
  let count ← value.field? "limit" fun part _ => part.uint64?
  let offset ← value.field? "offset" fun part _ => part.uint64?
  some ⟨count, offset⟩

theorem Limit.gives_ofJson? (l : Limit) : Gives ofJson? l.toJson l := by
  intro other alike
  have count := alike.field? "limit" (by simp [toJson])
    fun n (_ : l.count = some n) => gives_uint64 n
  have offset := alike.field? "offset" (by simp [toJson])
    fun n (_ : l.offset = some n) => gives_uint64 n
  rw [ofJson?, count, offset]
  rfl

mutual

/-- A statement. -/
def Select.ofJson? (value : Json) : Option Select :=
  match value.tag? with
  | some "select" => do
    let distinct ← value.field? "distinct" fun part _ => part.bool?
    let columns ← value.field? "columns" fun part _ => part.each fun item _ => Column.ofJson? item
    let sources ← value.field? "from" fun part _ => part.each fun item _ => Source.ofJson? item
    let filter ← value.field? "where" fun part _ => Expr.ofJson? part
    let groups ← value.field? "groupBy" fun part _ => part.each fun item _ => Expr.ofJson? item
    let having ← value.field? "having" fun part _ => Expr.ofJson? part
    let order ← value.field? "orderBy" fun part _ => part.each fun item _ => SortKey.ofJson? item
    let limit ← value.field? "limit" fun part _ => Limit.ofJson? part
    some ⟨distinct.getD false, columns, sources, filter, groups, having, order, limit⟩
  | _ => none
termination_by sizeOf value
decreasing_by omega

/-- An entry of a `FROM` list. -/
def Source.ofJson? (value : Json) : Option Source :=
  match value.tag? with
  | some "table" => do
    let name ← value.field "name" fun part _ => part.text?
    let schema ← value.field? "schema" fun part _ => part.text?
    let aliasName ← value.field? "alias" fun part _ => part.text?
    let join ← value.field? "join" fun part _ => Join.ofJson? part
    some (.table name schema aliasName join)
  | some "statement" => do
    let statement ← value.field "statement" fun part _ => Select.ofJson? part
    let aliasName ← value.field "alias" fun part _ => part.text?
    let join ← value.field? "join" fun part _ => Join.ofJson? part
    some (.derived statement aliasName join)
  | _ => none
termination_by sizeOf value
decreasing_by omega

end

/-- A statement is read back if the entries of its `FROM` list are. -/
theorem Select.gives_of_entries {s : Select}
    (entries : ∀ entries, s.sources = some entries →
      ∀ x ∈ entries, Gives Source.ofJson? x.toJson x) :
    Gives ofJson? s.toJson s := by
  intro other alike
  obtain ⟨distinct, columns, sources, filter, groups, having, order, limit⟩ := s
  rw [toJson, sourceListToJson_eq] at alike
  have hdistinct := alike.field? "distinct" (by cases distinct <;> simp)
    fun b (_ : (if distinct then some true else none) = some b) => gives_bool b
  have hcolumns := alike.field? "columns" (by simp)
    fun cs (_ : columns = some cs) => gives_each fun c (_ : c ∈ cs) => c.gives_ofJson?
  have hsources := alike.field? "from" (by simp)
    fun xs (h : sources = some xs) => gives_each (entries xs h)
  have hfilter := alike.field? "where" (by simp) fun e (_ : filter = some e) => e.gives_ofJson?
  have hgroups := alike.field? "groupBy" (by simp)
    fun es (_ : groups = some es) => gives_each fun e (_ : e ∈ es) => e.gives_ofJson?
  have hhaving := alike.field? "having" (by simp) fun e (_ : having = some e) => e.gives_ofJson?
  have horder := alike.field? "orderBy" (by simp)
    fun ks (_ : order = some ks) => gives_each fun k (_ : k ∈ ks) => k.gives_ofJson?
  have hlimit := alike.field? "limit" (by simp) fun l (_ : limit = some l) => l.gives_ofJson?
  rw [ofJson?, alike.tag "select" (by simp)]
  simp only [hdistinct, hcolumns, hsources, hfilter, hgroups, hhaving, horder, hlimit]
  cases distinct <;> rfl

/-- An entry of a `FROM` list is read back from whatever is alike to it. -/
theorem Source.gives_ofJson? (entry : Source) : Gives ofJson? entry.toJson entry := by
  induction entry using Source.entryInduction with
  | table name schema aliasName join =>
      intro other alike
      have name := alike.field "name" (by simp [toJson]) (gives_text name)
      have schema := alike.field? "schema" (by simp [toJson])
        fun n (_ : schema = some n) => gives_text n
      have aliasName := alike.field? "alias" (by simp [toJson])
        fun n (_ : aliasName = some n) => gives_text n
      have join := alike.field? "join" (by simp [toJson])
        fun j (_ : join = some j) => j.gives_ofJson?
      rw [ofJson?, alike.tag "table" (by simp [toJson])]
      simp only [name, schema, aliasName, join]
      rfl
  | derived statement aliasName join ih =>
      intro other alike
      have statement := alike.field "statement" (by simp [toJson]) (Select.gives_of_entries ih)
      have aliasName := alike.field "alias" (by simp [toJson]) (gives_text aliasName)
      have join := alike.field? "join" (by simp [toJson])
        fun j (_ : join = some j) => j.gives_ofJson?
      rw [ofJson?, alike.tag "statement" (by simp [toJson])]
      simp only [statement, aliasName, join]
      rfl

/-- A statement is read back from whatever is alike to it. -/
theorem Select.gives_ofJson? (s : Select) : Gives ofJson? s.toJson s :=
  gives_of_entries fun _ _ x _ => x.gives_ofJson?

/-- A statement is read back from its JSON, which no other statement has,
even with its members in another order. What is absent leaves no null, and
no object has two members of one name, so nothing is lost where objects are
maps. -/
theorem Select.toJson_faithful (s : Select) :
    ofJson? s.toJson = some s
      ∧ (∀ other : Select, s.toJson.Alike other.toJson → s = other)
      ∧ ¬Json.null.Within s.toJson
      ∧ ∀ members, (Json.obj members).Within s.toJson → (members.map Prod.fst).Nodup := by
  refine ⟨s.gives_ofJson? _ (.refl _), fun other alike => ?_, s.plain_toJson.not_null_within,
    fun _ within => s.plain_toJson.nodup_keys within⟩
  have first := s.gives_ofJson? other.toJson alike
  have second := other.gives_ofJson? other.toJson (.refl _)
  exact Option.some.inj (first.symm.trans second)

end SqlSelect
