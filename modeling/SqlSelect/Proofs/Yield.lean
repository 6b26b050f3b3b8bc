/-
The token sequences that a syntax tree stands for.

A tree yields the tokens of its parts and its own names, literals,
keywords and operators, in the order of the text. The rules below are all
there are, so every token either has a counterpart in the tree or is one
of those that say nothing: parentheses around an expression or around the
whole `GROUP BY` list, `ALL` behind `SELECT` or `LIMIT`, `AS`, `ASC`,
`INNER`, `OUTER`, the empty parentheses behind a table, the words around
a number of rows, a minus sign that goes into a number, and the semicolon
and the end of the input.

The relation says nothing about precedence: it lists what the tokens are,
not how the grammar groups them.
-/
import SqlSelect.Proofs.Mark

namespace SqlSelect

open Grammar (RowLimits secondWord?)

-- ============================================================ lists

/-- The tokens of a list of one item or more, each given by `R`, with
exactly one comma between neighbours. -/
def Separated {α : Type} (R : α → List Kind → Prop) (items : List α) (kinds : List Kind) :
    Prop :=
  ∃ parts : List (α × List Kind), parts ≠ [] ∧ items = parts.map Prod.fst
    ∧ kinds = commas (parts.map Prod.snd) ∧ ∀ p ∈ parts, R p.1 p.2

/-- The tokens of a clause that may be absent, behind its keywords. -/
inductive YieldsClause {α : Type} (keywords : List Keyword) (R : α → List Kind → Prop) :
    Option α → List Kind → Prop
  | absent : YieldsClause keywords R none []
  | present {a : α} {kinds : List Kind} (body : R a kinds) :
    YieldsClause keywords R (some a) (keywords.map Keyword.kind ++ kinds)

-- ============================================================ names

/-- Whether a token names a column, a function or the table before a dot. A
star in double quotes names none of them. -/
def Kind.Names (kind : Kind) (name : String) : Prop :=
  kind.identifier? = some name ∧ kind ≠ .quoted Expr.star

/-- Whether a token names the column behind a dot, for which every word
will do. -/
def Kind.NamesMember (kind : Kind) (name : String) : Prop :=
  kind.anyName? = some name ∧ kind ≠ .quoted Expr.star

/-- Whether a token names what a call calls. -/
def Kind.Calls (kind : Kind) : Callee → Prop
  | .name function => kind.Names function
  | .keyword name =>
    kind = .word name ∧ ∃ keyword, kind.keyword? = some keyword ∧ keyword.isFunction = true

-- ============================================================ types

/-- A second word of a type name, if there is one. -/
inductive YieldsSecondWord (first : String) : String → List Kind → Prop
  | absent : YieldsSecondWord first first []
  | present {second : String} (belongs : secondWord? first = some second) :
    YieldsSecondWord first (first ++ " " ++ second) [.word second]

/-- The modifiers of a type, if there are any. -/
inductive YieldsConfig : Option (List Int64) → List Kind → Prop
  | absent : YieldsConfig none []
  | present {values : List Int64} (filled : values ≠ []) :
    YieldsConfig (some values) (inParens (commas (values.map fun value => [.integer value])))

/-- The words about a time zone, if there are any. -/
inductive YieldsZone (name : String) : String → List Kind → Prop
  | absent : YieldsZone name name []
  | withZone (timed : name = "time" ∨ name = "timestamp") :
    YieldsZone name (name ++ " with time zone") [.word "with", .word "time", .word "zone"]
  | withoutZone (timed : name = "time" ∨ name = "timestamp") :
    YieldsZone name (name ++ " without time zone") [.word "without", .word "time", .word "zone"]

/-- The tokens of a type: the words of its name, around its modifiers. -/
inductive YieldsType : DataType → List Kind → Prop
  | mk {k : Kind} {first second name : String} {config : Option (List Int64)}
    {words modifiers zone : List Kind} (named : k.identifier? = some first)
    (hwords : YieldsSecondWord first second words) (hmodifiers : YieldsConfig config modifiers)
    (hzone : YieldsZone second name zone) :
    YieldsType ⟨name, config⟩ (k :: (words ++ modifiers ++ zone))

-- ====================================================== expressions

/-- The tokens of a wildcard. -/
inductive YieldsWildcard : Expr → List Kind → Prop
  | all : YieldsWildcard .wildcard [.symbol .star]
  | ofTable {k : Kind} {table : String} (named : k.identifier? = some table) :
    YieldsWildcard (.qualifiedWildcard table) [k, .symbol .dot, .symbol .star]

/-- Whether the expression is a number literal. -/
def Expr.isNumber : Expr → Bool
  | .integer _ | .numeric _ => true
  | _ => false

/-- The tokens of an expression that is no wildcard. The parts of a list
are given with their tokens. -/
inductive Yields : Expr → List Kind → Prop
  | integer (value : Int64) : Yields (.integer value) [.integer value]
  | numeric (value : Double) : Yields (.numeric value) [.numeric value]
  | string (value : String) : Yields (.string value) [.string value]
  | parameter (name : String) : Yields (.parameter name) [.parameter name]
  | true : Yields (.boolean true) [Keyword.TRUE.kind]
  | false : Yields (.boolean false) [Keyword.FALSE.kind]
  | null : Yields .null [Keyword.NULL.kind]
  | column {k : Kind} {name : String} (named : k.Names name) : Yields (.ref none name) [k]
  | member {k m : Kind} {table name : String} (named : k.Names table)
    (member : m.NamesMember name) : Yields (.ref (some table) name) [k, .symbol .dot, m]
  | call {k : Kind} {function : Callee} {parts : List (Expr × List Kind)}
    (called : k.Calls function)
    -- an argument is a wildcard or else an expression
    (args : ∀ p ∈ parts, ¬YieldsWildcard p.1 p.2 → Yields p.1 p.2) :
    Yields (.call function (parts.map Prod.fst)) (k :: inParens (commas (parts.map Prod.snd)))
  | binary {op : BinaryOp} {left right : Expr} {ls rs : List Kind}
    (plain : op ≠ .isIn ∧ op ≠ .notIn) (hleft : Yields left ls) (hright : Yields right rs) :
    Yields (.binary op left right) (ls ++ Mark.kinds op.marks ++ rs)
  | isIn {op : BinaryOp} {left : Expr} {ls : List Kind} {parts : List (Expr × List Kind)}
    (membership : op = .isIn ∨ op = .notIn) (hleft : Yields left ls) (filled : parts ≠ [])
    (items : ∀ p ∈ parts, Yields p.1 p.2) :
    Yields (.binary op left (.list (parts.map Prod.fst)))
      (ls ++ Mark.kinds op.marks ++ inParens (commas (parts.map Prod.snd)))
  | between {negated : Bool} {value low high : Expr} {vs ls hs : List Kind}
    (hvalue : Yields value vs) (hlow : Yields low ls) (hhigh : Yields high hs) :
    Yields (.between negated value low high)
      (vs ++ Mark.kinds (betweenMarks negated) ++ ls ++ Keyword.AND.kind :: hs)
  /-- A minus sign stays an operator only before what is no number. -/
  | prefixed {op : UnaryOp} {operand : Expr} {ks : List Kind} (before : op.isPrefix = true)
    (kept : op = .neg → operand.isNumber = false) (hoperand : Yields operand ks) :
    Yields (.unary op operand) (Mark.kinds op.marks ++ ks)
  | signedInteger {value : Int64} {ks : List Kind} (number : Yields (.integer value) ks) :
    Yields (.integer (-value)) (.symbol .minus :: ks)
  | signedNumeric {value : Double} {ks : List Kind} (number : Yields (.numeric value) ks) :
    Yields (.numeric value.neg) (.symbol .minus :: ks)
  | test {op : UnaryOp} {operand : Expr} {ks : List Kind} (behind : op.isPrefix = false)
    (hoperand : Yields operand ks) :
    Yields (.unary op operand) (ks ++ Mark.kinds op.marks)
  | castTo {operand : Expr} {target : DataType} {ks ts : List Kind}
    (hoperand : Yields operand ks) (htarget : YieldsType target ts) :
    Yields (.cast operand target) (ks ++ .symbol .doubleColon :: ts)
  | castAs {operand : Expr} {target : DataType} {ks ts : List Kind}
    (hoperand : Yields operand ks) (htarget : YieldsType target ts) :
    Yields (.cast operand target)
      (Keyword.CAST.kind :: inParens (ks ++ Keyword.AS.kind :: ts))
  | case {operand otherwise : Option (Expr × List Kind)}
    {arms : List ((Expr × List Kind) × (Expr × List Kind))} (filled : arms ≠ [])
    (hoperand : ∀ p ∈ operand, Yields p.1 p.2)
    (conditions : ∀ arm ∈ arms, Yields arm.1.1 arm.1.2)
    (values : ∀ arm ∈ arms, Yields arm.2.1 arm.2.2)
    (hotherwise : ∀ p ∈ otherwise, Yields p.1 p.2) :
    Yields
      (.case (operand.map Prod.fst) (arms.map fun arm => (arm.1.1, arm.2.1))
        (otherwise.map Prod.fst))
      (Keyword.CASE.kind :: ((operand.map Prod.snd).getD []
        ++ (arms.flatMap fun arm =>
          Keyword.WHEN.kind :: arm.1.2 ++ Keyword.THEN.kind :: arm.2.2)
        ++ (otherwise.elim [] fun p => Keyword.ELSE.kind :: p.2) ++ [Keyword.END.kind]))
  | paren {e : Expr} {ks : List Kind} (inside : Yields e ks) : Yields e (inParens ks)

-- ========================================================== clauses

/-- The tokens of an alias, if there is one. -/
inductive YieldsAlias : Option String → List Kind → Prop
  | absent : YieldsAlias none []
  | bare {k : Kind} {name : String} (named : k.identifier? = some name) :
    YieldsAlias (some name) [k]
  | behindAs {k : Kind} {name : String} (named : k.identifier? = some name) :
    YieldsAlias (some name) [Keyword.AS.kind, k]

/-- The tokens of an entry of the select list. -/
inductive YieldsColumn : Column → List Kind → Prop
  | wildcard {e : Expr} {ks : List Kind} (h : YieldsWildcard e ks) : YieldsColumn ⟨e, none⟩ ks
  | expr {e : Expr} {aliasName : Option String} {ks as : List Kind} (he : Yields e ks)
    (ha : YieldsAlias aliasName as) : YieldsColumn ⟨e, aliasName⟩ (ks ++ as)

/-- The tokens of the `GROUP BY` list, in a pair of parentheses or not. -/
inductive YieldsGroups : List Expr → List Kind → Prop
  | plain {es : List Expr} {ks : List Kind} (h : Separated Yields es ks) : YieldsGroups es ks
  | wrapped {es : List Expr} {ks : List Kind} (h : Separated Yields es ks) :
    YieldsGroups es (inParens ks)

/-- The tokens of an entry of the `ORDER BY` list. -/
inductive YieldsSortKey : SortKey → List Kind → Prop
  | unsaid {e : Expr} {ks : List Kind} (h : Yields e ks) : YieldsSortKey ⟨e, .ascending⟩ ks
  | ascending {e : Expr} {ks : List Kind} (h : Yields e ks) :
    YieldsSortKey ⟨e, .ascending⟩ (ks ++ [Keyword.ASC.kind])
  | descending {e : Expr} {ks : List Kind} (h : Yields e ks) :
    YieldsSortKey ⟨e, .descending⟩ (ks ++ [Keyword.DESC.kind])

/-- The tokens of a number of rows. -/
inductive YieldsRowCount : UInt64 → List Kind → Prop
  | plain {value : Int64} (positive : 0 ≤ value) :
    YieldsRowCount value.toUInt64 [.integer value]
  | minusZero : YieldsRowCount 0 [.symbol .minus, .integer 0]

/-- One of the keywords or nothing. -/
def Optionally (keywords : List Keyword) (kinds : List Kind) : Prop :=
  kinds = [] ∨ ∃ keyword ∈ keywords, kinds = [keyword.kind]

/-- The tokens that say how many rows to return and how many to pass over,
each at most once and in any order. -/
inductive YieldsLimits : RowLimits → List Kind → Prop
  | unsaid : YieldsLimits ⟨none, none⟩ []
  | all {offset : Option UInt64} {ks : List Kind} (h : YieldsLimits ⟨none, offset⟩ ks) :
    YieldsLimits ⟨some none, offset⟩ (ks ++ [Keyword.LIMIT.kind, Keyword.ALL.kind])
  | limit {offset : Option UInt64} {count : UInt64} {ks cs : List Kind}
    (h : YieldsLimits ⟨none, offset⟩ ks) (hcount : YieldsRowCount count cs) :
    YieldsLimits ⟨some (some count), offset⟩ (ks ++ Keyword.LIMIT.kind :: cs)
  | fetch {offset : Option UInt64} {count : UInt64} {first : Keyword}
    {ks cs row only : List Kind} (h : YieldsLimits ⟨none, offset⟩ ks)
    (hfirst : first = .FIRST ∨ first = .NEXT) (hcount : YieldsRowCount count cs)
    (hrow : Optionally [.ROW, .ROWS] row) (honly : Optionally [.ONLY] only) :
    YieldsLimits ⟨some (some count), offset⟩
      (ks ++ Keyword.FETCH.kind :: first.kind :: (cs ++ row ++ only))
  | fetchOne {offset : Option UInt64} {first row : Keyword} {ks only : List Kind}
    (h : YieldsLimits ⟨none, offset⟩ ks) (hfirst : first = .FIRST ∨ first = .NEXT)
    (hrow : row = .ROW ∨ row = .ROWS) (honly : Optionally [.ONLY] only) :
    YieldsLimits ⟨some (some 1), offset⟩
      (ks ++ Keyword.FETCH.kind :: first.kind :: row.kind :: only)
  | offset {limit : Option (Option UInt64)} {offset : UInt64} {ks os row : List Kind}
    (h : YieldsLimits ⟨limit, none⟩ ks) (hoffset : YieldsRowCount offset os)
    (hrow : Optionally [.ROW, .ROWS] row) :
    YieldsLimits ⟨limit, some offset⟩ (ks ++ Keyword.OFFSET.kind :: (os ++ row))

/-- The words before `JOIN` that name a join type. -/
def JoinType.spellings : JoinType → List (List Keyword)
  | .inner => [[], [.INNER]]
  | .left => [[.LEFT], [.LEFT, .OUTER]]
  | .right => [[.RIGHT], [.RIGHT, .OUTER]]
  | .full => [[.FULL], [.FULL, .OUTER]]

/-- The tokens of the name of a table, with its schema if it has one. -/
inductive YieldsTableName : Option String → String → List Kind → Prop
  | bare {k : Kind} {name : String} (named : k.identifier? = some name) :
    YieldsTableName none name [k]
  | inSchema {k m : Kind} {schema name : String} (hschema : k.identifier? = some schema)
    (named : m.identifier? = some name) :
    YieldsTableName (some schema) name [k, .symbol .dot, m]

-- ======================================================= statements

/-- The tokens of `DISTINCT`, or of `ALL`, which says nothing. -/
inductive YieldsDistinct : Bool → List Kind → Prop
  | distinct : YieldsDistinct true [Keyword.DISTINCT.kind]
  | all : YieldsDistinct false [Keyword.ALL.kind]
  | unsaid : YieldsDistinct false []

mutual

/-- The tokens of a statement, clause by clause. -/
inductive YieldsSelect : Select → List Kind → Prop
  | mk {distinct : Bool} {columns : Option (List Column)} {sources : Option (List Source)}
    {filter : Option Expr} {groups : Option (List Expr)} {having : Option Expr}
    {order : Option (List SortKey)} {limits : RowLimits}
    {ds cs fs ws gs hs os ls : List Kind} (hdistinct : YieldsDistinct distinct ds)
    (hcolumns : YieldsClause [] (Separated YieldsColumn) columns cs)
    (hsources : YieldsFrom sources fs)
    (hfilter : YieldsClause [.WHERE] Yields filter ws)
    (hgroups : YieldsClause [.GROUP, .BY] YieldsGroups groups gs)
    (hhaving : YieldsClause [.HAVING] Yields having hs)
    (horder : YieldsClause [.ORDER, .BY] (Separated YieldsSortKey) order os)
    (hlimits : YieldsLimits limits ls) :
    YieldsSelect ⟨distinct, columns, sources, filter, groups, having, order, limits.clause?⟩
      (Keyword.SELECT.kind :: (ds ++ cs ++ fs ++ ws ++ gs ++ hs ++ os ++ ls))

/-- The tokens of an entry of the `FROM` list, without its join. -/
inductive YieldsSource : Source → List Kind → Prop
  | table {name : String} {schema aliasName : Option String} {ns ps as : List Kind}
    (named : YieldsTableName schema name ns) (parens : ps = [] ∨ ps = inParens [])
    (ha : YieldsAlias aliasName as) :
    YieldsSource (.table name schema aliasName none) (ns ++ ps ++ as)
  | derived {statement : Select} {aliasName : String} {ks as : List Kind}
    (inner : YieldsSelect statement ks) (ha : YieldsAlias (some aliasName) as) :
    YieldsSource (.derived statement aliasName none) (inParens ks ++ as)

/-- The tokens of the `FROM` clause, if there is one. -/
inductive YieldsFrom : Option (List Source) → List Kind → Prop
  | absent : YieldsFrom none []
  | present {entry : Source} {later : List Source} {es ls : List Kind}
    (first : YieldsSource entry es) (more : YieldsMore later ls) :
    YieldsFrom (some (entry :: later)) (Keyword.FROM.kind :: (es ++ ls))

/-- The tokens of the entries behind the first, each introduced by a comma
or by a join. -/
inductive YieldsMore : List Source → List Kind → Prop
  | done : YieldsMore [] []
  | comma {entry : Source} {later : List Source} {es ls : List Kind}
    (hentry : YieldsSource entry es) (more : YieldsMore later ls) :
    YieldsMore (entry :: later) (.symbol .comma :: (es ++ ls))
  | join {type : JoinType} {words : List Keyword} {entry : Source} {on : Expr}
    {later : List Source} {es os ls : List Kind} (spelled : words ∈ type.spellings)
    (hentry : YieldsSource entry es) (hon : Yields on os) (more : YieldsMore later ls) :
    YieldsMore (entry.withJoin ⟨type, on⟩ :: later)
      (words.map Keyword.kind ++ Keyword.JOIN.kind :: (es ++ Keyword.ON.kind :: os ++ ls))

end

/-- The tokens of a whole input: a statement, with a semicolon or not, and
the end of the input. -/
inductive YieldsInput : Select → List Kind → Prop
  | plain {statement : Select} {ks : List Kind} (h : YieldsSelect statement ks) :
    YieldsInput statement (ks ++ [.eof])
  | terminated {statement : Select} {ks : List Kind} (h : YieldsSelect statement ks) :
    YieldsInput statement (ks ++ [.symbol .semicolon, .eof])

end SqlSelect
