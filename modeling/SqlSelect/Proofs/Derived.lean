/-
A statement in parentheses is read as it is by itself.

Up to the closing parenthesis every part of a statement reads what it reads
up to the end of the input, which `clear_selectWithin` says of any two such
ends. A text that is accepted, and that no semicolon ends, can therefore
stand as a derived table in another; a line break behind it ends whatever
comment it may end with. Without an alias that table is refused, from one
parenthesis to the other.

The statement around it is a host: `Hosts` says that one parser does what
another does somewhere inside it, whatever that comes to, so success and
failure of the derived table are carried outward by the same steps.

# Hosts

`Hosts p ks rest q f` says that behind the tokens `ks` the parser `p` does what
`q` does, and makes `f` of what that yields where the input ends behind it. It
is built up as reading is, one step of the host at a time. A host of a parser
that fails fails with it, which reading by itself would not say, so the two
outcomes of the derived table share every step but the innermost.

# The text

The pieces of the text in parentheses are those of the text by itself. A
comment at its end that has no line break gets one, and becomes part of the
trivia before the closing parenthesis (`Divided.append_line`).
-/
import SqlSelect.Proofs.Kinds
import SqlSelect.Proofs.Layout.Pieces
import SqlSelect.Proofs.Twin.Select

namespace SqlSelect

open Text (byteLength)

/-- Every column of one entry. -/
def Select.allFrom (entry : Source) : Select where
  distinct := false
  columns := some [⟨.wildcard, none⟩]
  sources := some [entry]
  filter := none
  groups := none
  having := none
  order := none
  limit := none

namespace Grammar

variable {α β γ : Type}

-- ======================================================== the statement

/-- At the end of the input all tokens before it are passed. -/
theorem Moves.whole {kinds ks : List Kind} {s t : State} (inner : .eof ∉ kinds) (m : Moves s ks t)
    (hs : s.rest = kinds ++ [.eof]) (stop : t.kindAt 0 = .eof) :
    ks = kinds ∧ t.rest = [.eof] := by
  have split : kinds ++ [.eof] = ks ++ t.rest := hs.symm.trans m.rest
  rcases List.append_eq_append_iff.1 split with ⟨more, rfl, last⟩ | ⟨more, rfl, behind⟩
  · cases more with
    | nil => exact ⟨List.append_nil kinds, last.symm⟩
    | cons kind later =>
        obtain rfl : Kind.eof = kind := (List.cons.inj last).1
        exact absurd (List.mem_append_right kinds List.mem_cons_self) m.inner
  · cases more with
    | nil => exact ⟨(List.append_nil ks).symm, behind⟩
    | cons kind later =>
        obtain rfl : kind = .eof := (State.kindAt_of_rest behind).symm.trans stop
        exact absurd (List.mem_append_right ks List.mem_cons_self) inner

/-- A whole input that does not end with a semicolon is the statement. -/
theorem selectWithin_of_input {kinds : List Kind} {statement : Select} {after : State}
    (inner : .eof ∉ kinds) (plain : kinds.getLast? ≠ some (.symbol .semicolon))
    (h : input (.ofKinds (kinds ++ [.eof])) = .ok statement after) :
    ∃ t, selectWithin (kinds ++ [Kind.eof]).length (.ofKinds (kinds ++ [.eof])) = .ok statement t
      ∧ t.rest = [.eof] := by
  unfold input at h
  rw [tokensLeft_bind] at h
  obtain ⟨found, t, hselect, h⟩ := bind_ok.1 h
  obtain ⟨given, u, hend, h⟩ := bind_ok.1 h
  have course : Course true 0 (selectWithin (kinds ++ [Kind.eof]).length) := course_selectWithin _
  obtain ⟨ks, m⟩ := course.forward hselect
  have last : found = statement ∧ u.kindAt 0 = .eof := by
    rw [current_bind] at h
    cases here : u.kindAt 0 with
    | eof =>
        rw [here] at h
        exact ⟨(pure_ok.1 h).1, rfl⟩
    | _ =>
        rw [here] at h
        cases h
  obtain ⟨rfl, stop⟩ := last
  rcases consume_ok hend with ⟨-, n⟩ | ⟨-, rfl, -⟩
  · obtain ⟨rfl, -⟩ := (m.trans n).whole inner rfl stop
    exact absurd List.getLast?_concat plain
  · exact ⟨_, hselect, (m.whole inner rfl stop).2⟩

/-- A statement that is a whole input is read before anything else that ends
lists and is no keyword. -/
theorem reads_before {kinds : List Kind} {statement : Select} {after : State}
    (inner : .eof ∉ kinds) (plain : kinds.getLast? ≠ some (.symbol .semicolon))
    (h : input (.ofKinds (kinds ++ [.eof])) = .ok statement after) {bound : Nat}
    (enough : kinds.length ≤ bound) (rest : List Kind) (stops : Stops (next rest))
    (bare : (next rest).keyword? = none) :
    Reads (selectWithin bound) kinds rest statement := by
  obtain ⟨t, hselect, ht⟩ := selectWithin_of_input inner plain h
  -- one run stops at the end of the input, the other before `rest`
  let k : Fork := ⟨[.eof], rest, rfl, stops.halts⟩
  have free : k.Bare := fun keyword => ⟨nofun, by rw [bare]; exact nofun⟩
  have within : kinds.length ≤ (kinds ++ [Kind.eof]).length := by
    rw [List.length_append]
    exact Nat.le_add_right _ _
  have course : Course true 0 (selectWithin bound) := course_selectWithin bound
  have same := clear_selectWithin free stops within enough
  exact same.meets.reads course.forward (Nat.le_refl _) rfl hselect ht

-- ============================================================ its host

/-- Behind `ks` the parser `p` does what `q` does, and where the input ends
behind that it makes `f b` of what `q` yields. -/
def Hosts (p : Parser α) (ks rest : List Kind) (q : Parser β) (f : β → α) : Prop :=
  ∃ later : β → Parser α, Runs p ks rest (q >>= later) ∧ ∀ b, Reads (later b) [] [.eof] (f b)

namespace Hosts

variable {p : Parser α} {q : Parser β} {f : β → α} {ks ls rest : List Kind}

theorem of_runs {p : Parser β} (h : Runs p ks rest q) : Hosts p ks rest q id :=
  ⟨pure, (bind_pure q).symm ▸ h, fun _ => Runs.refl _ _⟩

/-- A token in front is passed. -/
theorem cons {k : Kind} {r : Parser γ} {g : γ → Parser α} {c : γ}
    (first : Reads r [k] (ks ++ rest) c) (h : Hosts (g c) ks rest q f) :
    Hosts (r >>= g) (k :: ks) rest q f := by
  obtain ⟨later, runs, ends⟩ := h
  exact ⟨later, first.cons runs, ends⟩

/-- What may stand in front and does not. -/
theorem none {r : Parser γ} {g : γ → Parser α} {c : γ} (first : Reads r [] (ks ++ rest) c)
    (h : Hosts (g c) ks rest q f) : Hosts (r >>= g) ks rest q f := by
  obtain ⟨later, runs, ends⟩ := h
  exact ⟨later, first.none runs, ends⟩

/-- What comes behind sees the end of the input. -/
theorem before {g : α → Parser γ} {f' : β → γ} (h : Hosts p ks rest q f)
    (last : ∀ b, Reads (g (f b)) [] [.eof] (f' b)) : Hosts (p >>= g) ks rest q f' := by
  obtain ⟨later, runs, ends⟩ := h
  refine ⟨fun b => later b >>= g, ?_, fun b => (ends b).last (last b)⟩
  rw [← bind_assoc]
  exact runs.bind g

theorem tokensLeft {g : Nat → Parser α} (h : Hosts (g (ks ++ rest).length) ks rest q f) :
    Hosts (tokensLeft >>= g) ks rest q f := by
  obtain ⟨later, runs, ends⟩ := h
  exact ⟨later, runs_tokensLeft runs, ends⟩

theorem reads {b : β} (h : Hosts p ks (ls ++ [.eof]) q f) (inside : Reads q ls [.eof] b) :
    Reads p (ks ++ ls) [.eof] (f b) := by
  obtain ⟨later, runs, ends⟩ := h
  exact runs.trans (inside.last (ends b))

/-- It fails where `q` does. -/
theorem fails (h : Hosts p ks rest q f) {s : State} (hs : s.rest = ks ++ rest) :
    ∃ t : State, t.rest = rest ∧ t.position = s.position + ks.length
      ∧ ∀ fault t', q t = .error fault t' → p s = .error fault t' := by
  obtain ⟨later, runs, -⟩ := h
  obtain ⟨t, ht, position, same⟩ := runs s hs
  refine ⟨t, ht, position, fun fault t' hq => ?_⟩
  rw [same, bind_apply, hq]

end Hosts

/-- The first entry of the `FROM` list is the only one where the input ends
behind it. -/
theorem hosts_from (bound : Nat) (rest : List Kind) :
    Hosts (clause .FROM (sources (selectWithin bound))) [Keyword.FROM.kind]
      (.symbol .leftParen :: rest) (derivedTable (selectWithin bound)) (some [·]) := by
  have entry : Runs (source (selectWithin bound)) [] (.symbol .leftParen :: rest)
      (derivedTable (selectWithin bound)) :=
    runs_atSymbol (runs_if rfl (Runs.refl _ _))
  have only : Reads (moreSources (selectWithin bound) 1) [] [.eof] [] := by
    rw [← moreSourceKinds]
    exact reads_moreSources .done (Nat.zero_le _) (Nat.zero_le 1) .eof
  have list : Hosts (sources (selectWithin bound)) [] (.symbol .leftParen :: rest)
      (derivedTable (selectWithin bound)) ([·]) :=
    (Hosts.of_runs entry).before fun b => runs_tokensLeft (only.none (Runs.refl _ _))
  refine Hosts.cons (reads_consumeKeyword .FROM _) ?_
  exact list.before fun b => Runs.refl _ _

/-- A wildcard before the `FROM` clause. -/
theorem reads_columns_wildcard (rest : List Kind) :
    Reads columns [.symbol .star] (Keyword.FROM.kind :: rest) (some [⟨.wildcard, none⟩]) := by
  have ends : Ends [.FROM, .WHERE, .GROUP, .HAVING, .ORDER, .LIMIT, .OFFSET]
      (Keyword.FROM.kind :: rest) := .keyword List.mem_cons_self
  have normal : ∀ items ∈ some [Column.mk .wildcard none], items ≠ [] ∧ ∀ c ∈ items, c.Normal := by
    rintro _ ⟨⟩
    refine ⟨List.cons_ne_nil _ _, fun c hc => ?_⟩
    obtain rfl := List.mem_singleton.1 hc
    exact Or.inl ⟨rfl, rfl⟩
  exact reads_columns normal ends

/-- No clause comes before the end of the input. -/
theorem reads_clause_eof (keyword : Keyword) (body : Parser α) :
    Reads (clause keyword body) [] [.eof] none :=
  reads_clause_absent nofun

/-- Up to its entry such a statement is read whatever the entry is. -/
theorem hosts_selectWithin (bound : Nat) (rest : List Kind) :
    Hosts (selectWithin (bound + 1)) [Keyword.SELECT.kind, .symbol .star, Keyword.FROM.kind]
      (.symbol .leftParen :: rest) (derivedTable (selectWithin bound)) .allFrom := by
  have plain : Reads distinct [] (.symbol .star :: Keyword.FROM.kind :: .symbol .leftParen :: rest)
      false :=
    reads_distinct (d := false) fun word _ here => nomatch here
  have all := reads_columns_wildcard (.symbol .leftParen :: rest)
  refine Hosts.cons (reads_expectKeyword .SELECT _) ?_
  refine Hosts.none plain (Hosts.cons all ?_)
  refine (hosts_from bound rest).before fun entry => ?_
  refine (reads_clause_eof _ _).none ((reads_clause_eof _ _).none ?_)
  refine (reads_clause_eof _ _).none ((reads_clause_eof _ _).none ?_)
  have absent : ∀ limit ∈ (none : Option Limit), limit.Normal := nofun
  have unlimited : Reads limitClause [] [.eof] none := reads_limitClause absent .eof
  exact unlimited.none (Runs.refl _ _)

theorem hosts_input (rest : List Kind) :
    Hosts input [Keyword.SELECT.kind, .symbol .star, Keyword.FROM.kind]
      (.symbol .leftParen :: rest) (derivedTable (selectWithin (rest.length + 3))) .allFrom := by
  refine Hosts.tokensLeft ((hosts_selectWithin _ rest).before fun entry => ?_)
  have stop : next [.eof] ≠ .symbol .semicolon := nofun
  exact (reads_consume_absent stop).none (runs_current (Runs.refl _ _))

-- ==================================================== the derived table

section Entry

variable {select : Parser Select} {statement : Select} {ks rest : List Kind}

/-- A statement in parentheses with a name behind it. -/
theorem reads_derivedTable_named (name : String)
    (h : Reads select ks (.symbol .rightParen :: .quoted name :: rest) statement) :
    Reads (derivedTable select) (.symbol .leftParen :: (ks ++ [.symbol .rightParen, .quoted name]))
      rest (.derived statement name none) := by
  have named : Reads optionalAlias [.quoted name] rest (some name) := by
    have bare : (next (.quoted name :: rest)).keyword? ≠ some .AS := nofun
    refine (reads_consumeKeyword_absent bare).none (runs_current (runs_if rfl ?_))
    exact (reads_identifier _ rfl).map (f := some)
  refine runs_expect fun start => Reads.then h (runs_expect fun stop => ?_)
  exact named.last (Runs.refl _ _)

/-- Without a name it is refused, from one parenthesis to the other. -/
theorem derivedTable_unnamed (h : Reads select ks (.symbol .rightParen :: rest) statement)
    (closes : Closes rest) {s : State}
    (hs : s.rest = .symbol .leftParen :: (ks ++ .symbol .rightParen :: rest)) :
    ∃ t, derivedTable select s = .error ⟨.invalid .derivedTableWithoutAlias,
      ⟨s.position, s.position + 1 + ks.length⟩⟩ t := by
  have opens := State.kindAt_of_rest hs
  obtain ⟨t, ht, tposition, hselect⟩ := h s.advance (State.rest_advance hs nofun)
  obtain ⟨u, -, -, hnone⟩ := reads_optionalAlias none closes t.advance
    (State.rest_advance ht nofun)
  have refused : derivedTable select s
      = reject .derivedTableWithoutAlias s.position (s.position + 1 + ks.length) u := by
    unfold derivedTable
    rw [expect_bind, if_pos opens, bind_apply, hselect]
    show (expect .rightParen >>= _) t = _
    rw [expect_bind, if_pos (State.kindAt_of_rest ht), bind_apply, hnone, tposition,
      (moves_advance opens nofun).position]
    rfl
  exact ⟨_, refused⟩

end Entry

/-- The tokens in front of a statement in parentheses. -/
abbrev opening : List Kind :=
  [Keyword.SELECT.kind, .symbol .star, Keyword.FROM.kind, .symbol .leftParen]

section Inner

variable {kinds : List Kind} {statement : Select} {after : State} (inner : .eof ∉ kinds)
  (plain : kinds.getLast? ≠ some (.symbol .semicolon))
  (h : input (.ofKinds (kinds ++ [.eof])) = .ok statement after)
include inner plain h

theorem input_derived (name : String) : ∃ t,
    input (.ofKinds (opening ++ (kinds ++ [.symbol .rightParen, .quoted name] ++ [.eof])))
      = .ok (.allFrom (.derived statement name none)) t := by
  have host := hosts_input (kinds ++ [.symbol .rightParen, .quoted name] ++ [.eof])
  have enough : kinds.length
      ≤ (kinds ++ [Kind.symbol .rightParen, .quoted name] ++ [Kind.eof]).length + 3 := by
    rw [List.append_assoc, List.length_append]
    omega
  have entry := reads_derivedTable_named name
    (reads_before inner plain h enough [.symbol .rightParen, .quoted name, .eof] rfl rfl)
  obtain ⟨t, -, -, whole⟩ := host.reads entry (.ofKinds _) rfl
  exact ⟨t, whole⟩

theorem input_unnamed : ∃ t,
    input (.ofKinds (opening ++ (kinds ++ [.symbol .rightParen] ++ [.eof])))
      = .error ⟨.invalid .derivedTableWithoutAlias, ⟨3, 4 + kinds.length⟩⟩ t := by
  have host := hosts_input (kinds ++ [.symbol .rightParen] ++ [.eof])
  have enough : kinds.length ≤ (kinds ++ [Kind.symbol .rightParen] ++ [Kind.eof]).length + 3 := by
    rw [List.append_assoc, List.length_append]
    omega
  obtain ⟨s, hs, sposition, fails⟩ :=
    host.fails (s := .ofKinds (opening ++ (kinds ++ [.symbol .rightParen] ++ [.eof]))) rfl
  rw [List.append_assoc] at hs
  obtain ⟨t, fault⟩ := derivedTable_unnamed
    (reads_before inner plain h enough [.symbol .rightParen, .eof] rfl rfl) .eof hs
  have third : s.position = 3 := sposition
  rw [third] at fault
  exact ⟨t, fails _ t fault⟩

end Inner

end Grammar

-- ============================================================= the text

/-- The pieces of a text that is accepted and that no semicolon ends. -/
theorem divided_of_parse {source : String} {tokens : List Token} {statement : Select}
    (h : parse source = .ok statement) (htokens : tokenize source = .ok tokens)
    (plain : (tokens.map Token.kind).dropLast.getLast? ≠ some (.symbol .semicolon)) :
    ∃ pieces after, Divided source.toList pieces
      ∧ tokens = Piece.tokens 0 pieces ++ [endToken (byteLength source.toList)]
      ∧ (pieces.map Piece.kind).getLast? ≠ some (.symbol .semicolon)
      ∧ Grammar.input (.ofKinds (pieces.map Piece.kind ++ [.eof])) = .ok statement after := by
  obtain ⟨pieces, divided, rfl⟩ := divided_of_tokenize htokens
  obtain ⟨tokens', after, htokens', hinput⟩ := parse_ok h
  obtain rfl := Except.ok.inj (htokens.symm.trans htokens')
  rw [map_kind_of_divided] at hinput plain
  rw [List.dropLast_concat] at plain
  exact ⟨pieces, after, divided, rfl, plain, hinput⟩

/-- A text is accepted if the grammar takes its pieces. -/
theorem parse_of_divided {source : String} {pieces : List Piece} {statement : Select}
    {after : Grammar.State} (divided : Divided source.toList pieces)
    (h : Grammar.input (.ofKinds (pieces.map Piece.kind ++ [.eof])) = .ok statement after) :
    parse source = .ok statement := by
  rw [← map_kind_of_divided pieces (byteLength source.toList)] at h
  exact parse_of_input (tokenize_of_divided divided) h

/-- The pieces in front of the parentheses. -/
def headingPieces : List Piece :=
  [⟨[], ['s', 'e', 'l', 'e', 'c', 't'], Keyword.SELECT.kind⟩, ⟨[' '], ['*'], .symbol .star⟩,
    ⟨[' '], ['f', 'r', 'o', 'm'], Keyword.FROM.kind⟩]

/-- The opening parenthesis. -/
def openingPiece : Piece := ⟨[' '], ['('], .symbol .leftParen⟩

/-- The closing parenthesis on a line of its own, behind what trivia the
line before it ends with. -/
def closingPiece (last : List Char) : Piece := ⟨last ++ ['\n'], [')'], .symbol .rightParen⟩

theorem Divided.opening {text : List Char} {pieces : List Piece} (h : Divided text pieces) :
    Divided ("select * from (".toList ++ text) (headingPieces ++ openingPiece :: pieces) := by
  have blank : Filler [' '] := .blank rfl .nil
  have starts : Trivia.Starts (['('] ++ text) := Trivia.starts_cons (by decide) text
  have reads : Lexeme.scan (['('] ++ text) = .ok (.symbol .leftParen) 1 := rfl
  have paren := Divided.more blank starts (List.cons_ne_nil _ _) reads h
  have hselect : Spells ['s', 'e', 'l', 'e', 'c', 't'] Keyword.SELECT.kind :=
    ⟨List.cons_ne_nil _ _, Trivia.starts_cons (by decide) _, rfl⟩
  have hstar : Spells ['*'] (.symbol .star) := spells_symbol .star
  have hfrom : Spells ['f', 'r', 'o', 'm'] Keyword.FROM.kind :=
    ⟨List.cons_ne_nil _ _, Trivia.starts_cons (by decide) _, rfl⟩
  have entry := hstar.divided blank (Or.inr ⟨_, rfl⟩) (hfrom.divided blank (Or.inr ⟨_, rfl⟩) paren)
  exact hselect.divided .nil (Or.inr ⟨_, rfl⟩) entry

/-- A name in quotes. -/
theorem divided_quoted {name : String} (filled : name ≠ "") :
    Divided (' ' :: inQuotes '"' name.toList)
      [⟨[' '], inQuotes '"' name.toList, .quoted name⟩] := by
  have blank : Filler [' '] := .blank rfl .nil
  have last := (spells_quoted filled).divided blank (Or.inl rfl) (.done rfl)
  rwa [List.append_nil] at last

theorem closingPiece_size (last : List Char) :
    (closingPiece last).size = byteLength last + 2 := by
  show byteLength (last ++ ['\n']) + 1 = byteLength last + 2
  rw [Text.byteLength_append]
  rfl

/-- A text in parentheses has its own pieces between those of the text
around it. -/
theorem Divided.enclosed {source behind : String} {pieces later : List Piece}
    (inside : Divided source.toList pieces) (outside : Divided (' ' :: behind.toList) later) :
    ∃ last, byteLength source.toList = Piece.sizes pieces + byteLength last
      ∧ Divided ("select * from (" ++ source ++ "\n) " ++ behind).toList
        (headingPieces ++ openingPiece :: (pieces ++ closingPiece last :: later)) := by
  have closing : Divided (')' :: ' ' :: behind.toList)
      (⟨[], [')'], .symbol .rightParen⟩ :: later) :=
    (spells_symbol .rightParen).divided .nil (Or.inr ⟨_, rfl⟩) outside
  obtain ⟨last, size, divided⟩ := inside.append_line closing
  refine ⟨last, size, ?_⟩
  have text : ("select * from (" ++ source ++ "\n) " ++ behind).toList
      = "select * from (".toList ++ (source.toList ++ '\n' :: ')' :: ' ' :: behind.toList) := by
    simp only [String.toList_append, List.append_assoc]
    rfl
  rw [text]
  exact divided.opening

/-- The tokens of a text in parentheses, and where the parentheses are. -/
theorem tokenize_enclosed {source behind : String} {pieces later : List Piece}
    (inside : Divided source.toList pieces) (outside : Divided (' ' :: behind.toList) later) :
    ∃ tokens, tokenize ("select * from (" ++ source ++ "\n) " ++ behind) = .ok tokens
      ∧ tokens.map Token.kind = Grammar.opening
        ++ (pieces.map Piece.kind ++ .symbol .rightParen :: later.map Piece.kind ++ [.eof])
      ∧ ∀ span : Span, span.Runs tokens 3 (4 + pieces.length) →
        span = ⟨"select * from ".utf8ByteSize,
          ("select * from (" ++ source ++ "\n)").utf8ByteSize⟩ := by
  obtain ⟨last, size, divided⟩ := inside.enclosed outside
  refine ⟨_, tokenize_of_divided divided, ?_, ?_⟩
  · rw [map_kind_of_divided]
    simp [headingPieces, openingPiece, closingPiece]
  · rintro span ⟨a, b, ha, hb, rfl⟩
    obtain rfl := Option.some.inj ((Piece.getElem?_tokens 0 headingPieces _ _ _).symm.trans ha)
    have width : 4 + pieces.length = (headingPieces ++ openingPiece :: pieces).length := by
      show 4 + pieces.length = pieces.length + 1 + 3
      omega
    rw [width, ← List.cons_append, ← List.append_assoc] at hb
    obtain rfl := Option.some.inj ((Piece.getElem?_tokens 0 _ _ _ _).symm.trans hb)
    have heading : Piece.sizes headingPieces = 13 := rfl
    have opens : openingPiece.size = 2 := rfl
    have front : "select * from (".utf8ByteSize = 15 := rfl
    have back : "\n)".utf8ByteSize = 2 := rfl
    show Span.mk 14 (0 + Piece.sizes (headingPieces ++ openingPiece :: pieces)
      + (closingPiece last).size) = _
    rw [String.utf8ByteSize_append, String.utf8ByteSize_append, ← Text.byteLength_toList source,
      Piece.sizes_append, Piece.sizes, closingPiece_size]
    congr 1
    omega

/-- A text that is accepted and that no semicolon ends is accepted in
parentheses with a name behind them, as the statement it is by itself.
Without the name the parentheses are refused. -/
theorem parse_derived {source name : String} {tokens : List Token} {statement : Select}
    (h : parse source = .ok statement) (htokens : tokenize source = .ok tokens)
    (plain : (tokens.map Token.kind).dropLast.getLast? ≠ some (.symbol .semicolon))
    (filled : name ≠ "") :
    parse ("select * from (" ++ source ++ "\n) " ++ String.ofList (inQuotes '"' name.toList))
        = .ok (.allFrom (.derived statement name none))
      ∧ ∃ e, parse ("select * from (" ++ source ++ "\n) ") = .error e
        ∧ e.cause = .invalid .derivedTableWithoutAlias
        ∧ e.span = ⟨"select * from ".utf8ByteSize,
            ("select * from (" ++ source ++ "\n)").utf8ByteSize⟩ := by
  obtain ⟨pieces, after, divided, -, plain, hinput⟩ := divided_of_parse h htokens plain
  constructor
  · have outside := divided_quoted filled
    rw [← String.toList_ofList (l := inQuotes '"' name.toList)] at outside
    obtain ⟨around, found, kinds, -⟩ := tokenize_enclosed divided outside
    obtain ⟨t, accepted⟩ := Grammar.input_derived divided.ne_eof plain hinput name
    exact parse_of_input found (kinds.symm ▸ accepted)
  · have outside : Divided (' ' :: "".toList) [] := .done rfl
    obtain ⟨around, found, kinds, place⟩ := tokenize_enclosed divided outside
    rw [String.append_empty] at found
    obtain ⟨t, refused⟩ := Grammar.input_unnamed divided.ne_eof plain hinput
    obtain ⟨e, he, cause, -, span⟩ := parse_of_fault found (kinds.symm ▸ refused)
    rw [List.length_map] at span
    exact ⟨e, he, cause, place _ span⟩

/-- A text that ends inside a comment, with a name that has a quote in it. -/
theorem parse_derived_comment :
    ∃ tokens statement, tokenize "select a from t group by (b) -- c" = .ok tokens
      ∧ parse "select a from t group by (b) -- c" = .ok statement
      ∧ (tokens.map Token.kind).dropLast.getLast? ≠ some (.symbol .semicolon)
      ∧ parse ("select * from (" ++ "select a from t group by (b) -- c" ++ "\n) "
          ++ String.ofList (inQuotes '"' "q\"r".toList))
        = .ok (.allFrom (.derived statement "q\"r" none))
      ∧ ∃ e, parse ("select * from (" ++ "select a from t group by (b) -- c" ++ "\n) ") = .error e
        ∧ e.cause = .invalid .derivedTableWithoutAlias
        ∧ e.span = ⟨"select * from ".utf8ByteSize,
            ("select * from (" ++ "select a from t group by (b) -- c" ++ "\n)").utf8ByteSize⟩ := by
  have accepted : (parse "select a from t group by (b) -- c").toOption.isSome := by decide +kernel
  have last : (tokenize "select a from t group by (b) -- c").toOption.map
      (fun tokens => (tokens.map Token.kind).dropLast.getLast?)
        = some (some (.symbol .rightParen)) := by
    decide +kernel
  obtain ⟨statement, h⟩ := exists_of_toOption_isSome accepted
  obtain ⟨tokens, htokens, last⟩ := exists_of_toOption_map last
  have plain : (tokens.map Token.kind).dropLast.getLast? ≠ some (.symbol .semicolon) := by
    rw [last]
    exact nofun
  exact ⟨tokens, statement, htokens, h, plain, parse_derived h htokens plain (by decide)⟩

end SqlSelect
