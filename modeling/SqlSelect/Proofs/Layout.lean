/-
The layout of a text does not matter.

The words of a text can be set apart by any gaps, each a blank with filler
behind it. A word is read again before a blank as it was read where it
stood, and the filler is passed, so the tokens are of the same kinds, and
from those the parse is the same. The text itself may have no gaps at all.
-/
import SqlSelect.Proofs.Kinds
import SqlSelect.Proofs.Layout.Pieces

namespace SqlSelect

open Text (byteLength isBlank)

/-- What sets words apart: a blank, and any filler behind it. -/
def Gap (gap : List Char) : Prop :=
  ∃ c more, gap = c :: more ∧ isBlank c = true ∧ Filler more

theorem Gap.filler {gap : List Char} (h : Gap gap) : Filler gap := by
  obtain ⟨c, more, rfl, blank, later⟩ := h
  exact .blank blank later

/-- A gap may stand behind any token. -/
theorem Gap.behind {gap : List Char} (h : Gap gap) (seen more : List Char) :
    Behind seen (gap ++ more) := by
  obtain ⟨c, _, rfl, blank, -⟩ := h
  exact .blank blank _ _

/-- The words with a gap before the first and one behind each. -/
def layOut (first : List Char) (words gaps : List (List Char)) : List Char :=
  first ++ (List.zipWith (· ++ ·) words gaps).flatten

/-- The words of a text are those of any layout of it. -/
theorem Divided.layOut {text : List Char} {pieces : List Piece} (h : Divided text pieces)
    {first : List Char} (opening : Gap first) {gaps : List (List Char)}
    (each : ∀ gap ∈ gaps, Gap gap) (enough : gaps.length = pieces.length) :
    ∃ pieces', Divided (layOut first (pieces.map Piece.word) gaps) pieces'
      ∧ pieces'.map Piece.kind = pieces.map Piece.kind := by
  induction h generalizing first gaps with
  | done =>
      obtain rfl := List.eq_nil_of_length_eq_zero enough
      refine ⟨[], .done ?_, rfl⟩
      have skipped := Trivia.skip_filler opening.filler 0 []
      rw [Nat.zero_add] at skipped
      rw [SqlSelect.layOut, List.zipWith_nil_right, List.flatten_nil, skipped, List.append_nil]
      rfl
  | @more gap word later kind pieces _ starts filled reads rest ih =>
      cases gaps with
      | nil => cases enough
      | cons next gaps =>
          have apart := each next List.mem_cons_self
          obtain ⟨pieces', divided, kinds⟩ := ih apart
            (fun gap given => each gap (List.mem_cons_of_mem _ given)) (Nat.succ.inj enough)
          have behind : Behind later (SqlSelect.layOut next (pieces.map Piece.word) gaps) :=
            apart.behind _ _
          have here := Divided.more opening.filler (Trivia.starts_behind behind filled starts)
            filled (Lexeme.scan_behind behind filled reads) divided
          refine ⟨⟨first, word, kind⟩ :: pieces', ?_, congrArg (kind :: ·) kinds⟩
          have whole :
              SqlSelect.layOut first ((⟨gap, word, kind⟩ :: pieces).map Piece.word) (next :: gaps)
                = first ++ (word ++ SqlSelect.layOut next (pieces.map Piece.word) gaps) := by
            simp [SqlSelect.layOut]
          rw [whole]
          exact here

/-- The texts of the tokens of a source, the end of the input apart. -/
def wordSlices (source : String) (tokens : List Token) : List (Option (List Char)) :=
  (tokens.filter fun token => token.kind ≠ .eof).map fun token =>
    Text.slice source.toList token.span.start token.span.stop

theorem wordSlices_of_divided {source : String} {pieces : List Piece}
    (h : Divided source.toList pieces) :
    wordSlices source (Piece.tokens 0 pieces ++ [endToken (byteLength source.toList)])
      = (pieces.map Piece.word).map some := by
  have inner : ∀ token ∈ Piece.tokens 0 pieces, decide (token.kind ≠ .eof) = true := by
    intro token given
    refine decide_eq_true fun eof => h.ne_eof ?_
    rw [← eof]
    exact Piece.mem_kinds given
  have only : (Piece.tokens 0 pieces ++ [endToken (byteLength source.toList)]).filter
      (fun token => token.kind ≠ .eof) = Piece.tokens 0 pieces := by
    rw [List.filter_append, List.filter_eq_self.2 inner]
    exact List.append_nil _
  rw [wordSlices, only, List.map_map]
  exact h.slices []

/-- However the words of a text are laid out, its tokens are of the same
kinds. -/
theorem tokenize_layOut {source : String} {tokens : List Token} (h : tokenize source = .ok tokens) :
    ∃ words, wordSlices source tokens = words.map some
      ∧ ∀ first gaps, Gap first → (∀ gap ∈ gaps, Gap gap) → gaps.length = words.length →
        ∃ tokens', tokenize (String.ofList (layOut first words gaps)) = .ok tokens'
          ∧ tokens'.map Token.kind = tokens.map Token.kind := by
  obtain ⟨pieces, divided, rfl⟩ := divided_of_tokenize h
  refine ⟨pieces.map Piece.word, wordSlices_of_divided divided, ?_⟩
  intro first gaps opening each enough
  rw [List.length_map] at enough
  obtain ⟨pieces', divided', kinds⟩ := divided.layOut opening each enough
  have text := String.toList_ofList (l := layOut first (pieces.map Piece.word) gaps)
  refine ⟨_, tokenize_of_divided (text.symm ▸ divided'), ?_⟩
  rw [map_kind_of_divided, map_kind_of_divided, kinds]

/-- The words of a text can be laid out in any way: the tokens are of the
same kinds, and the parse yields the same statement or fails for the same
cause. -/
theorem parse_layOut {source : String} {tokens : List Token} (h : tokenize source = .ok tokens) :
    ∃ words, wordSlices source tokens = words.map some
      ∧ ∀ first gaps, Gap first → (∀ gap ∈ gaps, Gap gap) → gaps.length = words.length →
        (∃ tokens', tokenize (String.ofList (layOut first words gaps)) = .ok tokens'
          ∧ tokens'.map Token.kind = tokens.map Token.kind)
        ∧ ((∃ statement, parse source = .ok statement
            ∧ parse (String.ofList (layOut first words gaps)) = .ok statement)
          ∨ ∃ e f, parse source = .error e
            ∧ parse (String.ofList (layOut first words gaps)) = .error f ∧ e.cause = f.cause) := by
  obtain ⟨words, slices, layouts⟩ := tokenize_layOut h
  refine ⟨words, slices, fun first gaps opening each enough => ?_⟩
  obtain ⟨tokens', h', same⟩ := layouts first gaps opening each enough
  refine ⟨⟨tokens', h', same⟩, ?_⟩
  cases hinput : Grammar.input (.ofKinds (tokens.map Token.kind)) with
  | ok statement after =>
      have hinput' := hinput
      rw [← same] at hinput'
      exact Or.inl ⟨statement, parse_of_input h hinput, parse_of_input h' hinput'⟩
  | error fault after =>
      have hinput' := hinput
      rw [← same] at hinput'
      obtain ⟨e, he, ecause, -⟩ := parse_of_fault h hinput
      obtain ⟨f, hf, fcause, -⟩ := parse_of_fault h' hinput'
      exact Or.inr ⟨e, f, he, hf, ecause.trans fcause.symm⟩

/-- A text without gaps, laid out with comments that look as if they ended
elsewhere: either way it is the same statement. -/
theorem parse_layOut_unspaced :
    ∃ tokens statement, tokenize "select*from\"test\"" = .ok tokens
      ∧ wordSlices "select*from\"test\"" tokens = [some ['s', 'e', 'l', 'e', 'c', 't'],
        some ['*'], some ['f', 'r', 'o', 'm'], some ['"', 't', 'e', 's', 't', '"']]
      ∧ statement = Select.mk false (some [⟨.wildcard, none⟩]) (some [.plain "test"]) none none none
        none none
      ∧ parse "select*from\"test\"" = .ok statement
      ∧ ∃ words first gap, wordSlices "select*from\"test\"" tokens = words.map some
        ∧ first = [' ', '/', '*', '/', ' ', '*', '/', '/', '*', '*', '*', '/'] ∧ Gap first
        ∧ gap = ['\t', '-', '-', '\'', '\n'] ∧ Gap gap
        ∧ parse (String.ofList (layOut first words [gap, gap, gap, gap])) = .ok statement := by
  have found : (tokenize "select*from\"test\"").toOption.map (wordSlices "select*from\"test\"")
      = some [some ['s', 'e', 'l', 'e', 'c', 't'], some ['*'], some ['f', 'r', 'o', 'm'],
        some ['"', 't', 'e', 's', 't', '"']] := by
    decide +kernel
  have text : (tokenize "select*from\"test\"").toOption.map (List.map Token.kind)
      = some [.word "select", .symbol .star, .word "from", .quoted "test", .eof] := by
    decide +kernel
  obtain ⟨tokens, h, known⟩ := exists_of_toOption_map found
  obtain ⟨statement, tree, accepted⟩ : ∃ statement, statement = Select.mk false
      (some [⟨.wildcard, none⟩]) (some [.plain "test"]) none none none none none
      ∧ parse "select*from\"test\"" = .ok statement := ⟨_, rfl, parse_of_kinds text rfl⟩
  have block : Filler ['/', '*', '*', '*', '/'] := @Filler.block ['*'] [] (by decide) .nil
  have first : Gap [' ', '/', '*', '/', ' ', '*', '/', '/', '*', '*', '*', '/'] :=
    ⟨' ', _, rfl, rfl, @Filler.block ['/', ' '] _ (by decide) block⟩
  have gap : Gap ['\t', '-', '-', '\'', '\n'] :=
    ⟨'\t', _, rfl, rfl, @Filler.line ['\''] [] (by decide) .nil⟩
  obtain ⟨words, slices, layouts⟩ := parse_layOut h
  have count : 4 = words.length := by
    have := congrArg List.length (known.symm.trans slices)
    rwa [List.length_map] at this
  have each {g : List Char} (h : Gap g) : ∀ x ∈ [g, g, g, g], Gap x := by
    simp only [List.mem_cons, List.not_mem_nil, or_false, or_self]
    rintro _ rfl
    exact h
  refine ⟨tokens, statement, h, known, tree, accepted, words, _, _, slices, rfl, first, rfl, gap,
    ?_⟩
  rcases (layouts _ _ first (each gap) count).2 with ⟨statement', left, right⟩ | ⟨e, f, left, -⟩
  · rw [accepted] at left
    rw [right, ← Except.ok.inj left]
  · rw [accepted] at left
    cases left

end SqlSelect
