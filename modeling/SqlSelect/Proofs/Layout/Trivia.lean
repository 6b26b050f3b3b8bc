/-
The text between tokens.

`Filler` is a mixture of blanks and comments that all close, and skipping
passes it whatever stands behind. Conversely what is skipped before a
token is filler. Only at the end of a text a comment to the end of the
line may go without its line break, and with one it is filler again.
-/
import SqlSelect.Token.Trivia

namespace SqlSelect

open Text (isBlank)

/-- Blanks, comments that end with their line, and comments that close. -/
inductive Filler : List Char → Prop
  | nil : Filler []
  | blank {c : Char} {more : List Char} (blank : isBlank c = true) (later : Filler more) :
    Filler (c :: more)
  | line {body more : List Char} (inside : '\n' ∉ body) (later : Filler more) :
    Filler ('-' :: '-' :: (body ++ '\n' :: more))
  | block {body more : List Char} (inside : ¬['*', '/'] <:+: body) (later : Filler more) :
    Filler ('/' :: '*' :: (body ++ '*' :: '/' :: more))

theorem Filler.append {front back : List Char} (first : Filler front) (second : Filler back) :
    Filler (front ++ back) := by
  induction first with
  | nil => exact second
  | blank blank _ ih => exact .blank blank ih
  | line inside _ ih =>
      rw [List.cons_append, List.cons_append, List.append_assoc]
      exact .line inside ih
  | block inside _ ih =>
      rw [List.cons_append, List.cons_append, List.append_assoc]
      exact .block inside ih

namespace Trivia

variable {count n : Nat} {cs : List Char}

-- ========================================================== comments

/-- A comment in a line goes up to the first line break. -/
theorem skipLine_body {body : List Char} (inside : '\n' ∉ body) (count : Nat)
    (later : List Char) :
    skipLine count (body ++ '\n' :: later) = skip (count + body.length + 1) later := by
  induction body generalizing count with
  | nil => rw [List.nil_append, skipLine, if_pos rfl, List.length_nil, Nat.add_zero]
  | cons c body ih =>
      have other : c ≠ '\n' := fun same => inside (same ▸ List.mem_cons_self)
      rw [List.cons_append, skipLine, if_neg other,
        ih fun found => inside (List.mem_cons_of_mem _ found), List.length_cons]
      congr 1
      omega

theorem skipLine_open {body : List Char} (inside : '\n' ∉ body) (count : Nat) :
    skipLine count body = .token (count + body.length) := by
  induction body generalizing count with
  | nil => rfl
  | cons c body ih =>
      have other : c ≠ '\n' := fun same => inside (same ▸ List.mem_cons_self)
      rw [skipLine, if_neg other, ih fun found => inside (List.mem_cons_of_mem _ found),
        List.length_cons]
      congr 1
      omega

/-- A comment between marks goes up to the first closing mark. -/
theorem skipBlock_body {body : List Char} (inside : ¬['*', '/'] <:+: body) (opening count : Nat)
    (later : List Char) : skipBlock opening count (body ++ '*' :: '/' :: later)
      = skip (count + body.length + 2) later := by
  induction body generalizing count with
  | nil => rw [List.nil_append, skipBlock, List.length_nil, Nat.add_zero]
  | cons c body ih =>
      have tail := ih fun found => inside (found.trans (List.suffix_cons c body).isInfix)
      have passed : skipBlock opening count (c :: body ++ '*' :: '/' :: later)
          = skipBlock opening (count + 1) (body ++ '*' :: '/' :: later) := by
        rw [List.cons_append, skipBlock]
        intro more star closes
        subst star
        cases body with
        | nil => cases closes
        | cons d body =>
            obtain ⟨rfl, -⟩ := List.cons.inj closes
            exact inside ⟨[], body, rfl⟩
      rw [passed, tail, List.length_cons]
      congr 1
      omega

theorem skipBlock_open {body : List Char} (inside : ¬['*', '/'] <:+: body) (opening count : Nat) :
    skipBlock opening count body = .unclosed opening := by
  induction body generalizing count with
  | nil => rfl
  | cons c body ih =>
      rw [skipBlock, ih fun found => inside (found.trans (List.suffix_cons c body).isInfix)]
      rintro more rfl rfl
      exact inside ⟨[], more, rfl⟩

/-- A text with closing marks has a first one. -/
theorem exists_closing (closes : ['*', '/'] <:+: cs) :
    ∃ body later, cs = body ++ '*' :: '/' :: later ∧ ¬['*', '/'] <:+: body := by
  induction cs with
  | nil => simp at closes
  | cons c cs ih =>
      by_cases here : ['*', '/'] <+: c :: cs
      · obtain ⟨later, hlater⟩ := here
        exact ⟨[], later, hlater.symm, by simp⟩
      · obtain ⟨body, later, rfl, inside⟩ := ih ((List.infix_cons_iff.1 closes).resolve_left here)
        refine ⟨c :: body, later, rfl, fun found => ?_⟩
        rcases List.infix_cons_iff.1 found with first | found
        · exact here (first.trans (List.prefix_append (c :: body) _))
        · exact inside found

-- ============================================================ filler

theorem skip_blank {c : Char} (blank : isBlank c = true) (count : Nat) (later : List Char) :
    skip count (c :: later) = skip (count + 1) later := by
  have other (d : Char) (plain : isBlank d = false) : c ≠ d := by
    rintro rfl
    rw [plain] at blank
    cases blank
  rw [skip, if_pos blank]
  · exact fun _ dash => absurd dash (other '-' (by decide))
  · exact fun _ slash => absurd slash (other '/' (by decide))

/-- Filler is passed, whatever stands behind it. -/
theorem skip_filler {gap : List Char} (h : Filler gap) (count : Nat) (later : List Char) :
    skip count (gap ++ later) = skip (count + gap.length) later := by
  induction h generalizing count with
  | nil => rfl
  | blank blank _ ih =>
      rw [List.cons_append, skip_blank blank, ih, List.length_cons]
      congr 1
      omega
  | line inside _ ih =>
      rw [List.cons_append, List.cons_append, List.append_assoc, skip, List.cons_append,
        skipLine_body inside, ih]
      simp only [List.length_cons, List.length_append]
      congr 1
      omega
  | block inside _ ih =>
      rw [List.cons_append, List.cons_append, List.append_assoc, skip, List.cons_append,
        List.cons_append, skipBlock_body inside, ih]
      simp only [List.length_cons, List.length_append]
      congr 1
      omega

/-- No trivia stands here. -/
structure Starts (cs : List Char) : Prop where
  plain : ∀ c ∈ cs.head?, isBlank c = false
  noLine : ¬['-', '-'] <+: cs
  noBlock : ¬['/', '*'] <+: cs

theorem starts_cons {c : Char} (plain : c ≠ '-' ∧ c ≠ '/' ∧ isBlank c = false)
    (later : List Char) : Starts (c :: later) := by
  obtain ⟨dash, slash, blank⟩ := plain
  refine ⟨?_, fun line => dash ?_, fun block => slash ?_⟩
  · rintro _ ⟨⟩
    exact blank
  · exact (List.cons_prefix_cons.1 line).1.symm
  · exact (List.cons_prefix_cons.1 block).1.symm

theorem skip_starts (h : Starts cs) (count : Nat) : skip count cs = .token count := by
  cases cs with
  | nil => rfl
  | cons c more =>
      rw [skip, h.plain c rfl]
      · rfl
      · rintro later rfl rfl
        exact h.noLine ⟨later, rfl⟩
      · rintro later rfl rfl
        exact h.noBlock ⟨later, rfl⟩

/-- What can stand behind filler: a token or nothing, or else a comment that
goes on to the end of the text. -/
inductive Next : List Char → Prop
  | token {cs : List Char} (starts : Starts cs) : Next cs
  | line {body : List Char} (inside : '\n' ∉ body) : Next ('-' :: '-' :: body)
  | block {body : List Char} (inside : ¬['*', '/'] <:+: body) : Next ('/' :: '*' :: body)

/-- Every text starts with filler, which may be empty. -/
theorem exists_filler (cs : List Char) :
    ∃ gap rest, cs = gap ++ rest ∧ Filler gap ∧ Next rest := by
  -- the comments are taken whole, so the induction is on the length
  generalize hlength : cs.length = length
  induction length using Nat.strongRecOn generalizing cs with
  | ind length ih =>
      have before {front : List Char} (first : Filler front) (filled : front ≠ [])
          (later : List Char) (whole : cs = front ++ later) :
          ∃ gap rest, cs = gap ++ rest ∧ Filler gap ∧ Next rest := by
        have fewer : later.length < length := by
          have := List.length_pos_iff.2 filled
          rw [← hlength, whole, List.length_append]
          omega
        obtain ⟨gap, rest, rfl, filler, next⟩ := ih _ fewer later rfl
        exact ⟨front ++ gap, rest, by rw [whole, List.append_assoc], first.append filler, next⟩
      by_cases line : ['-', '-'] <+: cs
      · obtain ⟨later, rfl⟩ := line
        by_cases ends : '\n' ∈ later
        · obtain ⟨body, more, rfl, inside⟩ := List.eq_append_cons_of_mem ends
          exact before (.line inside .nil) (List.cons_ne_nil _ _) more (by simp)
        · exact ⟨[], _, rfl, .nil, .line ends⟩
      by_cases block : ['/', '*'] <+: cs
      · obtain ⟨later, rfl⟩ := block
        by_cases closes : ['*', '/'] <:+: later
        · obtain ⟨body, more, rfl, inside⟩ := exists_closing closes
          exact before (.block inside .nil) (List.cons_ne_nil _ _) more (by simp)
        · exact ⟨[], _, rfl, .nil, .block closes⟩
      by_cases blank : ∃ c ∈ cs.head?, isBlank c = true
      · obtain ⟨c, first, blank⟩ := blank
        obtain ⟨later, rfl⟩ := List.head?_eq_some_iff.1 first
        exact before (.blank blank .nil) (List.cons_ne_nil _ _) later rfl
      · refine ⟨[], cs, rfl, .nil, .token ⟨fun c first => ?_, line, block⟩⟩
        exact Bool.eq_false_iff.2 fun found => blank ⟨c, first, found⟩

/-- Between the characters `count` and `n` of a text stands filler before a
token. At the end of the text it is filler with a line break behind it. -/
def Passed (count n : Nat) (cs : List Char) : Prop :=
  ∃ gap rest, cs = gap ++ rest ∧ n = count + gap.length ∧ Filler (gap ++ ['\n'])
    ∧ (rest ≠ [] → Filler gap ∧ Starts rest)

/-- What is skipped before a token is filler. -/
theorem skip_token (h : skip count cs = .token n) : Passed count n cs := by
  obtain ⟨gap, rest, rfl, filler, next⟩ := exists_filler cs
  rw [skip_filler filler] at h
  cases next with
  | token starts =>
      rw [skip_starts starts] at h
      obtain rfl := Skipped.token.inj h
      exact ⟨gap, rest, rfl, rfl, filler.append (.blank rfl .nil), fun _ => ⟨filler, starts⟩⟩
  | @line body inside =>
      rw [skip, skipLine_open inside] at h
      obtain rfl := Skipped.token.inj h
      refine ⟨gap ++ '-' :: '-' :: body, [], (List.append_nil _).symm, ?_, ?_,
        fun filled => absurd rfl filled⟩
      · simp only [List.length_append, List.length_cons]
        omega
      · rw [List.append_assoc]
        exact filler.append (.line inside .nil)
  | block inside =>
      rw [skip, skipBlock_open inside] at h
      cases h

end Trivia

end SqlSelect
