import Mathlib.Data.List.Basic
import SdbController.Lexing.Lexer

/-!
# Writing a literal

`stuff quote extra body` is a text with every `quote` in it followed by `extra`: the text as it is
if `extra` is empty, the text with its quotes doubled if `extra` is one more. To the lexer the
second quote of a doubled one is no escape, so neither way of writing says more than the text that
holds no quote and no escape character.

## Main results

* `lexFrom_literal_iff` — a text is read back if and only if it is plain
-/

namespace Lexing

variable {rules : Rules} {quote : Char} {extra : List Char}

/-- A text with every `quote` in it followed by `extra`. -/
def stuff (quote : Char) (extra body : List Char) : List Char :=
  body.flatMap fun c => if c = quote then quote :: extra else [c]

/-- Neither the quote nor the escape character occurs. -/
def Plain (rules : Rules) (quote : Char) (body : List Char) : Prop :=
  quote ∉ body ∧ rules.escape ∉ body

instance : Decidable (Plain rules quote body) := inferInstanceAs (Decidable (_ ∧ _))

theorem stuff_quote (body : List Char) :
    stuff quote extra (quote :: body) = quote :: (extra ++ stuff quote extra body) := by
  simp [stuff]

theorem stuff_cons {c : Char} (hc : c ≠ quote) (body : List Char) :
    stuff quote extra (c :: body) = c :: stuff quote extra body := by
  simp [stuff, hc]

/-- Whatever character a text begins with, it is written first. -/
theorem exists_stuff_cons (c : Char) (body : List Char) :
    ∃ rest, stuff quote extra (c :: body) = c :: rest := by
  by_cases hc : c = quote
  · subst hc
    exact ⟨_, stuff_quote body⟩
  · exact ⟨_, stuff_cons hc body⟩

/-- Without `extra`, the text is written as it is. -/
theorem stuff_nil_extra (body : List Char) : stuff quote [] body = body := by
  induction body with
  | nil => rfl
  | cons c body ih =>
    by_cases hc : c = quote
    · rw [hc, stuff_quote, List.nil_append, ih]
    · rw [stuff_cons hc, ih]

theorem stuff_eq_self {body : List Char} (h : quote ∉ body) : stuff quote extra body = body := by
  induction body with
  | nil => rfl
  | cons c body ih =>
    obtain ⟨hc, hbody⟩ := not_or.mp (List.mem_cons.not.mp h)
    rw [stuff_cons (Ne.symm hc), ih hbody]

/-- The inside of a literal is read as far as it is plain. -/
theorem trace_literal {acc body : List Char} (h : Plain rules quote body) :
    trace rules (.literal quote acc) body = some ([], .literal quote (body.reverse ++ acc)) := by
  induction body generalizing acc with
  | nil => rfl
  | cons c body ih =>
    obtain ⟨hquote, hescape⟩ := h
    obtain ⟨hc, hquote⟩ := not_or.mp (List.mem_cons.not.mp hquote)
    obtain ⟨hc', hescape⟩ := not_or.mp (List.mem_cons.not.mp hescape)
    rw [trace_cons, advance, if_neg (Ne.symm hc), if_neg (Ne.symm hc'), Option.bind_some,
      ih ⟨hquote, hescape⟩]
    simp

theorem lexFrom_quote (acc rest : List Char) :
    lexFrom rules (.literal quote acc) (quote :: rest) =
      (lexFrom rules .between rest).map (Token.literal quote acc.reverse :: ·) := by
  rw [lexFrom_cons, advance, if_pos rfl, Option.bind_some]
  rfl

/-- A plain text is read back, followed by what follows its literal. -/
theorem lexFrom_stuff {body : List Char} (h : Plain rules quote body) (rest : List Char) :
    lexFrom rules (.literal quote []) (stuff quote extra body ++ quote :: rest) =
      (lexFrom rules .between rest).map (Token.literal quote body :: ·) := by
  rw [stuff_eq_self h.1, lexFrom_append (trace_literal h), List.append_nil, lexFrom_quote,
    List.reverse_reverse, Option.map_map]
  rfl

/-! ### No other text is read back -/

/-- A literal that has been begun is read to its end, and begins as it was begun. -/
theorem exists_body {acc cs : List Char} {ts : List Token}
    (h : lexFrom rules (.literal quote acc) cs = some ts) :
    ∃ body ts', ts = .literal quote (acc.reverse ++ body) :: ts' := by
  suffices H : ∀ cs acc ts, (lexFrom rules (.literal quote acc) cs = some ts →
      ∃ body ts', ts = .literal quote (acc.reverse ++ body) :: ts') ∧
      (lexFrom rules (.escaped quote acc) cs = some ts →
        ∃ body ts', ts = .literal quote (acc.reverse ++ body) :: ts') from (H cs acc ts).1 h
  intro cs
  induction cs with
  | nil =>
    intro acc ts
    refine ⟨fun h => ?_, fun h => ?_⟩ <;> cases h
  | cons c cs ih =>
    intro acc ts
    -- what has been read of the literal only grows
    have grown {x : Char} {us : List Token}
        (h : ∃ body ts', us = Token.literal quote ((x :: acc).reverse ++ body) :: ts') :
        ∃ body ts', us = Token.literal quote (acc.reverse ++ body) :: ts' := by
      obtain ⟨body, ts', rfl⟩ := h
      exact ⟨x :: body, ts', by simp⟩
    refine ⟨fun h => ?_, fun h => ?_⟩
    · rw [lexFrom_cons, advance] at h
      by_cases hq : c = quote
      · rw [if_pos hq, Option.bind_some] at h
        obtain ⟨us, -, rfl⟩ := Option.map_eq_some_iff.mp h
        exact ⟨[], us, by simp⟩
      · rw [if_neg hq] at h
        by_cases he : c = rules.escape
        · rw [if_pos he, Option.bind_some] at h
          obtain ⟨us, hus, rfl⟩ := Option.map_eq_some_iff.mp h
          exact (ih acc us).2 hus
        · rw [if_neg he, Option.bind_some] at h
          obtain ⟨us, hus, rfl⟩ := Option.map_eq_some_iff.mp h
          exact grown ((ih (c :: acc) us).1 hus)
    · rw [lexFrom_cons, advance] at h
      obtain ⟨next, hnext, h⟩ := Option.bind_eq_some_iff.mp h
      obtain ⟨x, -, rfl⟩ := Option.map_eq_some_iff.mp hnext
      obtain ⟨us, hus, rfl⟩ := Option.map_eq_some_iff.mp h
      exact grown ((ih (x :: acc) us).1 hus)

/-- Where a literal has been read up to `acc`, its next character is the first one after it. -/
theorem head_eq_of_lexFrom {acc cs body : List Char} {x c : Char} {ts : List Token}
    (h : lexFrom rules (.literal quote (x :: acc)) cs =
      some (.literal quote (acc.reverse ++ c :: body) :: ts)) : x = c := by
  obtain ⟨body', ts', heq⟩ := exists_body h
  simp only [List.reverse_cons, List.append_assoc, List.singleton_append, List.cons.injEq,
    Token.literal.injEq, List.append_cancel_left_eq, true_and] at heq
  exact heq.1.1.symm

/-- A literal that ends has been read to its end. -/
theorem eq_nil_of_lexFrom_quote {acc rest body : List Char} {ts : List Token}
    (h : lexFrom rules (.literal quote acc) (quote :: rest) =
      some (.literal quote (acc.reverse ++ body) :: ts)) : body = [] := by
  rw [lexFrom_quote] at h
  obtain ⟨us, -, heq⟩ := Option.map_eq_some_iff.mp h
  have hbody := (List.cons.inj heq).1
  simpa using hbody

/-- If an escape sequence is read as the escape character, it is the escape character twice. -/
theorem eq_escape_of_lexFrom {acc cs body : List Char} {y : Char} {ts : List Token}
    (h : lexFrom rules (.escaped quote acc) (y :: cs) =
      some (.literal quote (acc.reverse ++ rules.escape :: body) :: ts)) :
    y = rules.escape ∧ lexFrom rules (.literal quote (rules.escape :: acc)) cs =
      some (.literal quote (acc.reverse ++ rules.escape :: body) :: ts) := by
  rw [lexFrom_cons, advance] at h
  obtain ⟨next, hnext, h⟩ := Option.bind_eq_some_iff.mp h
  obtain ⟨x, hx, rfl⟩ := Option.map_eq_some_iff.mp hnext
  obtain ⟨us, hus, heq⟩ := Option.map_eq_some_iff.mp h
  rw [List.nil_append] at heq
  subst heq
  have hx' := head_eq_of_lexFrom hus
  subst hx'
  exact ⟨(rules.unescape_eq_escape y).mp hx, hus⟩

theorem replicate_append_cons {α : Type} (k : ℕ) (a : α) (s : List α) :
    List.replicate k a ++ a :: s = List.replicate (k + 1) a ++ s := by
  rw [List.append_cons, List.replicate_succ']

/-- A text that is read back from `acc` on. An escape character that is read takes two of the
text, so the reading falls behind: `k` of them have yet to be read. It never catches up. -/
theorem plain_of_lexFrom_behind (hquote : quote ≠ rules.escape) {rest : List Char} {ts : List Token}
    (s : List Char) :
    (∀ acc k, lexFrom rules (.literal quote acc) (stuff quote extra s ++ quote :: rest) =
        some (.literal quote (acc.reverse ++ (List.replicate k rules.escape ++ s)) :: ts) →
      k = 0 ∧ Plain rules quote s) ∧
    ∀ acc k, lexFrom rules (.escaped quote acc) (stuff quote extra s ++ quote :: rest) ≠ some
      (.literal quote (acc.reverse ++ (List.replicate (k + 1) rules.escape ++ s)) :: ts) := by
  induction s with
  | nil =>
    refine ⟨fun acc k h => ?_, fun acc k h => ?_⟩
    · have hnil := eq_nil_of_lexFrom_quote h
      rw [List.append_nil, List.replicate_eq_nil_iff] at hnil
      exact ⟨hnil, List.not_mem_nil, List.not_mem_nil⟩
    · rw [List.replicate_succ, List.cons_append] at h
      exact hquote (eq_escape_of_lexFrom h).1
  | cons c s ih =>
    refine ⟨fun acc k h => ?_, fun acc k h => ?_⟩
    · by_cases hc : c = quote
      · -- the literal ends here, and there is more to read
        subst hc
        rw [stuff_quote, List.cons_append] at h
        exact absurd (eq_nil_of_lexFrom_quote h)
          (List.append_ne_nil_of_right_ne_nil _ (List.cons_ne_nil _ _))
      rw [stuff_cons hc, List.cons_append, lexFrom_cons, advance, if_neg hc] at h
      by_cases he : c = rules.escape
      · rw [if_pos he, Option.bind_some] at h
        obtain ⟨us, hus, heq⟩ := Option.map_eq_some_iff.mp h
        rw [List.nil_append, he, replicate_append_cons] at heq
        subst heq
        exact absurd hus (ih.2 acc k)
      · rw [if_neg he, Option.bind_some] at h
        obtain ⟨us, hus, heq⟩ := Option.map_eq_some_iff.mp h
        rw [List.nil_append] at heq
        subst heq
        cases k with
        | succ k =>
          rw [List.replicate_succ, List.cons_append] at hus
          exact absurd (head_eq_of_lexFrom hus) he
        | zero =>
          have hs := (ih.1 (c :: acc) 0 (by simpa using hus)).2
          exact ⟨rfl, List.not_mem_cons_of_ne_of_not_mem (Ne.symm hc) hs.1,
            List.not_mem_cons_of_ne_of_not_mem (Ne.symm he) hs.2⟩
    · -- the second of two escape characters, or else something else is read
      obtain ⟨cs, hcs⟩ : ∃ cs, stuff quote extra (c :: s) = c :: cs := exists_stuff_cons c s
      have hc : c = rules.escape := by
        rw [hcs, List.replicate_succ, List.cons_append] at h
        exact (eq_escape_of_lexFrom h).1
      subst hc
      rw [stuff_cons (Ne.symm hquote), replicate_append_cons, List.replicate_succ,
        List.cons_append] at h
      have hlex := (eq_escape_of_lexFrom h).2
      have hk := (ih.1 (rules.escape :: acc) (k + 1) (by simpa using hlex)).1
      exact Nat.succ_ne_zero k hk

/-- **Which texts are read back**: those with neither the quote nor the escape character, whether
or not a quote is written twice. -/
theorem lexFrom_literal_iff (hquote : quote ≠ rules.escape) {s rest : List Char}
    {ts : List Token} :
    lexFrom rules (.literal quote []) (stuff quote extra s ++ quote :: rest) =
        some (.literal quote s :: ts) ↔
      Plain rules quote s ∧ lexFrom rules .between rest = some ts := by
  constructor
  · intro h
    have hs := ((plain_of_lexFrom_behind hquote s).1 [] 0 h).2
    rw [lexFrom_stuff hs] at h
    obtain ⟨ts', hts, heq⟩ := Option.map_eq_some_iff.mp h
    exact ⟨hs, (List.cons.inj heq).2 ▸ hts⟩
  · rintro ⟨hs, hts⟩
    rw [lexFrom_stuff hs, hts, Option.map_some]

end Lexing
