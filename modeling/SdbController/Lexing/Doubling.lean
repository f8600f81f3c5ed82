import Mathlib.Algebra.Ring.Parity
import SdbController.Lexing.Literal

/-!
# Literals with doubled quotes

The other reading of `stuff quote [quote] body`: two quotes in a row stand for one, and the literal
ends at a quote that stands alone. `readLiteral` looks at whole runs of the quote, the first of odd
length being the one that ends the literal, and `lexDoubled` reads character by character.

Whatever the text, its literal is read back, and nothing else is read as a literal
(`readLiteral_eq_some_iff`). All it needs is that the quote does not come again right behind the
literal.

## Main results

* `readLiteral_eq_some_iff` — what is read as a literal, and what as
* `lexDoubledFrom_stuff` — the lexer reads every literal back
-/

namespace Lexing

variable {rules : Rules} {quote : Char}

/-- Two quotes in a row become one. -/
def undouble (quote : Char) : List Char → List Char
  | a :: b :: cs =>
    if a = quote ∧ b = quote then quote :: undouble quote cs else a :: undouble quote (b :: cs)
  | cs => cs

/-- The text up to the end of the first run of quotes of odd length, and the text behind it. The
run that is being read has `n` quotes so far. -/
def takeLiteral (quote : Char) : ℕ → List Char → Option (List Char × List Char)
  | n, [] => if Odd n then some ([], []) else none
  | n, c :: cs =>
    if c = quote then (takeLiteral quote (n + 1) cs).map fun r => (c :: r.1, r.2)
    else if Odd n then some ([], c :: cs)
    else (takeLiteral quote 0 cs).map fun r => (c :: r.1, r.2)

/-- The literal that a text begins with, behind its opening quote, and the text behind it. -/
def readLiteral (quote : Char) (cs : List Char) : Option (List Char × List Char) :=
  (takeLiteral quote 0 cs).map fun r => (undouble quote r.1.dropLast, r.2)

/-! ### Reading a literal back -/

theorem undouble_quote (cs : List Char) :
    undouble quote (quote :: quote :: cs) = quote :: undouble quote cs := by
  rw [undouble, if_pos ⟨rfl, rfl⟩]

theorem undouble_cons {c : Char} (hc : c ≠ quote) (cs : List Char) :
    undouble quote (c :: cs) = c :: undouble quote cs := by
  cases cs with
  | nil => rfl
  | cons d cs => rw [undouble, if_neg fun h => hc h.1]

theorem undouble_stuff (body : List Char) : undouble quote (stuff quote [quote] body) = body := by
  induction body with
  | nil => rfl
  | cons c body ih =>
    by_cases hc : c = quote
    · subst hc
      rw [stuff_quote, List.singleton_append, undouble_quote, ih]
    · rw [stuff_cons hc, undouble_cons hc, ih]

theorem takeLiteral_quote (n : ℕ) (cs : List Char) :
    takeLiteral quote n (quote :: cs) =
      (takeLiteral quote (n + 1) cs).map fun r => (quote :: r.1, r.2) := by
  rw [takeLiteral, if_pos rfl]

/-- Behind a run of odd length the literal is over. -/
theorem takeLiteral_of_odd {n : ℕ} (hn : Odd n) {rest : List Char}
    (hrest : rest.head? ≠ some quote) :
    takeLiteral quote n rest = some ([], rest) := by
  cases rest with
  | nil => rw [takeLiteral, if_pos hn]
  | cons c rest =>
    have hc : c ≠ quote := fun h => hrest (congrArg some h)
    rw [takeLiteral, if_neg hc, if_pos hn]

theorem takeLiteral_of_even {n : ℕ} (hn : Even n) {c : Char} (hc : c ≠ quote) (cs : List Char) :
    takeLiteral quote n (c :: cs) = (takeLiteral quote 0 cs).map fun r => (c :: r.1, r.2) := by
  rw [takeLiteral, if_neg hc, if_neg (Nat.not_odd_iff_even.mpr hn)]

/-- The runs inside a literal are even, so it is taken up to its closing quote. -/
theorem takeLiteral_stuff {n : ℕ} (hn : Even n) (body : List Char) {rest : List Char}
    (hrest : rest.head? ≠ some quote) :
    takeLiteral quote n (stuff quote [quote] body ++ quote :: rest) =
      some (stuff quote [quote] body ++ [quote], rest) := by
  induction body generalizing n with
  | nil =>
    rw [stuff, List.flatMap_nil, List.nil_append, takeLiteral_quote,
      takeLiteral_of_odd hn.add_one hrest]
    rfl
  | cons c body ih =>
    by_cases hc : c = quote
    · subst hc
      rw [stuff_quote, List.singleton_append, List.cons_append, List.cons_append,
        takeLiteral_quote, takeLiteral_quote, ih hn.add_one.add_one]
      rfl
    · rw [stuff_cons hc, List.cons_append, takeLiteral_of_even hn hc, ih Even.zero]
      rfl

/-- Every literal is read back. -/
theorem readLiteral_stuff (body : List Char) {rest : List Char} (hrest : rest.head? ≠ some quote) :
    readLiteral quote (stuff quote [quote] body ++ quote :: rest) = some (body, rest) := by
  rw [readLiteral, takeLiteral_stuff Even.zero body hrest, Option.map_some, List.dropLast_concat,
    undouble_stuff]

/-! ### Nothing else is read as a literal -/

/-- What is taken is a literal with its closing quote. In a run of odd length, the last quote read
may be the closing one, and is the first of two otherwise. -/
theorem eq_stuff_of_takeLiteral {n : ℕ} {cs taken rest : List Char}
    (h : takeLiteral quote n cs = some (taken, rest)) :
    cs = taken ++ rest ∧ rest.head? ≠ some quote ∧
      (Even n → ∃ body, taken = stuff quote [quote] body ++ [quote]) ∧
      (Odd n → taken = [] ∨ ∃ body, taken = quote :: (stuff quote [quote] body ++ [quote])) := by
  induction cs generalizing n taken with
  | nil =>
    rw [takeLiteral] at h
    split at h
    · next hn =>
      cases h
      refine ⟨rfl, (Option.some_ne_none quote).symm, fun heven => ?_, fun _ => .inl rfl⟩
      exact absurd hn (Nat.not_odd_iff_even.mpr heven)
    · cases h
  | cons c cs ih =>
    by_cases hc : c = quote
    · subst hc
      rw [takeLiteral_quote] at h
      obtain ⟨⟨taken, rest⟩, hr, heq⟩ := Option.map_eq_some_iff.mp h
      cases heq
      obtain ⟨hcs, hrest, heven, hodd⟩ := ih hr
      refine ⟨congrArg (c :: ·) hcs, hrest, fun hn => ?_, fun hn => ?_⟩
      · rcases hodd hn.add_one with rfl | ⟨body, rfl⟩
        · exact ⟨[], rfl⟩
        · exact ⟨c :: body, by simp [stuff_quote]⟩
      · obtain ⟨body, rfl⟩ := heven hn.add_one
        exact .inr ⟨body, rfl⟩
    · by_cases hn : Odd n
      · have hhead : (c :: cs).head? ≠ some quote := fun h => hc (Option.some.inj h)
        rw [takeLiteral_of_odd hn hhead] at h
        cases h
        refine ⟨rfl, hhead, fun heven => ?_, fun _ => .inl rfl⟩
        exact absurd hn (Nat.not_odd_iff_even.mpr heven)
      · rw [takeLiteral_of_even (Nat.not_odd_iff_even.mp hn) hc] at h
        obtain ⟨⟨taken, rest⟩, hr, heq⟩ := Option.map_eq_some_iff.mp h
        cases heq
        obtain ⟨hcs, hrest, heven, -⟩ := ih hr
        refine ⟨congrArg (c :: ·) hcs, hrest, fun _ => ?_, fun hodd => absurd hodd hn⟩
        obtain ⟨body, rfl⟩ := heven Even.zero
        exact ⟨c :: body, by rw [stuff_cons hc, List.cons_append]⟩

/-- **What is read as a literal**: `body` with its quotes doubled, up to a quote that no other quote
follows. -/
theorem readLiteral_eq_some_iff {cs body rest : List Char} :
    readLiteral quote cs = some (body, rest) ↔
      cs = stuff quote [quote] body ++ quote :: rest ∧ rest.head? ≠ some quote := by
  constructor
  · intro h
    obtain ⟨⟨taken, rest⟩, htake, heq⟩ := Option.map_eq_some_iff.mp h
    cases heq
    obtain ⟨rfl, hrest, heven, -⟩ := eq_stuff_of_takeLiteral htake
    obtain ⟨body, rfl⟩ := heven Even.zero
    rw [List.dropLast_concat, undouble_stuff]
    exact ⟨List.append_assoc .., hrest⟩
  · rintro ⟨rfl, hrest⟩
    exact readLiteral_stuff body hrest

/-! ### The lexer -/

variable (rules) in
/-- One character. In mode `escaped`, the last character was a quote: it ends the literal unless it
is the first of two. -/
def advanceDoubled : Mode → Char → List Token × Mode
  | .between, c => enter rules c
  | .word w, c =>
    if rules.isWord c then ([], .word (c :: w))
    else (.word w.reverse :: (enter rules c).1, (enter rules c).2)
  | .literal quote body, c =>
    if c = quote then ([], .escaped quote body) else ([], .literal quote (c :: body))
  | .escaped quote body, c =>
    if c = quote then ([], .literal quote (quote :: body))
    else (.literal quote body.reverse :: (enter rules c).1, (enter rules c).2)

/-- The end of the text. -/
def finishDoubled : Mode → Option (List Token)
  | .between => some []
  | .word w => some [.word w.reverse]
  | .literal _ _ => none
  | .escaped quote body => some [.literal quote body.reverse]

variable (rules) in
/-- The tokens that end within a text, and the mode behind it. -/
def runDoubled : Mode → List Char → List Token × Mode
  | mode, [] => ([], mode)
  | mode, c :: cs =>
    ((advanceDoubled rules mode c).1 ++ (runDoubled (advanceDoubled rules mode c).2 cs).1,
      (runDoubled (advanceDoubled rules mode c).2 cs).2)

variable (rules) in
/-- The tokens of a text whose literals have their quotes doubled, from a mode on. -/
def lexDoubledFrom (mode : Mode) (cs : List Char) : Option (List Token) :=
  (finishDoubled (runDoubled rules mode cs).2).map ((runDoubled rules mode cs).1 ++ ·)

variable (rules) in
/-- The tokens of a text whose literals have their quotes doubled. -/
def lexDoubled (cs : List Char) : Option (List Token) := lexDoubledFrom rules .between cs

theorem runDoubled_cons (mode : Mode) (c : Char) (cs : List Char) :
    runDoubled rules mode (c :: cs) =
      ((advanceDoubled rules mode c).1 ++ (runDoubled rules (advanceDoubled rules mode c).2 cs).1,
        (runDoubled rules (advanceDoubled rules mode c).2 cs).2) := by
  cases mode <;> rfl

theorem runDoubled_append (mode : Mode) (xs ys : List Char) :
    runDoubled rules mode (xs ++ ys) =
      ((runDoubled rules mode xs).1 ++ (runDoubled rules (runDoubled rules mode xs).2 ys).1,
        (runDoubled rules (runDoubled rules mode xs).2 ys).2) := by
  induction xs generalizing mode with
  | nil => cases mode <;> rfl
  | cons c cs ih => simp only [List.cons_append, runDoubled_cons, ih, List.append_assoc]

/-- A text is read from where its first piece leads. -/
theorem lexDoubledFrom_append {mode mode' : Mode} {xs : List Char} {ts : List Token}
    (h : runDoubled rules mode xs = (ts, mode')) (ys : List Char) :
    lexDoubledFrom rules mode (xs ++ ys) = (lexDoubledFrom rules mode' ys).map (ts ++ ·) := by
  simp only [lexDoubledFrom, runDoubled_append, h, Option.map_map]
  refine congrArg (Option.map · _) (funext fun us => ?_)
  exact List.append_assoc ..

/-- The inside of every literal is read back. -/
theorem runDoubled_literal (acc body : List Char) :
    runDoubled rules (.literal quote acc) (stuff quote [quote] body) =
      ([], .literal quote (body.reverse ++ acc)) := by
  induction body generalizing acc with
  | nil => rfl
  | cons c body ih =>
    by_cases hc : c = quote
    · subst hc
      simp [stuff_quote, runDoubled_cons, advanceDoubled, ih]
    · simp [stuff_cons hc, runDoubled_cons, advanceDoubled, hc, ih]

theorem lexDoubledFrom_quote (acc rest : List Char) :
    lexDoubledFrom rules (.literal quote acc) (quote :: rest) =
      lexDoubledFrom rules (.escaped quote acc) rest := by
  simp [lexDoubledFrom, runDoubled_cons, advanceDoubled]

/-- A quote ends its literal if it does not come again. -/
theorem lexDoubledFrom_escaped (acc : List Char) {rest : List Char}
    (hrest : rest.head? ≠ some quote) :
    lexDoubledFrom rules (.escaped quote acc) rest =
      (lexDoubledFrom rules .between rest).map (.literal quote acc.reverse :: ·) := by
  cases rest with
  | nil => rfl
  | cons c rest =>
    have hc : c ≠ quote := fun h => hrest (congrArg some h)
    simp only [lexDoubledFrom, runDoubled_cons, advanceDoubled, if_neg hc, Option.map_map]
    rfl

/-- **The lexer reads every literal back**, and goes on behind it. -/
theorem lexDoubledFrom_stuff (body : List Char) {rest : List Char}
    (hrest : rest.head? ≠ some quote) :
    lexDoubledFrom rules (.literal quote []) (stuff quote [quote] body ++ quote :: rest) =
      (lexDoubledFrom rules .between rest).map (.literal quote body :: ·) := by
  rw [lexDoubledFrom_append (runDoubled_literal [] body), List.append_nil, lexDoubledFrom_quote,
    lexDoubledFrom_escaped body.reverse hrest, List.reverse_reverse, Option.map_map]
  rfl

end Lexing
