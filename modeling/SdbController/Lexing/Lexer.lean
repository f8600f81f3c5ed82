import Mathlib.Data.List.Basic

/-!
# A lexer for words, quoted literals and symbols

The lexer reads a text character by character. `Rules` says which characters separate tokens, make
up words and open literals, and what the escape character does. A literal ends at the first
occurrence of the character that opened it that is not escaped. Every other character is a token of
its own.

`trace` reads a piece of a text, from any mode to any other, so a text is read piece by piece
(`lexFrom_append`).

## Main results

* `lexFrom_append` — reading a text from where a first piece of it leads
* `isWord_of_mem`, `lexFrom_word_iff` — what is read as a word is one, and is read back
-/

namespace Lexing

/-- The characters of a language, and its escapes. Only the escape character escapes to itself. -/
structure Rules where
  isSpace : Char → Bool
  isWord : Char → Bool
  isQuote : Char → Bool
  escape : Char
  unescape : Char → Option Char
  isQuote_escape : isQuote escape = false
  unescape_eq_escape : ∀ c, unescape c = some escape ↔ c = escape

inductive Token
  | word (w : List Char)
  | literal (quote : Char) (body : List Char)
  | symbol (c : Char)
deriving DecidableEq, Repr

/-- Where in a token the lexer is. What it has read of the token comes newest first. -/
inductive Mode
  | between
  | word (w : List Char)
  | literal (quote : Char) (body : List Char)
  | escaped (quote : Char) (body : List Char)
deriving DecidableEq, Repr

variable (rules : Rules)

/-- The first character after a token. -/
def enter (c : Char) : List Token × Mode :=
  if rules.isWord c then ([], .word [c])
  else if rules.isSpace c then ([], .between)
  else if rules.isQuote c then ([], .literal c [])
  else ([.symbol c], .between)

/-- One character: the tokens that it ends, and the mode that it leads to. -/
def advance : Mode → Char → Option (List Token × Mode)
  | .between, c => some (enter rules c)
  | .word w, c =>
    if rules.isWord c then some ([], .word (c :: w))
    else some (.word w.reverse :: (enter rules c).1, (enter rules c).2)
  | .literal quote body, c =>
    if c = quote then some ([.literal quote body.reverse], .between)
    else if c = rules.escape then some ([], .escaped quote body)
    else some ([], .literal quote (c :: body))
  | .escaped quote body, c =>
    (rules.unescape c).map fun x => ([], .literal quote (x :: body))

/-- The end of the text. -/
def finish : Mode → Option (List Token)
  | .between => some []
  | .word w => some [.word w.reverse]
  | .literal _ _ | .escaped _ _ => none

/-- The tokens of a text, from a mode on. -/
def lexFrom : Mode → List Char → Option (List Token)
  | mode, [] => finish mode
  | mode, c :: cs => (advance rules mode c).bind fun next =>
    (lexFrom next.2 cs).map (next.1 ++ ·)

/-- The tokens of a text. -/
def lex (cs : List Char) : Option (List Token) := lexFrom rules .between cs

/-- The tokens that end within a piece of a text, and the mode behind it. -/
def trace : Mode → List Char → Option (List Token × Mode)
  | mode, [] => some ([], mode)
  | mode, c :: cs => (advance rules mode c).bind fun next =>
    (trace next.2 cs).map fun rest => (next.1 ++ rest.1, rest.2)

variable {rules}

theorem lexFrom_cons (mode : Mode) (c : Char) (cs : List Char) :
    lexFrom rules mode (c :: cs) = (advance rules mode c).bind fun next =>
      (lexFrom rules next.2 cs).map (next.1 ++ ·) := by
  cases mode <;> rfl

theorem trace_cons (mode : Mode) (c : Char) (cs : List Char) :
    trace rules mode (c :: cs) = (advance rules mode c).bind fun next =>
      (trace rules next.2 cs).map fun rest => (next.1 ++ rest.1, rest.2) := by
  cases mode <;> rfl

/-- A text is read from where its first piece leads. -/
theorem lexFrom_append {mode mode' : Mode} {xs : List Char} {ts : List Token}
    (h : trace rules mode xs = some (ts, mode')) (ys : List Char) :
    lexFrom rules mode (xs ++ ys) = (lexFrom rules mode' ys).map (ts ++ ·) := by
  induction xs generalizing mode ts with
  | nil =>
    cases mode <;> cases h <;> simp
  | cons c cs ih =>
    rw [trace_cons] at h
    obtain ⟨next, hnext, h⟩ := Option.bind_eq_some_iff.mp h
    obtain ⟨rest, hrest, heq⟩ := Option.map_eq_some_iff.mp h
    obtain ⟨rfl, rfl⟩ := Prod.mk.inj heq
    have hrest' : trace rules next.2 cs = some (rest.1, rest.2) := hrest
    rw [List.cons_append, lexFrom_cons, hnext, Option.bind_some, ih hrest', Option.map_map]
    refine congrArg (Option.map · _) (funext fun us => ?_)
    exact (List.append_assoc ..).symm

/-- Behind a first piece, what is left to be read is read. -/
theorem lexFrom_append_iff {mode mode' : Mode} (xs : List Char) {ys : List Char} (ts : List Token)
    {us : List Token} (h : trace rules mode xs = some (ts, mode')) :
    lexFrom rules mode (xs ++ ys) = some (ts ++ us) ↔ lexFrom rules mode' ys = some us := by
  rw [lexFrom_append h, Option.map_eq_some_iff]
  constructor
  · rintro ⟨us', hus, heq⟩
    rwa [List.append_cancel_left heq] at hus
  · exact fun hus => ⟨us, hus, rfl⟩

/-! ### Words -/

/-- The characters of a word. -/
def IsWord (rules : Rules) (w : List Char) : Prop := w ≠ [] ∧ ∀ c ∈ w, rules.isWord c

/-- A mode in a word has read one. -/
def Mode.Sound (rules : Rules) : Mode → Prop
  | .word w => IsWord rules w
  | _ => True

theorem isWord_reverse {w : List Char} (h : IsWord rules w) : IsWord rules w.reverse :=
  ⟨by simpa using h.1, fun c hc => h.2 c (List.mem_reverse.mp hc)⟩

theorem enter_sound (c : Char) :
    (enter rules c).2.Sound rules ∧ ∀ w, .word w ∉ (enter rules c).1 := by
  rw [enter]
  split
  · next hc =>
    refine ⟨⟨List.cons_ne_nil _ _, fun x hx => ?_⟩, fun _ => List.not_mem_nil⟩
    rwa [List.mem_singleton.mp hx]
  · split
    · exact ⟨trivial, fun _ => List.not_mem_nil⟩
    · split
      · exact ⟨trivial, fun _ => List.not_mem_nil⟩
      · refine ⟨trivial, fun w hw => ?_⟩
        cases List.mem_singleton.mp hw

/-- One character keeps the mode sound, and ends words only. -/
theorem advance_sound {mode : Mode} {c : Char} {next : List Token × Mode} (hm : mode.Sound rules)
    (h : advance rules mode c = some next) :
    next.2.Sound rules ∧ ∀ w, .word w ∈ next.1 → IsWord rules w := by
  have henter : (enter rules c).2.Sound rules ∧ ∀ w, .word w ∉ (enter rules c).1 := enter_sound c
  cases mode with
  | between =>
    cases h
    exact ⟨henter.1, fun w hw => absurd hw (henter.2 w)⟩
  | word w =>
    rw [advance] at h
    split at h
    · next hc =>
      cases h
      refine ⟨⟨List.cons_ne_nil _ _, fun x hx => ?_⟩, fun _ hw => absurd hw List.not_mem_nil⟩
      rcases List.mem_cons.mp hx with rfl | hx
      · exact hc
      · exact hm.2 x hx
    · cases h
      refine ⟨henter.1, fun w' hw' => ?_⟩
      rcases List.mem_cons.mp hw' with heq | hw'
      · cases heq
        exact isWord_reverse hm
      · exact absurd hw' (henter.2 w')
  | literal quote body =>
    rw [advance] at h
    split at h
    · cases h
      refine ⟨trivial, fun w hw => ?_⟩
      cases List.mem_singleton.mp hw
    · split at h
      · cases h
        exact ⟨trivial, fun _ hw => absurd hw List.not_mem_nil⟩
      · cases h
        exact ⟨trivial, fun _ hw => absurd hw List.not_mem_nil⟩
  | escaped quote body =>
    obtain ⟨x, -, rfl⟩ := Option.map_eq_some_iff.mp h
    exact ⟨trivial, fun _ hw => absurd hw List.not_mem_nil⟩

/-- What is read as a word is one. -/
theorem isWord_of_mem {mode : Mode} {cs : List Char} {ts : List Token} (hm : mode.Sound rules)
    (h : lexFrom rules mode cs = some ts) {w : List Char} (hw : .word w ∈ ts) : IsWord rules w := by
  induction cs generalizing mode ts with
  | nil =>
    cases mode with
    | between =>
      cases h
      cases hw
    | word w' =>
      cases h
      cases List.mem_singleton.mp hw
      exact isWord_reverse hm
    | literal quote body => cases h
    | escaped quote body => cases h
  | cons c cs ih =>
    rw [lexFrom_cons] at h
    obtain ⟨next, hnext, h⟩ := Option.bind_eq_some_iff.mp h
    obtain ⟨us, hus, rfl⟩ := Option.map_eq_some_iff.mp h
    obtain ⟨hsound, hwords⟩ := advance_sound hm hnext
    rcases List.mem_append.mp hw with hw | hw
    · exact hwords w hw
    · exact ih hsound hus hw

/-- A word is read as far as it goes. -/
theorem trace_word {w xs : List Char} (h : ∀ c ∈ xs, rules.isWord c) :
    trace rules (.word w) xs = some ([], .word (xs.reverse ++ w)) := by
  induction xs generalizing w with
  | nil => rfl
  | cons c cs ih =>
    rw [trace_cons, advance, if_pos (h c List.mem_cons_self), Option.bind_some,
      ih fun x hx => h x (List.mem_cons_of_mem _ hx)]
    simp

/-- **A word is read back**, and nothing else is read as one. -/
theorem lexFrom_word_iff {w ys : List Char} {c : Char} {us : List Token} (hc : ¬ rules.isWord c) :
    lexFrom rules .between (w ++ c :: ys) = some (.word w :: us) ↔
      IsWord rules w ∧ lexFrom rules .between (c :: ys) = some us := by
  have hread (hw : IsWord rules w) :
      lexFrom rules .between (w ++ c :: ys) = (lexFrom rules .between (c :: ys)).map
        (Token.word w :: ·) := by
    obtain ⟨x, xs, rfl⟩ := List.exists_cons_of_ne_nil hw.1
    have hx : rules.isWord x := hw.2 x List.mem_cons_self
    have htrace : trace rules .between (x :: xs) = some ([], .word (x :: xs).reverse) := by
      rw [trace_cons, advance, Option.bind_some, enter, if_pos hx,
        trace_word fun y hy => hw.2 y (List.mem_cons_of_mem _ hy)]
      simp
    rw [lexFrom_append htrace, lexFrom_cons, advance, if_neg hc, Option.bind_some,
      List.reverse_reverse, lexFrom_cons, advance, Option.bind_some, Option.map_map, Option.map_map]
    rfl
  constructor
  · intro h
    have hw := isWord_of_mem (show Mode.between.Sound rules from trivial) h List.mem_cons_self
    rw [hread hw] at h
    obtain ⟨us', hus, heq⟩ := Option.map_eq_some_iff.mp h
    exact ⟨hw, (List.cons.inj heq).2 ▸ hus⟩
  · rintro ⟨hw, hus⟩
    rw [hread hw, hus, Option.map_some]

end Lexing
