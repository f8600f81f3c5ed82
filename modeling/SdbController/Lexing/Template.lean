import Mathlib.Data.List.Basic
import SdbController.Lexing.Doubling

/-!
# Templates with places for literals

A template is a fixed text with places in it for quoted literals. `write` fills them in, with their
quotes doubled, and `read` takes a text apart again. On a template where no literal is followed by
its own quote the two are inverse, so what is filled in is determined by the text.

Two templates that are `Apart` differ within a fixed text, behind literals that begin in the same
places. They have no text in common, whatever the literals contain.

## Main results

* `read_eq_some_iff` — reading is the inverse of writing
* `Apart.write_ne` — no text is written from both of two templates that are apart
* `lexDoubled_of_write` — what the lexer reads in a text that is written
-/

namespace Lexing

/-- A fixed text, or a fixed text followed by a literal in quotes and the rest of the template. -/
inductive Template
  | done (text : List Char)
  | hole (text : List Char) (quote : Char) (rest : Template)
deriving DecidableEq, Repr

namespace Template

/-- The fixed text that a template begins with, up to and with the first opening quote. -/
def opening : Template → List Char
  | done text => text
  | hole text quote _ => text ++ [quote]

/-- No literal is followed by its own quote. -/
def Separated : Template → Prop
  | done _ => True
  | hole _ quote rest => rest.opening.head? ≠ some quote ∧ rest.Separated

instance : (t : Template) → Decidable t.Separated
  | done _ => inferInstanceAs (Decidable True)
  | hole _ quote rest =>
    have : Decidable rest.Separated := instDecidableSeparated rest
    inferInstanceAs (Decidable (rest.opening.head? ≠ some quote ∧ rest.Separated))

/-- Neither text begins with the other. -/
def Diverge (xs ys : List Char) : Prop := ¬ xs <+: ys ∧ ¬ ys <+: xs

instance (xs ys : List Char) : Decidable (Diverge xs ys) := inferInstanceAs (Decidable (_ ∧ _))

/-- Behind some places that they have in common, the fixed texts of two templates diverge. -/
inductive Apart : Template → Template → Prop
  | opening {t t' : Template} (h : Diverge t.opening t'.opening) : Apart t t'
  | hole {text : List Char} {quote : Char} {rest rest' : Template} (h : Apart rest rest') :
    Apart (hole text quote rest) (hole text quote rest')

/-- The template with its places filled in, if there are as many. -/
def write : Template → List (List Char) → Option (List Char)
  | done text, [] => some text
  | hole text quote rest, body :: bodies => (rest.write bodies).map fun cs =>
    text ++ quote :: (stuff quote [quote] body ++ quote :: cs)
  | done _, _ :: _ | hole _ _ _, [] => none

/-- What the places of the template are filled with in a text. -/
def read : Template → List Char → Option (List (List Char))
  | done text, cs => if cs = text then some [] else none
  | hole text quote rest, cs =>
    (cs.dropPrefix? (text ++ [quote])).bind fun cs => (readLiteral quote cs).bind fun r =>
      (rest.read r.2).map (r.1 :: ·)

variable {t t' : Template} {bodies bodies' : List (List Char)} {cs : List Char}

theorem write_done_eq_some_iff {text : List Char} :
    (done text).write bodies = some cs ↔ bodies = [] ∧ cs = text := by
  cases bodies with
  | nil => simp [write, eq_comm]
  | cons body bodies => simp [write]

theorem write_hole_eq_some_iff {text : List Char} {quote : Char} {rest : Template} :
    (hole text quote rest).write bodies = some cs ↔
      ∃ body bodies' cs', bodies = body :: bodies' ∧ rest.write bodies' = some cs' ∧
        cs = text ++ quote :: (stuff quote [quote] body ++ quote :: cs') := by
  cases bodies with
  | nil => simp [write]
  | cons body bodies =>
    rw [write, Option.map_eq_some_iff]
    constructor
    · rintro ⟨cs', hcs, rfl⟩
      exact ⟨body, bodies, cs', rfl, hcs, rfl⟩
    · rintro ⟨_, _, cs', heq, hcs, rfl⟩
      cases heq
      exact ⟨cs', hcs, rfl⟩

/-- A text that is written begins with the opening. -/
theorem opening_prefix_of_write (h : t.write bodies = some cs) : t.opening <+: cs := by
  cases t with
  | done text =>
    obtain ⟨-, rfl⟩ := write_done_eq_some_iff.mp h
    exact List.prefix_rfl
  | hole text quote rest =>
    obtain ⟨body, bodies', cs', -, -, rfl⟩ := write_hole_eq_some_iff.mp h
    exact ⟨_, List.append_assoc ..⟩

theorem head?_of_write (h : t.write bodies = some cs) : cs.head? = t.opening.head? := by
  cases t with
  | done text =>
    obtain ⟨-, rfl⟩ := write_done_eq_some_iff.mp h
    rfl
  | hole text quote rest =>
    obtain ⟨body, bodies', cs', -, -, rfl⟩ := write_hole_eq_some_iff.mp h
    cases text <;> rfl

theorem dropPrefix?_eq_some_iff {pre rest : List Char} :
    cs.dropPrefix? pre = some rest ↔ cs = pre ++ rest := by
  simp [List.dropPrefix?_eq_some_iff]

/-- **Reading is the inverse of writing.** -/
theorem read_eq_some_iff (ht : t.Separated) :
    t.read cs = some bodies ↔ t.write bodies = some cs := by
  induction t generalizing bodies cs with
  | done text =>
    rw [write_done_eq_some_iff, read]
    by_cases h : cs = text <;> simp [h, eq_comm]
  | hole text quote rest ih =>
    obtain ⟨hquote, hrest⟩ := ht
    rw [write_hole_eq_some_iff, read]
    simp only [Option.bind_eq_some_iff, Option.map_eq_some_iff, dropPrefix?_eq_some_iff]
    constructor
    · rintro ⟨inner, rfl, ⟨body, cs'⟩, hliteral, bodies', hread, rfl⟩
      obtain ⟨rfl, -⟩ := readLiteral_eq_some_iff.mp hliteral
      exact ⟨body, bodies', cs', rfl, (ih hrest).mp hread, by simp⟩
    · rintro ⟨body, bodies', cs', rfl, hwrite, rfl⟩
      have hhead : cs'.head? ≠ some quote := (head?_of_write hwrite).symm ▸ hquote
      exact ⟨_, by simp, (body, cs'), readLiteral_stuff body hhead, bodies', (ih hrest).mpr hwrite,
        rfl⟩

/-- What is filled in is determined by the text. -/
theorem write_inj (ht : t.Separated) (h : t.write bodies = some cs)
    (h' : t.write bodies' = some cs) : bodies = bodies' := by
  have hread := (read_eq_some_iff ht).mpr h
  rw [(read_eq_some_iff ht).mpr h'] at hread
  exact (Option.some.inj hread).symm

theorem Apart.symm (h : t.Apart t') : t'.Apart t := by
  induction h with
  | opening h => exact .opening ⟨h.2, h.1⟩
  | hole _ ih => exact .hole ih

/-- **Texts of different templates.** No text is written from two templates that are apart: each
literal they have in common ends at the same place. -/
theorem Apart.write_ne (h : t.Apart t') (ht : t.Separated) (ht' : t'.Separated)
    (hcs : t.write bodies = some cs) : t'.write bodies' ≠ some cs := by
  intro hcs'
  induction h generalizing bodies bodies' cs with
  | opening h =>
    rcases List.prefix_or_prefix_of_prefix (opening_prefix_of_write hcs)
      (opening_prefix_of_write hcs') with hpre | hpre
    · exact h.1 hpre
    · exact h.2 hpre
  | hole h ih =>
    obtain ⟨body, bodies, rest, -, hrest, rfl⟩ := write_hole_eq_some_iff.mp hcs
    obtain ⟨body', bodies', rest', -, hrest', heq⟩ := write_hole_eq_some_iff.mp hcs'
    have hinner := (List.cons.inj (List.append_cancel_left heq)).2
    have hread := readLiteral_stuff body ((head?_of_write hrest).symm ▸ ht.1)
    rw [hinner, readLiteral_stuff body' ((head?_of_write hrest').symm ▸ ht'.1)] at hread
    obtain ⟨-, rfl⟩ := Prod.mk.inj (Option.some.inj hread)
    exact ih ht.2 ht'.2 hrest hrest'

/-! ### Reading with the lexer -/

variable (rules : Rules)

/-- Each fixed text leads into the literal behind it. -/
def Opens : Template → Prop
  | done _ => True
  | hole text quote rest =>
    (runDoubled rules .between (text ++ [quote])).2 = .literal quote [] ∧ rest.Opens

/-- The tokens of the fixed texts, with the literals between them. -/
def tokens : Template → List (List Char) → Option (List Token)
  | done text, [] => lexDoubled rules text
  | hole text quote rest, body :: bodies => (rest.tokens bodies).map fun ts =>
    (runDoubled rules .between (text ++ [quote])).1 ++ .literal quote body :: ts
  | done _, _ :: _ | hole _ _ _, [] => none

variable {rules}

/-- **What the lexer reads in a text that is written**: the tokens of the template, and as literals
what was filled in. -/
theorem lexDoubled_of_write (ht : t.Separated) (hopens : t.Opens rules)
    (h : t.write bodies = some cs) : lexDoubled rules cs = t.tokens rules bodies := by
  induction t generalizing bodies cs with
  | done text =>
    obtain ⟨rfl, rfl⟩ := write_done_eq_some_iff.mp h
    rfl
  | hole text quote rest ih =>
    obtain ⟨body, bodies, cs, rfl, hrest, rfl⟩ := write_hole_eq_some_iff.mp h
    have hhead : cs.head? ≠ some quote := (head?_of_write hrest).symm ▸ ht.1
    have hread : lexDoubledFrom rules .between cs = rest.tokens rules bodies :=
      ih ht.2 hopens.2 hrest
    have hopen : runDoubled rules .between (text ++ [quote]) =
        ((runDoubled rules .between (text ++ [quote])).1, .literal quote []) :=
      Prod.ext rfl hopens.1
    rw [lexDoubled, List.append_cons, lexDoubledFrom_append hopen,
      lexDoubledFrom_stuff body hhead, hread, Option.map_map]
    rfl

end Template

end Lexing
