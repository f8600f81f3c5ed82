import SdbController.Interaction.Refinement

/-!
# A gate in front of a server

Some calls are not let through to the server. They get a reply that says so, and change nothing.
Where the server may fail a call in this way by itself, a system behind a gate does nothing that it
might not do without one, so what is proved of all runs holds behind any gate. What it no longer
does is the subject of the modules that use this one.

## Main definitions

* `Gate`, `Gate.behind` — which calls pass, and how a server behaves behind the gate
* `System.gated` — a system behind a gate

## Main results

* `System.reachable_of_gated` — a run behind a gate is a run
-/

namespace Interaction

variable {C : Type} {R : C → Type} {ι L α S : Type}

/-- Which calls pass, and which replies say that a call does not. -/
structure Gate (R : C → Type) where
  passes : C → Prop
  refusal : (c : C) → R c → Prop

namespace Gate

variable (g : Gate R) (serve : (c : C) → S → R c → S → Prop)

/-- The server behind the gate. -/
def behind (c : C) (s : S) (r : R c) (s' : S) : Prop :=
  (g.passes c ∧ serve c s r s') ∨ (¬ g.passes c ∧ g.refusal c r ∧ s' = s)

/-- Refusals are among the ways in which the server fails a call. -/
def Fails : Prop := ∀ {c s r}, g.refusal c r → serve c s r s

/-- A server that is a function, behind the gate. -/
def answer [DecidablePred g.passes] (refused : (c : C) → R c) (f : (c : C) → S → R c × S) (c : C)
    (s : S) : R c × S :=
  if g.passes c then f c s else (refused c, s)

variable {g serve} {c : C} {s s' : S} {r : R c}

theorem behind_of_passes (hc : g.passes c) : g.behind serve c s r s' ↔ serve c s r s' := by
  simp only [behind, hc, true_and, not_true_eq_false, false_and, or_false]

theorem behind_of_not_passes (hc : ¬ g.passes c) :
    g.behind serve c s r s' ↔ g.refusal c r ∧ s' = s := by
  simp only [behind, hc, false_and, not_false_eq_true, true_and, false_or]

theorem Fails.serves (hfails : g.Fails serve) (h : g.behind serve c s r s') :
    serve c s r s' := by
  rcases h with ⟨-, hs⟩ | ⟨-, hr, rfl⟩
  · exact hs
  · exact hfails hr

theorem behind_answer [DecidablePred g.passes] {refused : (c : C) → R c}
    {f : (c : C) → S → R c × S} (hrefused : ∀ c, ¬ g.passes c → g.refusal c (refused c))
    (hf : ∀ c s, serve c s (f c s).1 (f c s).2) (c : C) (s : S) :
    g.behind serve c s (g.answer refused f c s).1 (g.answer refused f c s).2 := by
  by_cases hc : g.passes c
  · rw [answer, if_pos hc]
    exact (behind_of_passes hc).mpr (hf c s)
  · rw [answer, if_neg hc]
    exact (behind_of_not_passes hc).mpr ⟨hrefused c hc, rfl⟩

end Gate

namespace System

variable {sys : System L R α S} {g : Gate R}

/-- The system behind a gate. -/
def gated (sys : System L R α S) (g : Gate R) : System L R α S :=
  { sys with serve := g.behind sys.serve }

theorem refines_gated (hfails : g.Fails sys.serve) :
    Refines (sys.gated g) sys id fun _ => True where
  env _ he := ⟨trivial, he⟩
  start _ hs := hs
  serve _ hs := ⟨trivial, hfails.serves hs⟩

/-- **A run behind a gate is a run.** -/
theorem reachable_of_gated [DecidableEq ι] (hfails : g.Fails sys.serve) {init : S → Prop}
    {ok : Config ι L R α S → Move ι L R S → Prop} {c : Config ι L R α S}
    (hc : (sys.gated g).Reachable init ok c) : sys.Reachable init ok c := by
  refine ((refines_gated hfails).reachable (fun _ hs => ⟨trivial, hs⟩) (fun c m hm => ?_) hc).2
  cases m <;> exact hm

end System

end Interaction
