import SdbController.Interaction.System

/-!
# One system seen as another

The same programs may be served by two systems, one of which stores more than the other. If every
store of the first shows a store of the second, and whatever is done to the first is seen there as
something that may be done to the second, every run of the first is seen as a run of the second.
What is proved of the second then holds of the first as it is seen.

## Main definitions

* `Config.seen`, `Move.seen` — a configuration and a move as they are seen
* `Refines` — what has to be known about the two systems

## Main results

* `Refines.reachable` — a run of the one system is seen as a run of the other
-/

namespace Interaction

variable {C : Type} {R : C → Type} {ι L α S S' : Type}

/-- A configuration as it is seen. -/
def Config.seen (view : S → S') (c : Config ι L R α S) : Config ι L R α S' where
  store := view c.store
  running := c.running
  record := c.record

/-- A move as it is seen. -/
def Move.seen (view : S → S') : Move ι L R S → Move ι L R S'
  | .env s' => .env (view s')
  | .start i l => .start i l
  | .call i l h q r s' => .call i l h q r (view s')
  | .finish i l h => .finish i l h
  | .crash i l h => .crash i l h

/-- Stores that meet `valid` are seen as stores of the other system. -/
structure Refines (low : System L R α S) (high : System L R α S') (view : S → S')
    (valid : S → Prop) : Prop where
  env : ∀ {s s'}, valid s → low.env s s' → valid s' ∧ high.env (view s) (view s')
  start : ∀ {s l p}, valid s → low.start s l p → high.start (view s) l p
  serve : ∀ {q s r s'}, valid s → low.serve q s r s' →
    valid s' ∧ high.serve q (view s) r (view s')

namespace Refines

variable [DecidableEq ι] {low : System L R α S} {high : System L R α S'} {view : S → S'}
  {valid : S → Prop}

/-- One move is seen as one move. -/
theorem step (hR : Refines low high view valid) {c c' : Config ι L R α S} {m : Move ι L R S}
    (hc : valid c.store) (h : low.Step c m c') :
    valid c'.store ∧ high.Step (c.seen view) (m.seen view) (c'.seen view) := by
  cases h with
  | env he => exact (hR.env hc he).imp_right .env
  | start hi hs => exact ⟨hc, .start hi (hR.start hc hs)⟩
  | call hi hs => exact (hR.serve hc hs).imp_right (.call hi)
  | finish hi => exact ⟨hc, .finish hi⟩
  | crash hi => exact ⟨hc, .crash hi⟩

/-- **A run of the one system is seen as a run of the other.** -/
theorem reachable (hR : Refines low high view valid) {init : S → Prop} {init' : S' → Prop}
    {ok : Config ι L R α S → Move ι L R S → Prop} {ok' : Config ι L R α S' → Move ι L R S' → Prop}
    (hinit : ∀ s, init s → valid s ∧ init' (view s))
    (hok : ∀ c m, ok c m → ok' (c.seen view) (m.seen view)) {c : Config ι L R α S}
    (hc : low.Reachable init ok c) :
    valid c.store ∧ high.Reachable init' ok' (c.seen view) := by
  induction hc with
  | init hs => exact (hinit _ hs).imp_right .init
  | step _ hm h ih =>
    obtain ⟨hvalid, hseen⟩ := ih
    obtain ⟨hvalid', hstep⟩ := hR.step hvalid h
    exact ⟨hvalid', hseen.step (hok _ _ hm) hstep⟩

end Refines

end Interaction
