import SdbController.Interaction.System

/-!
# One slot of a larger system

A large system runs many programs for many purposes. `Config.only` keeps of a configuration what one
slot sees of it: a view of the store, the program in that slot, and the part of the record that
belongs there. If what happens elsewhere does to that view nothing the environment of a small system
could not do, every run of the large system is, seen from the slot, a run of the small one. An
invariant of the small system then holds in the large one as it stands.

What the slot is for may come into being in the middle of a run. Until then the view is `pre`, and
nothing runs in the slot.

## Main definitions

* `Config.only`, `Move.only` — what one slot sees of a configuration, and of a move
* `Focus` — what has to be known about the large system

## Main results

* `Focus.step` — one move of the large system is a move of the small one, or is not seen
* `Focus.reachable` — a run of the large system is a run of the small one
-/

namespace Interaction

variable {C : Type} {R : C → Type} {ι L L' α S S' : Type}

/-- What slot `i` sees: the programs whose label `pick` knows, and a view of the store. -/
def Config.only (i : ι) (pick : L → Option L') (view : S → S') (c : Config ι L R α S) :
    Config Unit L' R α S' where
  store := view c.store
  running _ := (c.running i).bind fun t => (pick t.label).map fun l => ⟨l, t.history, t.rest⟩
  record := c.record.filterMap fun e => (pick e.1).map fun l => (l, e.2)

/-- What is seen of a move. A call that is made elsewhere looks like a move of the environment, and
nothing else is seen of what happens elsewhere. -/
def Move.only (pick : L → Option L') (view : S → S') : Move ι L R S → Option (Move Unit L' R S')
  | .env s' => some (.env (view s'))
  | .start _ l => (pick l).map (.start ())
  | .call _ l h q r s' =>
    some ((pick l).elim (.env (view s')) fun l' => .call () l' h q r (view s'))
  | .finish _ l h => (pick l).map fun l' => .finish () l' h
  | .crash _ l h => (pick l).map fun l' => .crash () l' h

/-- In slot `i`, and in no other, run programs whose label `pick` knows. -/
def Config.Placed (i : ι) (pick : L → Option L') (c : Config ι L R α S) : Prop :=
  ∀ j t, c.running j = some t → (j = i ↔ (pick t.label).isSome)

/-- What may become of the view by what happens elsewhere. -/
structure Outside (env : S' → S' → Prop) (pre init : S' → Prop) (s s' : S') : Prop where
  before : pre s → pre s' ∨ init s'
  after : ¬ pre s → env s s'

/-- The large system looks like the small one from slot `i`, in runs whose moves meet `ok`. -/
structure Focus (big : System L R α S) (small : System L' R α S') (pre init : S' → Prop) (i : ι)
    (pick : L → Option L') (view : S → S') (ok : Config ι L R α S → Move ι L R S → Prop) :
    Prop where
  env : ∀ {c s'}, ok c (.env s') → big.env c.store s' →
    Outside small.env pre init (view c.store) (view s')
  slot : ∀ {c j l p}, ok c (.start j l) → big.start c.store l p → (j = i ↔ (pick l).isSome)
  start : ∀ {c j l l' p}, ok c (.start j l) → pick l = some l' → big.start c.store l p →
    ¬ pre (view c.store) ∧ small.start (view c.store) l' p
  own : ∀ {c j l l' h q k r s'}, ok c (.call j l h q r s') →
    c.running j = some ⟨l, h, .call q k⟩ → pick l = some l' → big.serve q c.store r s' →
    small.serve q (view c.store) r (view s')
  other : ∀ {c j l h q k r s'}, ok c (.call j l h q r s') →
    c.running j = some ⟨l, h, .call q k⟩ → pick l = none → big.serve q c.store r s' →
    Outside small.env pre init (view c.store) (view s')

section Slots

variable [DecidableEq ι] {i j : ι} {pick : L → Option L'} {view : S → S'} {c : Config ι L R α S}

theorem Config.Placed.erase (hc : c.Placed i pick) (j : ι) (s : S) (record : List (L × History R)) :
    (⟨s, Function.update c.running j none, record⟩ : Config ι L R α S).Placed i pick := by
  intro j' t ht
  replace ht : Function.update c.running j none j' = some t := ht
  rcases eq_or_ne j' j with rfl | hne
  · rw [Function.update_self] at ht
    cases ht
  · rw [Function.update_of_ne hne] at ht
    exact hc j' t ht

theorem Config.Placed.place (hc : c.Placed i pick) {t : Task L R α}
    (ht : j = i ↔ (pick t.label).isSome) (s : S) (record : List (L × History R)) :
    (⟨s, Function.update c.running j (some t), record⟩ : Config ι L R α S).Placed i pick := by
  intro j' t' ht'
  replace ht' : Function.update c.running j (some t) j' = some t' := ht'
  rcases eq_or_ne j' j with rfl | hne
  · rw [Function.update_self] at ht'
    cases ht'
    exact ht
  · rw [Function.update_of_ne hne] at ht'
    exact hc j' t' ht'

omit [DecidableEq ι] in
/-- What runs in a slot is seen if the slot is the one that is looked at. -/
theorem Config.Placed.seen (hc : c.Placed i pick) (view : S → S') {l : L} {h : History R}
    {p : Program R α} (hj : c.running j = some ⟨l, h, p⟩) :
    (∃ l', pick l = some l' ∧ j = i ∧ (c.only i pick view).running () = some ⟨l', h, p⟩) ∨
    (pick l = none ∧ i ≠ j) := by
  have hplace : j = i ↔ (pick l).isSome := hc j _ hj
  cases hl : pick l with
  | none =>
    refine .inr ⟨rfl, fun hij => ?_⟩
    have hsome := hplace.mp hij.symm
    rw [hl] at hsome
    cases hsome
  | some l' =>
    obtain rfl : j = i := hplace.mpr (by rw [hl]; rfl)
    refine .inl ⟨l', rfl, rfl, ?_⟩
    rw [Config.only, hj]
    simp only [Option.bind_some, hl, Option.map_some]

/-- A program that is put into the slot is seen there. -/
theorem Config.only_place {t : Task L R α} {l : L'} (ht : pick t.label = some l) (s : S)
    (record : List (L × History R)) :
    (⟨s, Function.update c.running i (some t), (t.label, t.history) :: record⟩ :
      Config ι L R α S).only i pick view =
    { store := view s
      running := Function.update (c.only i pick view).running () (some ⟨l, t.history, t.rest⟩)
      record := (l, t.history) ::
        record.filterMap fun e => (pick e.1).map fun l => (l, e.2) } := by
  simp only [Config.only, Function.update_self, Option.bind_some, ht, Option.map_some,
    List.filterMap_cons]
  congr 1

/-- A program that is put elsewhere is not. -/
theorem Config.only_place_of_ne {t : Option (Task L R α)} {l : L} (hl : pick l = none) (hj : i ≠ j)
    (s : S) (h : History R) (record : List (L × History R)) :
    (⟨s, Function.update c.running j t, (l, h) :: record⟩ : Config ι L R α S).only i pick view =
      (⟨s, c.running, record⟩ : Config ι L R α S).only i pick view := by
  simp only [Config.only, Function.update_of_ne hj, List.filterMap_cons, hl, Option.map_none]

/-- A slot that becomes free. -/
theorem Config.only_erase (s : S) (record : List (L × History R)) :
    (⟨s, Function.update c.running i none, record⟩ : Config ι L R α S).only i pick view =
    { (⟨s, c.running, record⟩ : Config ι L R α S).only i pick view with
      running := Function.update (c.only i pick view).running () none } := by
  simp only [Config.only, Function.update_self, Option.bind_none]
  congr 1

theorem Config.only_erase_of_ne (hj : i ≠ j) (s : S) (record : List (L × History R)) :
    (⟨s, Function.update c.running j none, record⟩ : Config ι L R α S).only i pick view =
      (⟨s, c.running, record⟩ : Config ι L R α S).only i pick view := by
  simp only [Config.only, Function.update_of_ne hj]

end Slots

namespace Focus

variable [DecidableEq ι] {big : System L R α S} {small : System L' R α S'} {pre init : S' → Prop}
  {i : ι} {pick : L → Option L'} {view : S → S'} {ok : Config ι L R α S → Move ι L R S → Prop}
  {c c' : Config ι L R α S} {m : Move ι L R S}

/-- A move keeps programs where they belong. -/
theorem placed_step (hf : Focus big small pre init i pick view ok) (hc : c.Placed i pick)
    (hm : ok c m) (h : big.Step c m c') : c'.Placed i pick := by
  cases h with
  | env he => exact hc
  | @start j l p hi hs => exact hc.place (t := ⟨l, [], p⟩) (hf.slot hm hs) _ _
  | @call j l h q k r s' hi hs =>
    have hl : j = i ↔ (pick l).isSome := hc j _ hi
    exact hc.place (t := ⟨l, ⟨q, r⟩ :: h, k r⟩) hl _ _
  | finish hi => exact hc.erase _ _ _
  | crash hi => exact hc.erase _ _ _

omit [DecidableEq ι] in
/-- A program that is not known starts elsewhere. -/
theorem start_elsewhere (hf : Focus big small pre init i pick view ok) {j : ι} {l : L}
    {p : Program R α} (hm : ok c (.start j l)) (hs : big.start c.store l p) (hl : pick l = none) :
    i ≠ j := by
  intro hij
  have hsome := (hf.slot hm hs).mp hij.symm
  rw [hl] at hsome
  cases hsome

/-- **One move** is a move of the small system, or is not seen. -/
theorem step (hf : Focus big small pre init i pick view ok) (hc : c.Placed i pick)
    (hpre : ¬ pre (view c.store)) (hm : ok c m) (h : big.Step c m c') :
    (∃ m', m.only pick view = some m' ∧
      small.Step (c.only i pick view) m' (c'.only i pick view)) ∨
    (m.only pick view = none ∧ c'.only i pick view = c.only i pick view) := by
  cases h with
  | env he => exact .inl ⟨_, rfl, .env ((hf.env hm he).after hpre)⟩
  | @start j l p hi hs =>
    cases hl : pick l with
    | none =>
      have hj := hf.start_elsewhere hm hs hl
      exact .inr ⟨by rw [Move.only, hl]; rfl, Config.only_place_of_ne hl hj ..⟩
    | some l' =>
      obtain rfl : j = i := (hf.slot hm hs).mpr (by rw [hl]; rfl)
      refine .inl ⟨.start () l', by rw [Move.only, hl]; rfl, ?_⟩
      rw [Config.only_place (t := ⟨l, [], p⟩) hl]
      refine .start ?_ (hf.start hm hl hs).2
      rw [Config.only, hi]
      rfl
  | @call j l h q k r s' hi hs =>
    rcases hc.seen view hi with ⟨l', hl, rfl, hrun⟩ | ⟨hl, hj⟩
    · refine .inl ⟨.call () l' h q r (view s'), by rw [Move.only, hl]; rfl, ?_⟩
      rw [Config.only_place (t := ⟨l, ⟨q, r⟩ :: h, k r⟩) hl]
      exact .call hrun (hf.own hm hi hl hs)
    · refine .inl ⟨.env (view s'), by rw [Move.only, hl]; rfl, ?_⟩
      rw [Config.only_place_of_ne hl hj]
      exact .env ((hf.other hm hi hl hs).after hpre)
  | @finish j l h a hi =>
    rcases hc.seen view hi with ⟨l', hl, rfl, hrun⟩ | ⟨hl, hj⟩
    · refine .inl ⟨.finish () l' h, by rw [Move.only, hl]; rfl, ?_⟩
      rw [Config.only_erase]
      exact .finish hrun
    · exact .inr ⟨by rw [Move.only, hl]; rfl, Config.only_erase_of_ne hj ..⟩
  | @crash j l h p hi =>
    rcases hc.seen view hi with ⟨l', hl, rfl, hrun⟩ | ⟨hl, hj⟩
    · refine .inl ⟨.crash () l' h, by rw [Move.only, hl]; rfl, ?_⟩
      rw [Config.only_erase]
      exact .crash hrun
    · exact .inr ⟨by rw [Move.only, hl]; rfl, Config.only_erase_of_ne hj ..⟩

/-- Before the slot has been used: a move leaves it unused, and the view `pre` or initial. -/
theorem step_before (hf : Focus big small pre init i pick view ok) (hc : c.Placed i pick)
    (hpre : pre (view c.store)) (hidle : c.only i pick view = ⟨view c.store, fun _ => none, []⟩)
    (hm : ok c m) (h : big.Step c m c') :
    (pre (view c'.store) ∨ init (view c'.store)) ∧
      c'.only i pick view = ⟨view c'.store, fun _ => none, []⟩ := by
  have hrun : (c.only i pick view).running () = none := by rw [hidle]
  have hunseen (s : S) : (⟨s, c.running, c.record⟩ : Config ι L R α S).only i pick view =
      ⟨view s, fun _ => none, []⟩ :=
    congrArg (fun d : Config Unit L' R α S' => { d with store := view s }) hidle
  -- whatever runs, runs elsewhere
  have elsewhere {j l h p} (hi : c.running j = some ⟨l, h, p⟩) : pick l = none ∧ i ≠ j := by
    rcases hc.seen view hi with ⟨l', -, -, hrun'⟩ | hl
    · rw [hrun] at hrun'
      cases hrun'
    · exact hl
  cases h with
  | env he => exact ⟨(hf.env hm he).before hpre, hunseen _⟩
  | @start j l p hi hs =>
    cases hl : pick l with
    | none =>
      rw [Config.only_place_of_ne hl (hf.start_elsewhere hm hs hl)]
      exact ⟨.inl hpre, hunseen _⟩
    | some l' => exact absurd hpre (hf.start hm hl hs).1
  | @call j l h q k r s' hi hs =>
    obtain ⟨hl, hj⟩ := elsewhere hi
    rw [Config.only_place_of_ne hl hj]
    exact ⟨(hf.other hm hi hl hs).before hpre, hunseen _⟩
  | @finish j l h a hi =>
    rw [Config.only_erase_of_ne (elsewhere hi).2]
    exact ⟨.inl hpre, hunseen _⟩
  | @crash j l h p hi =>
    rw [Config.only_erase_of_ne (elsewhere hi).2]
    exact ⟨.inl hpre, hunseen _⟩

/-- **A run of the large system** is, seen from the slot, a run of the small one, or the slot has
not been used yet. The moves of the small run meet what the seen moves meet. -/
theorem reachable {start : S → Prop} {ok' : Config Unit L' R α S' → Move Unit L' R S' → Prop}
    (hf : Focus big small pre init i pick view ok)
    (hstart : ∀ {s}, start s → pre (view s) ∨ init (view s))
    (hlive : ∀ {d}, small.Reachable init ok' d → ¬ pre d.store)
    (hc : big.Reachable start (fun c m => ok c m ∧
      ∀ m', m.only pick view = some m' → ¬ pre (view c.store) →
        ok' (c.only i pick view) m') c) :
    pre (view c.store) ∨ small.Reachable init ok' (c.only i pick view) := by
  suffices hall : c.Placed i pick ∧ ((pre (view c.store) ∧
      c.only i pick view = ⟨view c.store, fun _ => none, []⟩) ∨
      small.Reachable init ok' (c.only i pick view)) from hall.2.imp_left And.left
  induction hc with
  | init hs =>
    refine ⟨fun j t ht => (by cases ht), ?_⟩
    exact (hstart hs).imp (fun hpre => ⟨hpre, rfl⟩) .init
  | step _ hm h ih =>
    obtain ⟨hplaced, hseen⟩ := ih
    refine ⟨hf.placed_step hplaced hm.1 h, ?_⟩
    rcases hseen with ⟨hpre, hidle⟩ | hreach
    · obtain ⟨hview, hidle'⟩ := hf.step_before hplaced hpre hidle hm.1 h
      refine hview.imp (fun hpre' => ⟨hpre', hidle'⟩) fun hinit => ?_
      rw [hidle']
      exact .init hinit
    · right
      have hpre := hlive hreach
      rcases hf.step hplaced hpre hm.1 h with ⟨m', hm', hstep⟩ | ⟨-, heq⟩
      · exact hreach.step (hm.2 m' hm' hpre) hstep
      · rw [heq]
        exact hreach

end Focus

end Interaction
