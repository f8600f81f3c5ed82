import Mathlib.Logic.Function.Basic
import SdbController.Interaction.Program

/-!
# Many programs, one store

A `System` says which programs may be started against a store, how a call may be answered, and
what the rest of the world may do to the store. Its configurations hold the store and, for each
slot, the program running there. One call of one running program is one step, so programs in
different slots interleave freely and the environment moves between any two calls. Any running
program may crash at any point: it disappears and its effects stay.

With a single slot this is a sequential process that restarts after every crash.

## Conditions on runs

`Reachable` carries a condition on moves. A run all of whose moves meet the condition is how a
theorem says *in every run in which this does not happen*; the trivial condition gives all runs.

## Main definitions

* `Task`, `Config`, `Move`, `System`, `Step`, `Reachable`
* `Outline` — the assertions of an invariance proof; `Config.Sound` says that they hold
* `System.Preserves` — the obligations of the invariant rule

## Main results

* `System.Preserves.sound` — the invariant rule: obligations per move give all reachable
  configurations. Its frame clause is vacuous when there is only one slot.
* `System.Preserves.reachable` — one invariance proof may build on another
* `System.Reachable.play` — one program run against a server that is a function, as part of a run
-/

namespace Interaction

variable {C : Type} {R : C → Type} {ι L α S : Type}

/-- A running program: what it was started for, its calls so far, and what is left of it. -/
structure Task (L : Type) (R : C → Type) (α : Type) where
  label : L
  history : History R
  rest : Program R α

/-- A store, the program running in each slot, and the history of every run after every call. -/
structure Config (ι L : Type) (R : C → Type) (α S : Type) where
  store : S
  running : ι → Option (Task L R α)
  record : List (L × History R)

/-- What may be started, how calls are answered, and what else may happen to the store. -/
structure System (L : Type) (R : C → Type) (α S : Type) where
  start : S → L → Program R α → Prop
  serve : (c : C) → S → R c → S → Prop
  env : S → S → Prop

/-- A move, with what a condition on runs may want to know about it. -/
inductive Move (ι L : Type) (R : C → Type) (S : Type)
  | env (s' : S)
  | start (i : ι) (l : L)
  | call (i : ι) (l : L) (h : History R) (c : C) (r : R c) (s' : S)
  | finish (i : ι) (l : L) (h : History R)
  | crash (i : ι) (l : L) (h : History R)

namespace System

variable [DecidableEq ι] (sys : System L R α S)

/-- One move of the system. -/
inductive Step : Config ι L R α S → Move ι L R S → Config ι L R α S → Prop
  | env {c s'} (he : sys.env c.store s') : Step c (.env s') { c with store := s' }
  | start {c i l p} (hi : c.running i = none) (hs : sys.start c.store l p) :
      Step c (.start i l)
        { c with
          running := Function.update c.running i (some ⟨l, [], p⟩)
          record := (l, []) :: c.record }
  | call {c i l h q k r s'} (hi : c.running i = some ⟨l, h, .call q k⟩)
      (hs : sys.serve q c.store r s') :
      Step c (.call i l h q r s')
        { store := s'
          running := Function.update c.running i (some ⟨l, ⟨q, r⟩ :: h, k r⟩)
          record := (l, ⟨q, r⟩ :: h) :: c.record }
  | finish {c i l h a} (hi : c.running i = some ⟨l, h, .ret a⟩) :
      Step c (.finish i l h) { c with running := Function.update c.running i none }
  | crash {c i l h p} (hi : c.running i = some ⟨l, h, p⟩) :
      Step c (.crash i l h) { c with running := Function.update c.running i none }

/-- The configurations of runs from an initial store all of whose moves meet `ok`. -/
inductive Reachable (init : S → Prop) (ok : Config ι L R α S → Move ι L R S → Prop) :
    Config ι L R α S → Prop
  | init {s} (hs : init s) : Reachable init ok ⟨s, fun _ => none, []⟩
  | step {c m c'} (hc : Reachable init ok c) (hm : ok c m) (h : sys.Step c m c') :
      Reachable init ok c'

/-- The condition that allows every move. -/
def anyMove (_ : Config ι L R α S) (_ : Move ι L R S) : Prop := True

theorem Reachable.mono {init : S → Prop} {ok ok' : Config ι L R α S → Move ι L R S → Prop}
    (hok : ∀ c m, ok c m → ok' c m) {c : Config ι L R α S} (hc : sys.Reachable init ok c) :
    sys.Reachable init ok' c := by
  induction hc with
  | init hs => exact .init hs
  | step _ hm h ih => exact .step ih (hok _ _ hm) h

end System

/-- What an invariance proof says about a system: an invariant of the store and the record, an
assertion about each running task and about each idle slot, and what the programs themselves obey,
which is a guard on their calls and a postcondition on their results. -/
structure Outline (L : Type) (R : C → Type) (α S : Type) where
  store : S → List (L × History R) → Prop
  task : L → History R → S → Prop
  idle : S → Prop := fun _ => True
  guard : L → History R → C → Prop
  result : L → History R → α → Prop := fun _ _ _ => True

/-- A configuration in which everything the outline says holds. -/
structure Config.Sound (o : Outline L R α S) (c : Config ι L R α S) : Prop where
  store : o.store c.store c.record
  task : ∀ {i l h p}, c.running i = some ⟨l, h, p⟩ → o.task l h c.store
  idle : ∀ {i}, c.running i = none → o.idle c.store
  rest : ∀ {i l h p}, c.running i = some ⟨l, h, p⟩ → p.Meets (o.guard l) (o.result l) h
  recorded : ∀ {i l h p}, c.running i = some ⟨l, h, p⟩ → (l, h) ∈ c.record

namespace System

variable [DecidableEq ι]

/-- The obligations of the invariant rule, one per kind of move. A call must keep the store
invariant and its own task's assertion, and must not disturb the other slots. -/
structure Preserves (sys : System L R α S) (init : S → Prop)
    (ok : Config ι L R α S → Move ι L R S → Prop) (o : Outline L R α S) : Prop where
  init : ∀ {s}, init s → o.store s [] ∧ o.idle s
  env : ∀ {c s'}, c.Sound o → ok c (.env s') → sys.env c.store s' →
    o.store s' c.record ∧ (∀ i l h p, c.running i = some ⟨l, h, p⟩ → o.task l h s') ∧
      ∀ i, c.running i = none → o.idle s'
  start : ∀ {c i l p}, c.Sound o → c.running i = none → ok c (.start i l) →
    sys.start c.store l p →
    o.store c.store ((l, []) :: c.record) ∧ o.task l [] c.store ∧
      p.Meets (o.guard l) (o.result l) []
  call : ∀ {c i l h q k r s'}, c.Sound o → c.running i = some ⟨l, h, .call q k⟩ → o.guard l h q →
    ok c (.call i l h q r s') → sys.serve q c.store r s' →
    o.store s' ((l, ⟨q, r⟩ :: h) :: c.record) ∧ o.task l (⟨q, r⟩ :: h) s'
  frame : ∀ {c i j l h q k r s'}, c.Sound o → c.running i = some ⟨l, h, .call q k⟩ →
    o.guard l h q → ok c (.call i l h q r s') → sys.serve q c.store r s' → i ≠ j →
    (∀ l' h' p', c.running j = some ⟨l', h', p'⟩ → o.task l' h' s') ∧
      (c.running j = none → o.idle s')
  finish : ∀ {c i l h a}, c.Sound o → c.running i = some ⟨l, h, .ret a⟩ → o.result l h a →
    ok c (.finish i l h) → o.idle c.store
  crash : ∀ {c i l h p}, c.Sound o → c.running i = some ⟨l, h, p⟩ → ok c (.crash i l h) →
    o.idle c.store

variable {sys : System L R α S} {init : S → Prop}
  {ok : Config ι L R α S → Move ι L R S → Prop} {o : Outline L R α S}

private theorem sound_erase {c : Config ι L R α S} (hc : c.Sound o) (i : ι)
    (hidle : o.idle c.store) :
    ({ c with running := Function.update c.running i none } : Config ι L R α S).Sound o := by
  have back : ∀ {j t}, Function.update c.running i none j = some t → c.running j = some t := by
    intro j t hj
    rcases eq_or_ne j i with rfl | hji
    · simp at hj
    · rwa [Function.update_of_ne hji] at hj
  exact ⟨hc.store, fun hj => hc.task (back hj), fun _ => hidle, fun hj => hc.rest (back hj),
    fun hj => hc.recorded (back hj)⟩

/-- Putting a task into slot `i` and moving to store `s'` is sound if it is for the new task and
for the other slots. -/
private theorem sound_place {c : Config ι L R α S} (hc : c.Sound o) {i : ι} {l : L}
    {h : History R} {p : Program R α} {s' : S} (hI : o.store s' ((l, h) :: c.record))
    (hT : o.task l h s') (hG : p.Meets (o.guard l) (o.result l) h)
    (hframe : ∀ {j}, i ≠ j → (∀ l' h' p', c.running j = some ⟨l', h', p'⟩ → o.task l' h' s') ∧
      (c.running j = none → o.idle s')) :
    (⟨s', Function.update c.running i (some ⟨l, h, p⟩), (l, h) :: c.record⟩ :
      Config ι L R α S).Sound o := by
  have split : ∀ {j t}, Function.update c.running i (some ⟨l, h, p⟩) j = t →
      t = some ⟨l, h, p⟩ ∨ (i ≠ j ∧ c.running j = t) := by
    intro j t hj
    rcases eq_or_ne j i with rfl | hji
    · rw [Function.update_self] at hj
      exact .inl hj.symm
    · rw [Function.update_of_ne hji] at hj
      exact .inr ⟨hji.symm, hj⟩
  refine ⟨hI, fun hj => ?_, fun hj => ?_, fun hj => ?_, fun hj => ?_⟩ <;>
    rcases split hj with heq | ⟨hij, hj⟩
  · cases heq; exact hT
  · exact (hframe hij).1 _ _ _ hj
  · cases heq
  · exact (hframe hij).2 hj
  · cases heq; exact hG
  · exact hc.rest hj
  · cases heq; exact List.mem_cons_self
  · exact List.mem_cons_of_mem _ (hc.recorded hj)

/-- One move keeps a sound configuration sound. -/
theorem Preserves.step (hP : sys.Preserves init ok o) {c c' : Config ι L R α S}
    {m : Move ι L R S} (hc : c.Sound o) (hm : ok c m) (h : sys.Step c m c') : c'.Sound o := by
  cases h with
  | env he =>
    obtain ⟨hI, hT, hidle⟩ := hP.env hc hm he
    exact ⟨hI, fun hi => hT _ _ _ _ hi, fun hi => hidle _ hi, hc.rest, hc.recorded⟩
  | start hi hs =>
    obtain ⟨hI, hT, hG⟩ := hP.start hc hi hm hs
    exact sound_place hc hI hT hG fun _ => ⟨fun _ _ _ hj => hc.task hj, hc.idle⟩
  | call hi hs =>
    have hG := hc.rest hi
    obtain ⟨hI, hT⟩ := hP.call hc hi hG.1 hm hs
    exact sound_place hc hI hT (hG.2 _) fun hij => hP.frame hc hi hG.1 hm hs hij
  | finish hi => exact sound_erase hc _ (hP.finish hc hi (hc.rest hi) hm)
  | crash hi => exact sound_erase hc _ (hP.crash hc hi hm)

/-- **The invariant rule.** -/
theorem Preserves.sound (hP : sys.Preserves init ok o) {c : Config ι L R α S}
    (hc : sys.Reachable init ok c) : c.Sound o := by
  induction hc with
  | init hs => exact ⟨(hP.init hs).1, by simp, fun _ => (hP.init hs).2, by simp, by simp⟩
  | step _ hm h ih => exact hP.step ih hm h

omit [DecidableEq ι] in
/-- What holds in runs under a condition holds in runs under a stronger one. -/
theorem Preserves.mono (hP : sys.Preserves init ok o)
    {ok' : Config ι L R α S → Move ι L R S → Prop} (hok : ∀ c m, ok' c m → ok c m) :
    sys.Preserves init ok' o where
  init := hP.init
  env hc hm := hP.env hc (hok _ _ hm)
  start hc hi hm := hP.start hc hi (hok _ _ hm)
  call hc hi hG hm := hP.call hc hi hG (hok _ _ hm)
  frame hc hi hG hm := hP.frame hc hi hG (hok _ _ hm)
  finish hc hi ha hm := hP.finish hc hi ha (hok _ _ hm)
  crash hc hi hm := hP.crash hc hi (hok _ _ hm)

/-- What has been shown may be assumed: in every run, each move starts from a sound
configuration. -/
theorem Preserves.reachable (hP : sys.Preserves init ok o) {c : Config ι L R α S}
    (hc : sys.Reachable init ok c) : sys.Reachable init (fun c m => ok c m ∧ c.Sound o) c := by
  induction hc with
  | init hs => exact .init hs
  | step hc hm h ih => exact ih.step ⟨hm, hP.sound hc⟩ h

/-! ### Building runs -/

/-- A move of the invocation `p` for `l` in slot `i`, its calls answered by `server`. -/
inductive Played (server : (c : C) → S → R c × S) (i : ι) (l : L) (p : Program R α)
    (c : Config ι L R α S) : Move ι L R S → Prop
  | start : Played server i l p c (.start i l)
  | call {h q k} (hp : Program.After p h (.call q k)) :
      Played server i l p c (.call i l h q (server q c.store).1 (server q c.store).2)
  | finish {h a} (hp : Program.After p h (.ret a)) : Played server i l p c (.finish i l h)

section Play

variable {server : (c : C) → S → R c × S} {i : ι} {l : L} {p₀ p : Program R α}

/-- A running program can be played to its end, if the moves are fine whose calls pass a test and
all its calls do. -/
theorem Reachable.play_checks {test : (q : C) → S → Bool}
    (hserve : ∀ q s, sys.serve q s (server q s).1 (server q s).2)
    (hok : ∀ c m, Played server i l p₀ c m →
      (∀ i l h q r s', m = .call i l h q r s' → test q c.store) → ok c m) :
    ∀ {c : Config ι L R α S} {h : History R}, Program.After p₀ h p → sys.Reachable init ok c →
      c.running i = some ⟨l, h, p⟩ → p.checks server test c.store →
        ∃ c' : Config ι L R α S, sys.Reachable init ok c' ∧
          c'.store = (p.eval server c.store).2 ∧ c'.running = Function.update c.running i none := by
  induction p with
  | ret a =>
    intro c h hp hc hi _
    exact ⟨_, hc.step (hok _ _ (.finish hp) fun _ _ _ _ _ _ heq => nomatch heq) (.finish hi), rfl,
      rfl⟩
  | call q k ih =>
    intro c h hp hc hi htest
    obtain ⟨hq, hrest⟩ := Bool.and_eq_true_iff.mp htest
    have hmove := hok c _ (.call hp) fun _ _ _ _ _ _ heq => by cases heq; exact hq
    obtain ⟨c', hc', hs', hrun⟩ := ih _ (hp.reply _)
      (hc.step hmove (.call hi (hserve q c.store))) (Function.update_self ..) hrest
    exact ⟨c', hc', hs', by rw [hrun, Function.update_idem]⟩

/-- A running program can be played to its end. -/
theorem Reachable.play_running (hserve : ∀ q s, sys.serve q s (server q s).1 (server q s).2)
    (hok : ∀ c m, Played server i l p₀ c m → ok c m) {c : Config ι L R α S} {h : History R}
    (hp : Program.After p₀ h p) (hc : sys.Reachable init ok c)
    (hi : c.running i = some ⟨l, h, p⟩) : ∃ c' : Config ι L R α S, sys.Reachable init ok c' ∧
      c'.store = (p.eval server c.store).2 ∧ c'.running = Function.update c.running i none :=
  Reachable.play_checks hserve (fun c m hm _ => hok c m hm) hp hc hi (Program.checks_true p _)

/-- An idle slot can play one whole invocation, if all its calls pass the test. -/
theorem Reachable.play_whole {test : (q : C) → S → Bool}
    (hserve : ∀ q s, sys.serve q s (server q s).1 (server q s).2)
    (hok : ∀ c m, Played server i l p c m →
      (∀ i l h q r s', m = .call i l h q r s' → test q c.store) → ok c m)
    {c : Config ι L R α S} (hc : sys.Reachable init ok c) (hi : c.running i = none)
    (hstart : sys.start c.store l p) (htest : p.checks server test c.store) :
    ∃ c' : Config ι L R α S, sys.Reachable init ok c' ∧
      c'.store = (p.eval server c.store).2 ∧ c'.running = c.running := by
  have hmove := hok c _ .start fun _ _ _ _ _ _ heq => nomatch heq
  obtain ⟨c', hc', hs', hrun⟩ := (hc.step hmove (.start hi hstart)).play_checks hserve hok .start
    (Function.update_self ..) htest
  refine ⟨c', hc', hs', ?_⟩
  rw [hrun, Function.update_idem, ← hi, Function.update_eq_self]

/-- An idle slot can play one whole invocation. -/
theorem Reachable.play (hserve : ∀ q s, sys.serve q s (server q s).1 (server q s).2)
    (hok : ∀ c m, Played server i l p c m → ok c m) {c : Config ι L R α S}
    (hc : sys.Reachable init ok c) (hi : c.running i = none) (hstart : sys.start c.store l p) :
    ∃ c' : Config ι L R α S, sys.Reachable init ok c' ∧
      c'.store = (p.eval server c.store).2 ∧ c'.running = c.running :=
  Reachable.play_whole hserve (fun c m hm _ => hok c m hm) hc hi hstart (Program.checks_true p _)

end Play

/-- A run with one slot leads to the store `s`, with nothing running. -/
def Settles (sys : System L R α S) (init : S → Prop)
    (ok : Config Unit L R α S → Move Unit L R S → Prop) (s : S) : Prop :=
  ∃ c : Config Unit L R α S, sys.Reachable init ok c ∧ c.running () = none ∧ c.store = s

section Settles

variable {ok : Config Unit L R α S → Move Unit L R S → Prop} {s s' : S}

theorem Settles.initial (hs : init s) : sys.Settles init ok s := ⟨_, .init hs, rfl, rfl⟩

theorem Settles.play (hs : sys.Settles init ok s) {server : (c : C) → S → R c × S}
    (hserve : ∀ q s, sys.serve q s (server q s).1 (server q s).2) {l : L} {p : Program R α}
    (hok : ∀ c m, Played server () l p c m → ok c m) (hstart : sys.start s l p) :
    sys.Settles init ok (p.eval server s).2 := by
  obtain ⟨c, hc, hi, rfl⟩ := hs
  obtain ⟨c', hc', hstore, hrun⟩ := hc.play hserve hok hi hstart
  exact ⟨c', hc', (congrFun hrun ()).trans hi, hstore⟩

/-- The same, if the moves are fine whose calls pass a test and all calls do. -/
theorem Settles.play_whole (hs : sys.Settles init ok s) {server : (c : C) → S → R c × S}
    {test : (q : C) → S → Bool} (hserve : ∀ q s, sys.serve q s (server q s).1 (server q s).2)
    {l : L} {p : Program R α} (hok : ∀ c m, Played server () l p c m →
      (∀ i l h q r s', m = .call i l h q r s' → test q c.store) → ok c m)
    (hstart : sys.start s l p) (htest : p.checks server test s) :
    sys.Settles init ok (p.eval server s).2 := by
  obtain ⟨c, hc, hi, rfl⟩ := hs
  obtain ⟨c', hc', hstore, hrun⟩ := hc.play_whole hserve hok hi hstart htest
  exact ⟨c', hc', (congrFun hrun ()).trans hi, hstore⟩

theorem Settles.env (hs : sys.Settles init ok s) (he : sys.env s s')
    (hok : ∀ c, c.running () = none → c.store = s → ok c (.env s')) :
    sys.Settles init ok s' := by
  obtain ⟨c, hc, hi, rfl⟩ := hs
  exact ⟨_, hc.step (hok c hi rfl) (.env he), hi, rfl⟩

end Settles

end System

end Interaction
