import Mathlib.Data.Option.Basic
import Mathlib.Logic.Relation
import SdbController.Interaction.Custody

/-!
# The queue of a controller

A reconciliation says when the next one is due: after some time, or when the watch shows a change.
The queue of a controller keeps the earliest time. It starts what is due without delay, one
reconciliation of an object at a time, and when it is started itself everything is due. An object
that is gone is not reconciled, and that it went is no reason to.

A controller that waits for a change may wait for ever, so the question is whether there is one to
come. The patches of the finalizer are changes: after one the watch is behind. An object that is
being deleted and does not have the finalizer is no business of the controller any more.

## Main definitions

* `Queued` — a controller at work, with its queue
* `Managed.Passes`, `Managed.Starts` — what happens, and what of it starts a reconciliation
* `Managed.Timed` — how long a reconciliation may put off the next one

## Main results

* `Managed.reachable_of_queue` — a run with the queue is a run
* `Managed.never_forgotten` — an object that needs attention is worked on, has an event under way,
  or is due in time
* `Managed.now_le` — time does not pass what is due
-/

namespace Interaction

open Program Relation

/-- A controller at work, the time, and when the next reconciliation is due. -/
structure Queued (L : Type) {C : Type} (R : C → Type) (α S : Type) where
  config : Config Unit L R α (Tracked S)
  now : ℕ
  due : Option ℕ

/-- A controller that has just been started. -/
def Queued.initial {L C : Type} {R : C → Type} {α S : Type} (s : Tracked S) (now : ℕ) :
    Queued L R α S :=
  ⟨⟨s, fun _ => none, []⟩, now, some now⟩

/-- There is an object, but it is being deleted and without the finalizer. Or there is none. -/
def Resting (name : String) (v : Option Life) : Prop :=
  ∀ l ∈ v, name ∉ l.finalizers ∧ l.deleting = true

/-- The last call was a patch of the finalizers that went well. -/
def Patched {C D : Type} {R : C → Type} {R' : D → Type} {F : Type} :
    History (LifeReply R R' F) → Prop
  | ⟨.add _ _, r⟩ :: _ => (r : Except F Unit) = .ok ()
  | ⟨.remove _ _, r⟩ :: _ => (r : Except F Unit) = .ok ()
  | _ => False

theorem forall_mem_merge {P : ℕ → Prop} {a b : Option ℕ} (ha : ∀ t ∈ a, P t) (hb : ∀ t ∈ b, P t) :
    ∀ t ∈ a.merge min b, P t := by
  rcases Option.merge_eq_or_eq (fun x y : ℕ => show min x y = x ∨ min x y = y by omega) a b with
    heq | heq
  · rwa [heq]
  · rwa [heq]

namespace Tracked

variable {S : Type}

@[simp] theorem cached_store (s : Tracked S) (v : Option Life) : (s.store v).cached = s.cached :=
  List.getLast_cons (List.cons_ne_nil _ _)

theorem cached_of_behind_eq_nil {s : Tracked S} (h : s.behind = []) : s.cached = s.stored := by
  simp only [cached, versions, h, List.getLast_singleton]

end Tracked

namespace Managed

variable {C D : Type} {R : C → Type} {R' : D → Type} {O S E F A : Type}
  (m : Managed R R' O S E A) (others : Option Life → Option Life → Prop)
  (run : Finalizer R R' F E A) (policy : Except (FinalizerError E F) A → Option ℕ)

/-- What happens between two starts. Other clients do with the object what `others` allows. The
watch wakes the queue, and so does a restart. -/
inductive Passes : Queued (O × Life) (LifeReply R R' F) (Except (FinalizerError E F) A) S →
    Queued (O × Life) (LifeReply R R' F) (Except (FinalizerError E F) A) S → Prop
  | world {q w} (hw : m.env q.config.store.world w) :
      Passes q { q with config := { q.config with store := { q.config.store with world := w } } }
  | object {q v} (hv : others q.config.store.stored v) :
      Passes q { q with config := { q.config with store := q.config.store.store v } }
  | watch {q} (hb : q.config.store.behind ≠ []) :
      Passes q
        { q with
          config := { q.config with store := q.config.store.advance }
          due := if q.config.store.advance.cached.isSome then q.due.merge min (some q.now)
                 else q.due }
  | call {q l h c r s' cfg} (hs : (m.system run).Step q.config (.call () l h c r s') cfg) :
      Passes q { q with config := cfg }
  | finish {q l h r} (hi : q.config.running () = some ⟨l, h, .ret r⟩) :
      Passes q
        { q with
          config := { q.config with running := Function.update q.config.running () none }
          due := q.due.merge min ((policy r).map (q.now + ·)) }
  | crash {q l h cfg} (hs : (m.system run).Step q.config (.crash () l h) cfg) :
      Passes q { q with config := cfg, due := some q.now }
  | restart {q} (hi : q.config.running () = none) : Passes q { q with due := some q.now }
  | tick {q} (hlate : q.config.running () = none → ∀ t ∈ q.due, q.now < t) :
      Passes q { q with now := q.now + 1 }

/-- The next reconciliation is due, and is started if there is still an object. -/
inductive Starts : Queued (O × Life) (LifeReply R R' F) (Except (FinalizerError E F) A) S →
    Queued (O × Life) (LifeReply R R' F) (Except (FinalizerError E F) A) S → Prop
  | start {q l t cfg} (ht : q.due = some t) (hnow : t ≤ q.now)
      (hs : (m.system run).Step q.config (.start () l) cfg) :
      Starts q { q with config := cfg, due := none }
  | absent {q t} (hi : q.config.running () = none) (ht : q.due = some t) (hnow : t ≤ q.now)
      (hc : q.config.store.cached = none) : Starts q { q with due := none }

/-- A run of the controller with its queue. -/
def Runs : Queued (O × Life) (LifeReply R R' F) (Except (FinalizerError E F) A) S →
    Queued (O × Life) (LifeReply R R' F) (Except (FinalizerError E F) A) S → Prop :=
  ReflTransGen fun q q' => m.Passes others run policy q q' ∨ m.Starts run q q'

/-- Whatever is applied puts the next reconciliation off by no more than `delay`, and so does an
error. Only after a cleanup, or when the finalizer says so, may a change be waited for. -/
structure Timed (awaitChange : A) (delay : ℕ) : Prop where
  error : ∀ e, ∃ d ≤ delay, policy (.error e) = some d
  apply : ∀ {o}, m.object o → (m.apply o).Meets (fun _ _ => True)
    (fun _ r => ∀ a, r = .ok a → ∃ d ≤ delay, policy (.ok a) = some d) []
  cleanup : ∀ {o}, m.object o → (m.cleanup o).Meets (fun _ _ => True)
    (fun _ r => ∀ a, r = .ok a → ∀ d ∈ policy (.ok a), d ≤ delay) []
  awaits : ∀ d ∈ policy (.ok awaitChange), d ≤ delay

/-- When a reconciliation returns: the next one is not put off for long, and if a change is waited
for there was one, or there is nothing to do. -/
def Waits (delay : ℕ) (l : Life) (h : History (LifeReply R R' F))
    (r : Except (FinalizerError E F) A) : Prop :=
  (∀ d ∈ policy r, d ≤ delay) ∧
    (policy r = none → (m.name ∉ l.finalizers ∧ l.deleting = true) ∨ Patched h)

/-- What holds all along. -/
structure Awake (delay : ℕ)
    (q : Queued (O × Life) (LifeReply R R' F) (Except (FinalizerError E F) A) S) : Prop where
  idle : q.config.running () = none → q.due = none → q.config.store.behind = [] →
    Resting m.name q.config.store.stored
  seen : ∀ {l h p}, q.config.running () = some ⟨l, h, p⟩ → q.due = none →
    q.config.store.cached = none ∨
      (q.config.store.cached = some l.2 ∧ (Patched h → q.config.store.behind ≠ []))
  rest : ∀ {l h p}, q.config.running () = some ⟨l, h, p⟩ →
    p.Meets (fun _ _ => True) (m.Waits policy delay l.2) h
  due : ∀ t ∈ q.due, t ≤ q.now + delay

section Awake

variable {m others run policy} {awaitChange : A} {delay : ℕ} {l : O × Life}
  {h : History (LifeReply R R' F)} {s s' : Tracked S}
  {q q' : Queued (O × Life) (LifeReply R R' F) (Except (FinalizerError E F) A) S}

/-- What the finalizer drives waits only as it may. -/
theorem meets_waits (htimed : m.Timed policy awaitChange delay)
    (hrun : Documented m.name awaitChange run) (hl : m.object l.1) :
    (run l.2 (m.apply l.1) (m.cleanup l.1)).Meets (fun _ _ => True)
      (m.Waits policy delay l.2) [] := by
  have herror (h : History (LifeReply R R' F)) (e : FinalizerError E F) :
      m.Waits policy delay l.2 h (.error e) := by
    obtain ⟨d, hd, heq⟩ := htimed.error e
    rw [Waits, heq]
    exact ⟨fun t ht => Option.some.inj ht ▸ hd, fun hnone => nomatch hnone⟩
  by_cases hheld : m.name ∈ l.2.finalizers <;> by_cases hdel : l.2.deleting = true
  · rw [hrun.cleanup hheld hdel]
    refine cleaning.meets_embed (fun _ _ _ => trivial) (fun h r hr => ?_) (htimed.cleanup hl)
    cases r with
    | error e => exact herror _ _
    | ok a =>
      refine ⟨trivial, fun r => ?_⟩
      obtain e | u : Except F Unit := r
      · exact herror _ _
      · exact ⟨hr a rfl, fun _ => .inr rfl⟩
  · rw [hrun.apply hheld (eq_false_of_ne_true hdel)]
    refine applying.meets_embed (fun _ _ _ => trivial) (fun h r hr => ?_) (htimed.apply hl)
    cases r with
    | error e => exact herror _ _
    | ok a =>
      obtain ⟨d, hd, heq⟩ := hr a rfl
      change m.Waits policy delay l.2 _ (.ok a)
      rw [Waits, heq]
      exact ⟨fun t ht => Option.some.inj ht ▸ hd, fun hnone => nomatch hnone⟩
  · rw [hrun.done hheld hdel]
    exact ⟨htimed.awaits, fun _ => .inl ⟨hheld, hdel⟩⟩
  · rw [hrun.add hheld (eq_false_of_ne_true hdel)]
    refine ⟨trivial, fun r => ?_⟩
    obtain e | u : Except F Unit := r
    · exact herror _ _
    · exact ⟨htimed.awaits, fun _ => .inr rfl⟩

/-- A call leaves the watch where it was. One that patches the finalizers leaves it behind. -/
theorem serves_seen {c : LifeCall C D} {r : LifeReply R R' F c}
    (hs : LifeServes m.serveApply m.serveCleanup c s r s') :
    s'.cached = s.cached ∧ (s.behind ≠ [] → s'.behind ≠ []) ∧
      (Patched (⟨c, r⟩ :: h) → s'.behind ≠ []) := by
  have hpatches {f : Life → Option (Option Life)} {r : Except F Unit} (hs : Patches f s r s') :
      s'.cached = s.cached ∧ (s.behind ≠ [] → s'.behind ≠ []) ∧ (r = .ok () → s'.behind ≠ []) := by
    rcases hs with ⟨v, -, rfl⟩ | ⟨rfl, e, rfl⟩
    · exact ⟨s.cached_store v, fun _ => List.cons_ne_nil _ _, fun _ => List.cons_ne_nil _ _⟩
    · exact ⟨rfl, id, fun hok => nomatch hok⟩
  cases c with
  | apply c | cleanup c =>
    obtain ⟨w, -, rfl⟩ := hs
    exact ⟨rfl, id, False.elim⟩
  | add name seen | remove name i => exact hpatches hs

/-- While a reconciliation runs. -/
theorem awake_running {cfg : Config Unit (O × Life) (LifeReply R R' F)
      (Except (FinalizerError E F) A) (Tracked S)} {due : Option ℕ} {now : ℕ}
    {p : Program (LifeReply R R' F) (Except (FinalizerError E F) A)}
    (hrunning : cfg.running () = some ⟨l, h, p⟩)
    (hseen : due = none → cfg.store.cached = none ∨
      (cfg.store.cached = some l.2 ∧ (Patched h → cfg.store.behind ≠ [])))
    (hrest : p.Meets (fun _ _ => True) (m.Waits policy delay l.2) h)
    (hdue : ∀ t ∈ due, t ≤ now + delay) : m.Awake policy delay ⟨cfg, now, due⟩ where
  idle hnone := by cases hrunning.symm.trans hnone
  seen ht := by
    cases hrunning.symm.trans ht
    exact hseen
  rest ht := by
    cases hrunning.symm.trans ht
    exact hrest
  due := hdue

/-- While none does. -/
theorem awake_idle {cfg : Config Unit (O × Life) (LifeReply R R' F)
      (Except (FinalizerError E F) A) (Tracked S)} {due : Option ℕ} {now : ℕ}
    (hidle : cfg.running () = none)
    (hrests : due = none → cfg.store.behind = [] → Resting m.name cfg.store.stored)
    (hdue : ∀ t ∈ due, t ≤ now + delay) : m.Awake policy delay ⟨cfg, now, due⟩ where
  idle _ := hrests
  seen ht := by cases hidle.symm.trans ht
  rest ht := by cases hidle.symm.trans ht
  due := hdue

/-- An object that was seen to be gone, with nothing left to be seen. -/
theorem resting_of_gone (hgone : s.cached = none) (hnil : s.behind = []) :
    Resting m.name s.stored := by
  rw [← Tracked.cached_of_behind_eq_nil hnil, hgone]
  exact fun _ hl => nomatch hl

theorem due_now (now : ℕ) : ∀ t ∈ some now, t ≤ now + delay :=
  fun _ ht => Option.some.inj ht ▸ Nat.le_add_right _ _

/-- What happens between two starts keeps the queue awake. -/
theorem Awake.passes (hq : m.Awake policy delay q) (hpass : m.Passes others run policy q q') :
    m.Awake policy delay q' := by
  cases hpass with
  | world hw => exact ⟨hq.idle, hq.seen, hq.rest, hq.due⟩
  | object hv =>
    refine ⟨fun _ _ hnil => absurd hnil (List.cons_ne_nil _ _), fun {l h p} hi hdue => ?_, hq.rest,
      hq.due⟩
    rw [Tracked.cached_store]
    exact (hq.seen hi hdue).imp_right fun hs => ⟨hs.1, fun _ => List.cons_ne_nil _ _⟩
  | watch hb =>
    by_cases hsome : q.config.store.advance.cached.isSome
    · have hwoken : q.due.merge min (some q.now) ≠ none :=
        fun hnone => Option.some_ne_none _ (Option.merge_eq_none_iff.mp hnone).2
      rw [if_pos hsome]
      exact ⟨fun _ hdue => absurd hdue hwoken, fun _ hdue => absurd hdue hwoken, hq.rest,
        forall_mem_merge hq.due (due_now _)⟩
    · have hgone := Option.not_isSome_iff_eq_none.mp hsome
      rw [if_neg hsome]
      exact ⟨fun _ _ => resting_of_gone hgone, fun _ _ => .inl hgone, hq.rest, hq.due⟩
  | call hs =>
    cases hs with
    | call hi hserve =>
      obtain ⟨hcached, -, hpatched⟩ := serves_seen hserve
      refine awake_running rfl (fun hdue => ?_) ((hq.rest hi).2 _) hq.due
      rw [hcached]
      exact (hq.seen hi hdue).imp_right fun hs => ⟨hs.1, hpatched⟩
  | @finish l h r hi =>
    obtain ⟨hdelay, hwaits⟩ : m.Waits policy delay l.2 h r := hq.rest hi
    refine awake_idle rfl (fun hdue hnil => ?_)
      (forall_mem_merge hq.due fun t ht => ?_)
    · obtain ⟨hnone, hpolicy⟩ := Option.merge_eq_none_iff.mp hdue
      rcases hq.seen hi hnone with hgone | ⟨hseen, hpatched⟩
      · exact resting_of_gone hgone hnil
      · rcases hwaits (Option.map_eq_none_iff.mp hpolicy) with hrests | hpatch
        · rw [← Tracked.cached_of_behind_eq_nil hnil, hseen]
          exact fun _ hl => Option.some.inj hl ▸ hrests
        · exact absurd hnil (hpatched hpatch)
    · obtain ⟨d, hd, rfl⟩ := Option.mem_map.mp ht
      exact Nat.add_le_add_left (hdelay d hd) _
  | crash hs =>
    cases hs with
    | crash hi =>
      exact awake_idle rfl (fun hdue => absurd hdue (Option.some_ne_none _))
        (due_now _)
  | restart hi =>
    exact awake_idle hi (fun hdue => absurd hdue (Option.some_ne_none _)) (due_now _)
  | tick hlate =>
    refine ⟨hq.idle, hq.seen, hq.rest, fun t ht => ?_⟩
    have hbound := hq.due t ht
    change t ≤ q.now + 1 + delay
    omega

/-- So does a start. -/
theorem awake_of_starts (htimed : m.Timed policy awaitChange delay)
    (hrun : Documented m.name awaitChange run) (hstart : m.Starts run q q') :
    m.Awake policy delay q' := by
  have hnone : ∀ t ∈ (none : Option ℕ), t ≤ q.now + delay := fun _ ht => nomatch ht
  cases hstart with
  | start ht hnow hs =>
    cases hs with
    | start hi hs =>
      obtain ⟨hl, hcached, rfl⟩ := hs
      exact awake_running rfl (fun _ => .inr ⟨hcached, False.elim⟩)
        (meets_waits htimed hrun hl) hnone
  | absent hi ht hnow hc => exact awake_idle hi (fun _ => resting_of_gone hc) hnone

theorem Awake.runs (htimed : m.Timed policy awaitChange delay)
    (hrun : Documented m.name awaitChange run) (hq : m.Awake policy delay q)
    (hruns : m.Runs others run policy q q') : m.Awake policy delay q' := by
  induction hruns with
  | refl => exact hq
  | tail _ hstep ih => exact hstep.elim ih.passes (awake_of_starts htimed hrun)

/-- **Nothing is forgotten.** In every run from a start of the controller, whatever fails, whatever
others do and however late the watch is: if no reconciliation is running and no event is under way,
one of the object is due within `delay`, unless there is nothing to do. -/
theorem never_forgotten (htimed : m.Timed policy awaitChange delay)
    (hrun : Documented m.name awaitChange run) {now : ℕ}
    (hruns : m.Runs others run policy (.initial s now) q) (hidle : q.config.running () = none)
    (hseen : q.config.store.behind = []) (hwork : ¬ Resting m.name q.config.store.stored) :
    ∃ t ≤ q.now + delay, q.due = some t := by
  have hinit : m.Awake policy delay
      (.initial s now : Queued (O × Life) (LifeReply R R' F) (Except (FinalizerError E F) A) S) :=
    awake_idle rfl (fun hdue => absurd hdue (Option.some_ne_none _)) (due_now _)
  have hawake := hinit.runs htimed hrun hruns
  cases hdue : q.due with
  | none => exact absurd (hawake.idle hidle hdue hseen) hwork
  | some t => exact ⟨t, hawake.due t hdue, rfl⟩

/-- **What is due is started**: until then, time does not pass it. -/
theorem now_le {t : ℕ} (hidle : q.config.running () = none) (hdue : q.due = some t)
    (hpasses : ReflTransGen (m.Passes others run policy) q q') : q'.now ≤ max q.now t := by
  have hkept : q'.config.running () = none ∧
      ∃ t', q'.due = some t' ∧ max q'.now t' ≤ max q.now t := by
    induction hpasses with
    | refl => exact ⟨hidle, t, hdue, Nat.le_refl _⟩
    | @tail q' q'' _ hpass ih =>
      obtain ⟨hi, t', ht', hle⟩ := ih
      have hnow : max q'.now q'.now ≤ max q.now t := by omega
      cases hpass with
      | world hw => exact ⟨hi, t', ht', hle⟩
      | object hv => exact ⟨hi, t', ht', hle⟩
      | watch hb =>
        dsimp only
        split
        · rw [ht']
          exact ⟨hi, min t' q'.now, rfl, by omega⟩
        · exact ⟨hi, t', ht', hle⟩
      | call hs =>
        cases hs with
        | call hi' => cases hi.symm.trans hi'
      | finish hi' => cases hi.symm.trans hi'
      | crash hs =>
        cases hs with
        | crash hi' => cases hi.symm.trans hi'
      | restart hi' => exact ⟨hi, q'.now, rfl, hnow⟩
      | tick hlate =>
        have hlt := hlate hi t' ht'
        refine ⟨hi, t', ht', ?_⟩
        dsimp only
        omega
  obtain ⟨-, t', -, hle⟩ := hkept
  omega

/-- **A run with the queue is a run**, if other clients leave the finalizer alone, so what holds in
all runs holds with it. -/
theorem reachable_of_queue {now : ℕ} (hothers : ∀ {v w}, others v w → LifeEnv m.name v w)
    (hruns : m.Runs others run policy (.initial s now) q) :
    (m.system run).Reachable (· = s) System.anyMove q.config := by
  induction hruns with
  | refl => exact .init rfl
  | tail _ hstep ih =>
    rcases hstep with hpass | hstart
    · cases hpass with
      | world hw => exact ih.step trivial (.env (.world hw))
      | object hv => exact ih.step trivial (.env (.object (hothers hv)))
      | watch hb => exact ih.step trivial (.env .watch)
      | call hs => exact ih.step trivial hs
      | finish hi => exact ih.step trivial (.finish hi)
      | crash hs => exact ih.step trivial hs
      | restart hi => exact ih
      | tick hlate => exact ih
    · cases hstart with
      | start ht hnow hs => exact ih.step trivial hs
      | absent hi ht hnow hc => exact ih

variable (others run policy) in
/-- A reconciliation that runs is played to its end. -/
theorem runs_play_running {server : (c : LifeCall C D) → Tracked S → LifeReply R R' F c × Tracked S}
    (hserve : ∀ c s,
      LifeServes m.serveApply m.serveCleanup c s (server c s).1 (server c s).2)
    {p : Program (LifeReply R R' F) (Except (FinalizerError E F) A)}
    (hi : q.config.running () = some ⟨l, h, p⟩) :
    ∃ cfg, m.Runs others run policy q
        ⟨cfg, q.now, q.due.merge min ((policy (p.eval server q.config.store).1).map (q.now + ·))⟩ ∧
      cfg.running () = none ∧ cfg.store = (p.eval server q.config.store).2 := by
  induction p generalizing q h with
  | ret r => exact ⟨_, .single (.inl (.finish hi)), rfl, rfl⟩
  | call c k ih =>
    let r := (server c q.config.store).1
    obtain ⟨cfg, hruns, hidle, hstore⟩ := ih r
      (q := { q with
        config := ⟨(server c q.config.store).2,
          Function.update q.config.running () (some ⟨l, ⟨c, r⟩ :: h, k r⟩),
          (l, ⟨c, r⟩ :: h) :: q.config.record⟩ }) rfl
    exact ⟨cfg, .head (.inl (.call (.call hi (hserve c q.config.store)))) hruns, hidle, hstore⟩

variable (others run policy) in
/-- An object that is due is reconciled, against a server that is a function. -/
theorem runs_play {server : (c : LifeCall C D) → Tracked S → LifeReply R R' F c × Tracked S}
    (hserve : ∀ c s,
      LifeServes m.serveApply m.serveCleanup c s (server c s).1 (server c s).2)
    (hi : q.config.running () = none) {t : ℕ} (hdue : q.due = some t) (hnow : t ≤ q.now)
    (hl : m.object l.1) (hcached : q.config.store.cached = some l.2) :
    ∃ cfg, m.Runs others run policy q
        ⟨cfg, q.now, (policy ((run l.2 (m.apply l.1) (m.cleanup l.1)).eval
          server q.config.store).1).map (q.now + ·)⟩ ∧
      cfg.running () = none ∧ cfg.store = ((run l.2 (m.apply l.1) (m.cleanup l.1)).eval
          server q.config.store).2 := by
  obtain ⟨cfg, hruns, hidle, hstore⟩ := runs_play_running others run policy hserve
    (q := { q with
      config := { q.config with
        running := Function.update q.config.running ()
          (some ⟨l, [], run l.2 (m.apply l.1) (m.cleanup l.1)⟩)
        record := (l, []) :: q.config.record }
      due := none }) rfl
  rw [Option.merge_none_left] at hruns
  exact ⟨cfg, .head (.inr (.start hdue hnow (.start hi ⟨hl, hcached, rfl⟩))) hruns, hidle, hstore⟩

end Awake

end Managed

end Interaction
