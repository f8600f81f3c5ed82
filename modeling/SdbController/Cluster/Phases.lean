import SdbController.Cluster.Authentication

/-!
# The stored phase and what it promises

Two questions about the phase that `set_phase` stores. Does `InCreation` promise that the open
workload is in place, which its branch relies on and never repairs? And does the phase only move
forward when several processes write it?

Both fail, and both fail in a small way that can be said exactly. `InCreation` is stored before the
workload is applied, so an interruption between the two strands the Cluster. A status write carries
no resource version, so a process that read the Cluster early can put the phase back later.

## Main results

* `inCreation_agrees` — without such interruptions the workload agrees with `InCreation`
* `phase_moves_back_by_stale_write` — the only writes that put the phase back
-/

namespace SdbController

open Interaction

/-! ### `InCreation` and the open workload -/

/-- The Deployment applied last was built in creation mode, and a Service was applied. -/
def OpenWorkload (k : ObjectKey) (audit : List Call) : Prop :=
  (∃ d ds, applied k audit = d :: ds ∧ d.BuiltIn true) ∧ Served k audit

/-- The stored phase is `InCreation` only with the open workload in place. -/
def Agrees (k : ObjectKey) (s : Store) : Prop :=
  s.phase k = some .inCreation → OpenWorkload k s.audit

/-- A write of the open Deployment and one of the Service have taken effect, in whatever order and
whatever was written since. -/
def BothWritten (k : ObjectKey) (audit : List Call) : Prop :=
  (∃ d ∈ applied k audit, d.BuiltIn true) ∧ Served k audit

/-- Once `InCreation` is stored, no crash and no failed write stops an invocation that enters it
before both writes of the open workload have taken effect; and no write of the authenticated
Deployment takes effect while `InCreation` is still stored. -/
def Uninterrupted (k : ObjectKey) (c : Run Unit) : RunMove Unit → Prop
  | .crash _ l h => l.phase.Early → .inCreation ∈ h.filterMap Cluster.written →
      c.store.phase k = some .inCreation → BothWritten k c.store.audit
  | .call _ l _ q r s' =>
      (l.phase.Early → l.Stops ⟨q, r⟩ → s'.phase k = some .inCreation → BothWritten k s'.audit) ∧
      (q = l.deployCall false → s'.audit = q :: c.store.audit → c.store.phase k ≠ some .inCreation)
  | _ => True

section Step

variable {srv : Server} {k : ObjectKey} {l : Cluster} {h : History Reply} {q : Call} {r : Reply q}
  {s s' : Store}

/-- While nothing but open Deployments was applied, the last one was. -/
theorem BothWritten.openWorkload (hb : BothWritten k s.audit) (hS : Secured k s)
    (hopen : Open k s.audit) : OpenWorkload k s.audit := by
  obtain ⟨⟨d, hd, -⟩, hserved⟩ := hb
  obtain ⟨d', ds, happ⟩ := List.exists_cons_of_ne_nil (List.ne_nil_of_mem hd)
  have hmem : d' ∈ applied k s.audit := by
    rw [happ]
    exact List.mem_cons_self
  obtain ⟨m, hm⟩ := hS.modes d' hmem
  cases m with
  | true => exact ⟨⟨d', ds, happ, hm⟩, hserved⟩
  | false => exact absurd (hm.authenticated_iff.mpr rfl) (hopen d' hmem)

/-- A call that applies no Deployment keeps the open workload. -/
theorem OpenWorkload.serves (ho : OpenWorkload k s.audit) (hs : Serves srv q s r s')
    (happ : applied k s'.audit = applied k s.audit) : OpenWorkload k s'.audit := by
  obtain ⟨hopen, hserved⟩ := ho
  rw [OpenWorkload, happ]
  exact ⟨hopen, hserved.serves hs⟩

/-- So does one that applies the open Deployment again. -/
theorem OpenWorkload.serves_open (ho : OpenWorkload k s.audit) (hs : Serves srv q s r s')
    (hk : l.key = k) (hq : l.Conduct h q) (hl : l.phase.Early) : OpenWorkload k s'.audit := by
  rcases hs.applied_cases hk hq with happ | ⟨m, rfl, hm, -, happ⟩
  · exact ho.serves hs happ
  · rw [hm.early_iff.mp hl] at happ
    exact ⟨⟨_, _, happ, l, rfl⟩, ho.2.serves hs⟩

/-- What an invocation on its way into `InCreation` knows. -/
structure Entering (k : ObjectKey) (l : Cluster) (h : History Reply) (s : Store) : Prop where
  pending : s.phase k = some .inCreation →
    OpenWorkload k s.audit ∨ .inCreation ∈ h.filterMap Cluster.written
  deployed : l.deployed true ∈ h → ∃ d ds, applied k s.audit = d :: ds ∧ d.BuiltIn true
  served : l.served ∈ h → Served k s.audit
  stopped : ∀ {x h'}, h = x :: h' → l.Stops x → Agrees k s

theorem Agrees.congr (hA : Agrees k s) (hp : s'.phase k = s.phase k) (ha : s'.audit = s.audit) :
    Agrees k s' := by
  rw [Agrees, hp, ha]
  exact hA

theorem Entering.congr (hT : Entering k l h s) (hp : s'.phase k = s.phase k)
    (ha : s'.audit = s.audit) : Entering k l h s' := by
  obtain ⟨pending, deployed, served, stopped⟩ := hT
  refine ⟨?_, ?_, ?_, fun heq hx => (stopped heq hx).congr hp ha⟩
  · rw [hp, ha]
    exact pending
  · rw [ha]
    exact deployed
  · rw [ha]
    exact served

theorem Entering.start (hA : Agrees k s) : Entering k l [] s := by
  refine ⟨fun hp => .inl (hA hp), fun hmem => ?_, fun hmem => ?_, fun heq => ?_⟩
  · exact absurd hmem List.not_mem_nil
  · exact absurd hmem List.not_mem_nil
  · cases heq

/-- An invocation that enters `InCreation` and returns has applied both parts or was stopped. -/
theorem Entering.finish (hT : Entering k l h s) (hl : l.phase.Early) (hends : l.Ends h) :
    Agrees k s := by
  intro hp
  rcases hT.pending hp with ho | hmem
  · exact ho
  · rcases hends hl hmem with ⟨h', rfl⟩ | ⟨x, h', heq, hx⟩
    · exact ⟨hT.deployed (by simp), hT.served (by simp)⟩
    · exact hT.stopped heq hx hp

theorem Entering.call (hT : Entering k l h s) (hsome : (s.phase k).isSome) (hk : l.key = k)
    (hq : l.Conduct h q) (hl : l.phase.Early) (hs : Serves srv q s r s')
    (hstop : l.Stops ⟨q, r⟩ → Agrees k s') : Entering k l (⟨q, r⟩ :: h) s' := by
  refine ⟨fun hp => ?_, fun hmem => ?_, fun hmem => ?_, fun heq hx => ?_⟩
  · rcases hs.phase_cases hsome hq with hsame | ⟨p, rfl, hw, hp'⟩
    · rw [hsame] at hp
      rcases hT.pending hp with ho | hmem
      · exact .inl (ho.serves_open hs hk hq hl)
      · refine .inr ?_
        rw [List.filterMap_cons]
        split
        · exact hmem
        · exact List.mem_cons_of_mem _ hmem
    · cases hp'.symm.trans hp
      exact .inr List.mem_cons_self
  · have hopen : l.deployed true ∈ h →
        ∃ d ds, applied k s'.audit = d :: ds ∧ d.BuiltIn true := fun hmem => by
      rcases hs.applied_cases hk hq with happ | ⟨m, rfl, hm, -, happ⟩
      · rw [happ]
        exact hT.deployed hmem
      · rw [hm.early_iff.mp hl] at happ
        exact ⟨_, _, happ, l, rfl⟩
    rcases List.mem_cons.mp hmem with heq | hmem
    · exact ⟨_, _, hs.deployed hk heq.symm, l, rfl⟩
    · exact hopen hmem
  · rcases List.mem_cons.mp hmem with heq | hmem
    · exact hs.served hk heq.symm
    · exact (hT.served hmem).serves hs
  · cases heq
    exact hstop hx

/-- An invocation past the early phases keeps the agreement as long as it does not apply the
authenticated Deployment over a stored `InCreation`. -/
theorem Agrees.call (hA : Agrees k s) (hsome : (s.phase k).isSome) (hk : l.key = k)
    (hq : l.Conduct h q) (hl : ¬ l.phase.Early) (hs : Serves srv q s r s')
    (hclose : q = l.deployCall false → s'.audit = q :: s.audit → s.phase k ≠ some .inCreation) :
    Agrees k s' := by
  intro hp
  rcases hs.phase_cases hsome hq with hsame | ⟨p, rfl, hw, hp'⟩
  · rw [hsame] at hp
    rcases hs.applied_cases hk hq with happ | ⟨m, rfl, hm, ha, -⟩
    · exact (hA hp).serves hs happ
    · cases m with
      | true => exact absurd (hm.early_iff.mpr rfl) hl
      | false => exact absurd hp (hclose rfl ha)
  · cases hp'.symm.trans hp
    unfold Cluster.Writes at hw
    exfalso
    cases hc : l.phase <;> rw [hc] at hw hl
    case new => exact hl (.inl rfl)
    case preparing => exact hl (.inr rfl)
    all_goals exact hw

end Step

/-- Uninterrupted sequential runs keep the agreement between invocations. -/
theorem agrees_invariance (srv : Server) (k : ObjectKey) :
    Invariance (ι := Unit) srv k (Uninterrupted k) (fun s _ => Secured k s)
      (fun l h s => Securing k l h s ∧ (l.phase.Early → Entering k l h s) ∧
        (¬ l.phase.Early → Agrees k s))
      (Agrees k) where
  init hs := by
    refine ⟨hs.secured, fun hp => ?_⟩
    obtain ⟨c, hc, -, hnew⟩ := hs.stored
    rw [Store.phase, hc, Option.map_some, hnew] at hp
    cases hp
  env hp _ he hS := by
    refine ⟨hS.congr hp he.audit, fun _ hT => ?_, fun hA => hA.congr hp he.audit⟩
    exact ⟨hT.1.congr hp he.audit, fun hl => (hT.2.1 hl).congr hp he.audit,
      fun hl => (hT.2.2 hl).congr hp he.audit⟩
  start _ hl hS hJ := ⟨hS, hS.start hl, fun _ => .start hJ, fun _ => hJ⟩
  call hsome hk _ hq hm hs hS hT := by
    obtain ⟨hsecuring, hearly, hlate⟩ := hT
    have hS' := hS.call hsecuring hsome hk hq hs
    have hsecuring' := hsecuring.call hsome hk hq hs
    refine ⟨hS', hsecuring', fun hl => (hearly hl).call hsome hk hq hl hs fun hstop hp => ?_,
      fun hl => (hlate hl).call hsome hk hq hl hs hm.2⟩
    exact (hm.1 hl hstop hp).openWorkload hS' (hsecuring'.early hl)
  frame _ _ _ _ _ hij := absurd (Subsingleton.elim _ _) hij
  finish {l h s} hends hT := by
    by_cases hl : l.phase.Early
    · exact (hT.2.1 hl).finish hl hends
    · exact hT.2.2 hl
  crash {c i l h} hm hS hT := by
    by_cases hl : l.phase.Early
    · intro hp
      rcases (hT.2.1 hl).pending hp with ho | hmem
      · exact ho
      · exact (hm hl hmem hp).openWorkload hS (hT.1.early hl)
    · exact hT.2.2 hl

/-- **`InCreation` agrees with the workload.** In uninterrupted sequential runs an invocation that
starts with `InCreation` stored finds both the Deployment and the Service applied, and the
Deployment applied last is the open one. -/
theorem inCreation_agrees (srv : Server) (k : ObjectKey) {c : Run Unit}
    (hc : (clusterSystem srv k).Reachable (Fresh k) (Uninterrupted k) c)
    (hidle : c.running () = none) (hp : c.store.phase k = some .inCreation) :
    (∃ d ds, applied k c.store.audit = d :: ds ∧ d.BuiltIn true) ∧ Served k c.store.audit :=
  ((agrees_invariance srv k).sound hc).idle hidle hp

/-- A clean first invocation is uninterrupted. -/
theorem uninterrupted_of_new {k : ObjectKey} {x : Cluster} (hx : x.phase = .new) (hk : x.key = k)
    {c : Run Unit} {m : RunMove Unit}
    (hm : System.Played (respond ⟨false⟩ fun _ => false) () x x.reconcile.run c m) :
    Uninterrupted k c m := by
  cases hm with
  | start | finish => trivial
  | @call h q f hp =>
    refine ⟨fun _ hstop => ?_, fun hq => ?_⟩
    · obtain ⟨e, heq | heq | ⟨-, heq⟩⟩ := hstop
      · obtain ⟨rfl, hr⟩ := Sigma.mk.inj heq
        cases eq_of_heq hr
      · obtain ⟨rfl, hr⟩ := Sigma.mk.inj heq
        cases eq_of_heq hr
      · -- the status write fails only when there is no Cluster, and then there is no phase
        obtain ⟨rfl, hr⟩ := Sigma.mk.inj heq
        intro hphase
        cases hc : c.store.clusters x.key with
        | none =>
          simp only [respond, respondWith, answer, hc, Option.map_none, patched] at hphase
          rw [Store.phase, ← hk, hc] at hphase
          cases hphase
        | some y =>
          simp only [respond, respondWith, answer, hc, Option.map_some, patched] at hr
          cases eq_of_heq hr
    · subst hq
      obtain ⟨m, hm, hd⟩ := (x.reconcile_meets.of_after hp).1
      have hauth := (x.authenticated_build x.name false).mpr rfl
      rw [hm, x.authenticated_build x.name m, hd.early_iff.mp (.inl hx)] at hauth
      cases hauth

/-- The agreement after a clean first invocation on the sample Cluster. -/
theorem inCreation_agrees_sample : ∃ c : Run Unit,
    c.store = invoke ⟨false⟩ sampleCluster.key (fun _ => false) sampleStore ∧
      (∃ d ds, applied sampleCluster.key c.store.audit = d :: ds ∧ d.BuiltIn true) ∧
      Served sampleCluster.key c.store.audit := by
  have h₀ : Settles ⟨false⟩ sampleCluster.key (Uninterrupted sampleCluster.key) sampleStore :=
    .fresh fresh_sampleStore
  obtain ⟨c, hc, hidle, hs⟩ := h₀.invoke (fun _ => false)
    (fun hx c m => uninterrupted_of_new (phase_of_stored hx rfl) (by cases hx; rfl)) (by decide)
  exact ⟨c, hs, inCreation_agrees ⟨false⟩ _ hc hidle (by rw [hs]; decide)⟩

/-- Any Deployment write. -/
def appliesDeployment : Call → Bool
  | .api (.applyDeployment _) => true
  | _ => false

/-- After a first invocation whose Deployment write is lost, the next one starts with `InCreation`
stored, and nothing has been applied. -/
theorem inCreation_stranded : ∃ c : Run Unit,
    (clusterSystem ⟨false⟩ sampleCluster.key).Reachable (Fresh sampleCluster.key) System.anyMove c ∧
      c.running () = none ∧ c.store.phase sampleCluster.key = some .inCreation ∧
      ¬ ((∃ d ds, applied sampleCluster.key c.store.audit = d :: ds ∧ d.BuiltIn true) ∧
        Served sampleCluster.key c.store.audit) := by
  have h₀ : Settles ⟨false⟩ sampleCluster.key System.anyMove sampleStore := .fresh fresh_sampleStore
  obtain ⟨c, hc, hidle, hs⟩ := h₀.invoke appliesDeployment (fun _ _ _ _ => trivial) (by decide)
  refine ⟨c, hc, hidle, ?_, ?_⟩
  · rw [hs]
    decide
  · rw [hs]
    rintro ⟨⟨d, ds, happ, -⟩, -⟩
    cases happ

/-! ### Moving back -/

/-- While an invocation started in an early phase is the only one, no late phase is stored. -/
theorem early_invariance {ι : Type} [Subsingleton ι] (srv : Server) (k : ObjectKey) :
    Invariance (ι := ι) srv k System.anyMove (fun _ _ => True)
      (fun l _ s => l.phase.Early → ∀ {p}, s.phase k = some p → ¬ p.Late) fun _ => True where
  init _ := ⟨trivial, trivial⟩
  env hp _ _ _ := by
    refine ⟨trivial, fun _ hT => ?_, fun _ => trivial⟩
    rw [hp]
    exact hT
  start _ hl _ _ := by
    refine ⟨trivial, fun he p hp => ?_⟩
    rw [← phase_of_stored hl hp]
    rcases he with he | he <;> rw [he] <;> decide
  call hsome _ _ hq _ hs _ hT := by
    refine ⟨trivial, fun he p hp => ?_⟩
    rcases hs.phase_cases hsome hq with hsame | ⟨p', rfl, hw, hp'⟩
    · exact hT he (hsame ▸ hp)
    · cases hp'.symm.trans hp
      intro hlate
      rcases hw.of_late hlate with ⟨rfl, -⟩ | ⟨hl, -⟩
      · unfold Cluster.Writes at hw
        rcases he with he | he <;> rw [he] at hw <;> exact hw
      · rcases he with he | he <;> rw [he] at hl <;> exact absurd hl (by decide)
  frame _ _ _ _ _ hij := absurd (Subsingleton.elim _ _) hij
  finish _ _ := trivial
  crash _ _ _ := trivial

/-- `Preparing` and `InCreation` are written in an early phase only. -/
theorem Cluster.Writes.of_back {c : Cluster} {h : History Reply} {p : Phase} (hw : c.Writes h p)
    (hp : p = .preparing ∨ p = .inCreation) :
    c.phase = .new ∨ (c.phase = .preparing ∧ p = .inCreation) := by
  unfold Writes at hw
  rcases hp with rfl | rfl <;> cases hc : c.phase <;> rw [hc] at hw
  case inr.preparing => exact .inr ⟨rfl, rfl⟩
  case inl.new | inr.new => exact .inl rfl
  all_goals exact hw.elim

/-- **The only writes that move the phase back.** With any number of processes, a move from a late
phase to `Preparing` or `InCreation` is the status write of an invocation that read the Cluster in
an early phase, so in one it is no longer in, while another process was at work. -/
theorem phase_moves_back_by_stale_write {ι : Type} [DecidableEq ι] (srv : Server) (k : ObjectKey)
    {c c' : Run ι} {m : RunMove ι} {p p' : Phase}
    (hc : (clusterSystem srv k).Reachable (Fresh k) System.anyMove c)
    (hstep : (clusterSystem srv k).Step c m c')
    (hp : c.store.phase k = some p) (hlate : p = .inProgress ∨ p = .ready ∨ p = .notReady)
    (hp' : c'.store.phase k = some p') (hback : p' = .preparing ∨ p' = .inCreation) :
    ∃ i l h r, m = .call i l h (l.phaseWrite p') r c'.store ∧
      (l.phase = .new ∨ (l.phase = .preparing ∧ p' = .inCreation)) ∧ l.phase ≠ p ∧
      ∃ j, j ≠ i := by
  have hsound := (trivial_invariance srv k).sound hc
  -- a move that keeps the phase does not move it back
  have hmoved : c'.store.phase k ≠ c.store.phase k := by
    intro hsame
    rw [hp, hp'] at hsame
    cases hsame
    rcases hback with rfl | rfl <;> exact absurd hlate (by decide)
  cases hstep with
  | start | finish | crash => exact absurd rfl hmoved
  | env he => exact absurd (he.phase (by rw [hp]; rfl)) hmoved
  | @call i l h q f r s' hi hs =>
    rcases hs.phase_cases (by rw [hp]; rfl) (hsound.rest hi).1 with hsame | ⟨p'', rfl, hw, hp''⟩
    · exact absurd hsame hmoved
    · cases hp''.symm.trans hp'
      have hl := hw.of_back hback
      have hearly : l.phase.Early := hl.imp id And.left
      refine ⟨i, l, h, r, rfl, hl, fun heq => ?_, ?_⟩
      · rw [← heq] at hlate
        rcases hearly with he | he <;> rw [he] at hlate <;> exact absurd hlate (by decide)
      · by_contra hnone
        have hall : ∀ j, j = i := fun j => not_not.mp fun hj => hnone ⟨j, hj⟩
        have : Subsingleton ι := ⟨fun a b => (hall a).trans (hall b).symm⟩
        exact (((early_invariance srv k).sound hc).task hi).2 hearly hp hlate

/-- Two processes read the sample Cluster in `New`. One is slow; the other takes the Cluster to
`InProgress`; then the slow one writes `InCreation`. -/
theorem exists_overtaken : ∃ (c : Run Bool) (m : RunMove Bool) (c' : Run Bool),
    (clusterSystem ⟨false⟩ sampleCluster.key).Reachable (Fresh sampleCluster.key) System.anyMove c ∧
      (clusterSystem ⟨false⟩ sampleCluster.key).Step c m c' ∧
      c.store.phase sampleCluster.key = some .inProgress ∧
      c'.store.phase sampleCluster.key = some .inCreation := by
  let clean : Call → Bool := fun _ => false
  have h₀ : (clusterSystem ⟨false⟩ sampleCluster.key).Reachable (Fresh sampleCluster.key)
      System.anyMove (⟨sampleStore, fun _ => none, []⟩ : Run Bool) := .init fresh_sampleStore
  have h₁ := h₀.step trivial (.start (i := true) (l := sampleCluster) rfl ⟨rfl, rfl⟩)
  obtain ⟨c₂, h₂, hs₂, hr₂⟩ := reachable_invoke (i := false) clean (fun _ _ _ _ => trivial) h₁ rfl
    (by decide)
  have h₃ := h₂.step trivial (.env (clusterEnv_rollOut sampleCluster.key _))
  obtain ⟨c₄, h₄, hs₄, hr₄⟩ := reachable_invoke (i := false) clean (fun _ _ _ _ => trivial) h₃
    (congrFun hr₂ false) (by dsimp only; rw [hs₂]; decide)
  have hrun : c₄.running true = some ⟨sampleCluster, [], sampleCluster.reconcile.run⟩ :=
    (congrFun hr₄ true).trans (congrFun hr₂ true)
  have hs : c₄.store = invoke ⟨false⟩ sampleCluster.key clean
      (rollOut sampleCluster.key (invoke ⟨false⟩ sampleCluster.key clean sampleStore)) := by
    rw [hs₄]
    dsimp only
    rw [hs₂]
  have hserve := serves_respond ⟨false⟩ clean (sampleCluster.phaseWrite .inCreation) c₄.store
  refine ⟨c₄, _, _, h₄, .call hrun hserve, ?_, ?_⟩
  · rw [hs]
    decide
  · dsimp only
    rw [hs]
    decide

/-- The stored phase can move back. -/
theorem phase_moves_back : ∃ (c : Run Bool) (m : RunMove Bool) (c' : Run Bool),
    (clusterSystem ⟨false⟩ sampleCluster.key).Reachable (Fresh sampleCluster.key) System.anyMove c ∧
      (clusterSystem ⟨false⟩ sampleCluster.key).Step c m c' ∧
      (∃ p, c.store.phase sampleCluster.key = some p ∧
        (p = .inProgress ∨ p = .ready ∨ p = .notReady)) ∧
      ∃ p, c'.store.phase sampleCluster.key = some p ∧ (p = .preparing ∨ p = .inCreation) := by
  obtain ⟨c, m, c', hc, hstep, hp, hp'⟩ := exists_overtaken
  exact ⟨c, m, c', hc, hstep, ⟨_, hp, .inl rfl⟩, _, hp', .inr rfl⟩

/-- The write that moved it back was stale. -/
theorem phase_moves_back_by_stale_write_overtaken : ∃ (c' : Run Bool) (m : RunMove Bool),
    c'.store.phase sampleCluster.key = some .inCreation ∧ ∃ i l h r,
      m = .call i l h (l.phaseWrite .inCreation) r c'.store ∧
      (l.phase = .new ∨ (l.phase = .preparing ∧ Phase.inCreation = .inCreation)) ∧
      l.phase ≠ .inProgress ∧ ∃ j, j ≠ i := by
  obtain ⟨c, m, c', hc, hstep, hp, hp'⟩ := exists_overtaken
  exact ⟨c', m, hp', phase_moves_back_by_stale_write _ _ hc hstep hp (.inl rfl) hp' (.inr rfl)⟩

end SdbController
