import SdbController.Cluster.Availability
import SdbController.Cluster.Phases
import SdbController.Cluster.Progress
import SdbController.Interaction.Rounds

/-!
# Which Clusters become Ready

From then on all goes well: `Calm` is the environment of a complete spec, with a root Secret that
can be read and TidbClusters that report Ready, `Bootstraps` the server, and in fair rounds every
applied Deployment has been rolled out. Most phases then lead to `Ready` in a few rounds. Three
places do not: no branch leaves `Error`; `InCreation` waits for an open workload that only the
branches before it apply; and `Preparing` waits for a TidbCluster even when the spec no longer asks
for one.

## Main results

* `cluster_recovers_iff` — the stores from which a Cluster recovers, and the runs that lead to no
  other store
* `cluster_stuck` — a Cluster reconciled before its backend was added never becomes Ready
-/

namespace SdbController

open Interaction Program

/-! ### From then on -/

/-- The Service exists and the running replicas are open. -/
def Bootable (k : ObjectKey) (s : Store) : Prop :=
  (s.services k.workload).isSome ∧ s.pods k ≠ [] ∧ ∀ t ∈ s.pods k, t.Unauthenticated

/-- A bootstrap request is accepted whenever the Service exists and the running replicas are open.
Otherwise it may be turned down. -/
def Bootstraps (k : ObjectKey) (q : HttpRequest) (s : Store) (r : HttpOutcome) (s' : Store) :
    Prop :=
  (Bootable k s → r.IsSuccess) ∧ (s' = s.log (.http q) ∨ (¬ r.IsSuccess ∧ s' = s))

/-- The environment moves and leaves the Cluster with the given spec and all it refers to. -/
structure Calm (k : ObjectKey) (spec : Spec) (s s' : Store) : Prop where
  env : ClusterEnv k s s'
  edited : ∀ {x}, s'.clusters k = some x → x.spec = spec
  rootSecret : ∀ {name}, spec.rootSecret.bind SecretReference.name = some name →
    ∃ sec cred, s'.secrets ⟨k.ns, name⟩ = some sec ∧ sec.credentials = some cred
  tidbKept : (s.tidbClusters k).isSome → (s'.tidbClusters k).isSome
  tidbReady : ∀ {tc}, s'.tidbClusters k = some tc → tc.isReady

/-- The stored Deployment has been rolled out: all its replicas are available. -/
def RolledOut (k : ObjectKey) (s : Store) : Prop :=
  ∀ live, s.deployments k.workload = some live →
    live.pods = List.replicate live.object.replicas live.object.template

/-- One invocation with every request answered. -/
def ClusterInvoked (srv : Server) (k : ObjectKey) (s s' : Store) : Prop :=
  ∃ c x, s.clusters k = some c ∧ Completes (Answers srv (Bootstraps k)) c.reconcile.run s x s'

/-- From then on all goes well, with `specs n` the spec in round `n`, and some number of invocations
later `Ready` is stored. -/
def ClusterRecovers (srv : Server) (k : ObjectKey) (specs : ℕ → Spec) : Store → Prop :=
  Recovers (fun n => Calm k (specs n)) (ClusterInvoked srv k) (RolledOut k)
    fun s => s.phase k = some .ready

/-! ### What a calm environment keeps -/

section Calm

variable {k : ObjectKey} {spec : Spec} {s t : Store} {p : Phase}

theorem Stands.env (hs : Stands k p s) (he : ClusterEnv k s t) : Stands k p t := by
  obtain ⟨x, hx, hk, hp⟩ := hs
  obtain ⟨spec, hspec⟩ := he.cluster hx
  exact ⟨_, hspec, hk, hp⟩

theorem stocked_congr (he : ClusterEnv k s t) : Stocked k t ↔ Stocked k s := by
  rw [Stocked, Stocked, he.deployment]

theorem opened_congr (he : ClusterEnv k s t) : Opened k t ↔ Opened k s := by
  rw [Opened, Opened, he.deployment, he.service]

/-- The pods after a rollout. -/
theorem RolledOut.pods (hf : RolledOut k s) {d : Deployment} (hd : s.deployment k = some d) :
    s.pods k = List.replicate d.replicas d.template := by
  obtain ⟨live, hlive, rfl⟩ := Option.map_eq_some_iff.mp hd
  rw [Store.pods, hlive, Option.map_some, Option.getD_some]
  exact hf live hlive

/-- A Deployment with replicas that has been rolled out has pods. -/
theorem Stocked.pods_ne_nil (hs : Stocked k s) (hf : RolledOut k s) : s.pods k ≠ [] := by
  obtain ⟨d, hd, hr⟩ := hs
  rw [hf.pods hd]
  exact fun hnil => hr ((List.replicate_eq_nil_iff _).mp hnil)

/-- After a rollout the bootstrap has to be accepted if and only if the open workload is stored. -/
theorem bootable_iff_opened (hf : RolledOut k s) : Bootable k s ↔ Opened k s := by
  refine and_congr_right fun _ => ?_
  cases hd : s.deployment k with
  | none =>
    have hpods : s.pods k = [] := by
      rw [Store.pods, Option.map_eq_none_iff.mp hd]
      rfl
    simp [hpods]
  | some d =>
    rw [hf.pods hd]
    constructor
    · rintro ⟨hpods, hopen⟩
      have hr : d.replicas ≠ 0 := fun h0 => hpods (by rw [h0]; rfl)
      exact ⟨d, rfl, hopen _ (List.mem_replicate.mpr ⟨hr, rfl⟩), hr⟩
    · rintro ⟨d', hd', hopen, hr⟩
      obtain rfl : d = d' := Option.some.inj hd'
      refine ⟨fun hnil => hr ((List.replicate_eq_nil_iff _).mp hnil), fun t ht => ?_⟩
      rw [(List.mem_replicate.mp ht).2]
      exact hopen

end Calm

/-! ### From stage to stage -/

section Stages

variable {srv : Server} {k : ObjectKey} {specs : ℕ → Spec} {σ τ : ℕ → Store} {n : ℕ} {p : Phase}

/-- The invocation of a round, with what the environment has left it. -/
theorem Stands.invoked (hrounds : Rounds (fun n => Calm k (specs n)) (ClusterInvoked srv k) σ τ)
    (hs : Stands k p (σ n)) : ∃ c x, (τ n).clusters k = some c ∧ c.key = k ∧ c.phase = p ∧
      c.spec = specs n ∧
      Completes (Answers srv (Bootstraps k)) c.reconcile.run (τ n) x (σ (n + 1)) := by
  obtain ⟨y, hy, hk, hp⟩ := hs
  obtain ⟨spec, hspec⟩ := (hrounds.env n).env.cluster hy
  obtain ⟨c, x, hc, hrun⟩ := hrounds.play n
  obtain rfl : c = { y with spec := spec } := Option.some.inj (hc.symm.trans hspec)
  exact ⟨_, x, hc, hk, hp, (hrounds.env n).edited hc, hrun⟩

variable (hrounds : Rounds (fun n => Calm k (specs n)) (ClusterInvoked srv k) σ τ)
  (hspecs : ∀ n, (specs n).Complete) (hfair : ∀ n, ∃ m, n ≤ m ∧ RolledOut k (τ m))
include hrounds hspecs

/-- One round from `InProgress` or `NotReady`. -/
theorem step_settling (hs : Stands k .inProgress (σ n) ∨ Stands k .notReady (σ n)) :
    ((τ n).pods k ≠ [] ∧ Stands k .ready (σ (n + 1))) ∨
      ((τ n).pods k = [] ∧ Stands k .notReady (σ (n + 1)) ∧ Stocked k (σ (n + 1))) := by
  obtain ⟨p, hp, hs⟩ : ∃ p, (p = .inProgress ∨ p = .notReady) ∧ Stands k p (σ n) := by
    rcases hs with hs | hs
    · exact ⟨_, .inl rfl, hs⟩
    · exact ⟨_, .inr rfl, hs⟩
  obtain ⟨c, x, hc, rfl, rfl, hspec, hrun⟩ := hs.invoked hrounds
  exact Cluster.completes_settling hc hp (hspec ▸ (hspecs n).replicas) hrun

/-- One round from `InCreation`. -/
theorem step_inCreation (hs : Stands k .inCreation (σ n)) :
    (¬ Bootable k (τ n) ∧ Stands k .inCreation (σ (n + 1)) ∧
        ((σ (n + 1)).deployments = (τ n).deployments ∧ (σ (n + 1)).services = (τ n).services)) ∨
      Stands k .inProgress (σ (n + 1)) := by
  obtain ⟨c, x, hc, rfl, hp, hspec, hrun⟩ := hs.invoked hrounds
  obtain ⟨name, hname⟩ := Option.isSome_iff_exists.mp (hspecs n).rootSecret
  obtain ⟨sec, cred, hsec, hcred⟩ := (hrounds.env n).rootSecret hname
  rcases Cluster.completes_inCreation hp (by rw [hspec, hname]) hsec hcred hrun with
    ⟨hpods, hsame⟩ | ⟨-, out, t, ⟨hout, hstore⟩, ⟨hfail, hsame⟩ | ⟨hsucc, hstands⟩⟩
  · left
    rw [hsame]
    exact ⟨fun hboot => hboot.2.1 hpods, ⟨c, hc, rfl, hp⟩, rfl, rfl⟩
  · left
    rw [hsame]
    refine ⟨fun hboot => hfail (hout hboot), ?_⟩
    rcases hstore with rfl | ⟨-, rfl⟩
    · exact ⟨⟨c, hc, rfl, hp⟩, rfl, rfl⟩
    · exact ⟨⟨c, hc, rfl, hp⟩, rfl, rfl⟩
  · right
    rcases hstore with rfl | ⟨hfail, -⟩
    · exact hstands hc
    · exact absurd hsucc hfail

/-- One round from `Preparing`. -/
theorem step_preparing (hs : Stands k .preparing (σ n)) :
    (Stands k .inCreation (σ (n + 1)) ∧ Opened k (σ (n + 1))) ∨
      (((σ n).tidbClusters k = none) ∧ Stands k .preparing (σ (n + 1)) ∧
        ((specs n).tidbCluster.isSome → ((σ (n + 1)).tidbClusters k).isSome)) := by
  obtain ⟨c, x, hc, rfl, hp, hspec, hrun⟩ := hs.invoked hrounds
  have hstep := Cluster.completes_preparing hc hp hrun
  cases htidb : (τ n).tidbClusters c.key with
  | some tc =>
    rw [htidb] at hstep
    exact .inl (hstep ((hrounds.env n).tidbReady htidb) (hspec ▸ (hspecs n).replicas))
  | none =>
    rw [htidb] at hstep
    refine .inr ⟨?_, hstep.1, fun hsome => ?_⟩
    · by_contra hne
      have hkept := (hrounds.env n).tidbKept (Option.isSome_iff_ne_none.mpr hne)
      rw [htidb] at hkept
      cases hkept
    · rw [hstep.2, hspec, Option.isSome_map]
      exact hsome

/-- One round from `New`. -/
theorem step_new (hs : Stands k .new (σ n)) :
    ((specs n).tidbCluster.isSome ∧ Stands k .preparing (σ (n + 1)) ∧
        (((σ n).tidbClusters k).isSome → ((σ (n + 1)).tidbClusters k).isSome)) ∨
      (Stands k .inCreation (σ (n + 1)) ∧ Opened k (σ (n + 1))) := by
  obtain ⟨c, x, hc, rfl, hp, hspec, hrun⟩ := hs.invoked hrounds
  rcases Cluster.completes_new hc hp (hspec ▸ hspecs n) hrun with
    ⟨hsome, hstands, htidb⟩ | ⟨-, henter⟩
  · refine .inl ⟨hspec ▸ hsome, hstands, fun h => ?_⟩
    rw [htidb]
    exact (hrounds.env n).tidbKept h
  · exact .inr henter

include hfair

/-- `InProgress` and `NotReady` lead to `Ready`. -/
theorem ready_of_settling (hs : Stands k .inProgress (σ n) ∨ Stands k .notReady (σ n)) :
    ∃ m, (σ m).phase k = some .ready := by
  rcases step_settling hrounds hspecs hs with ⟨-, hready⟩ | ⟨-, hstage⟩
  · exact ⟨n + 1, hready.phase⟩
  · -- the Deployment is there now, so the next fair round counts its pods
    have hkeep (m : ℕ) (_ : n + 1 ≤ m) (hm : Stands k .notReady (σ m) ∧ Stocked k (σ m)) :
        (Stands k .notReady (σ (m + 1)) ∧ Stocked k (σ (m + 1))) ∨ Stands k .ready (σ (m + 1)) := by
      rcases step_settling hrounds hspecs (.inr hm.1) with ⟨-, hready⟩ | ⟨-, hstage⟩
      · exact .inr hready
      · exact .inl hstage
    have hleave (m : ℕ) (_ : n + 1 ≤ m) (hm : Stands k .notReady (σ m) ∧ Stocked k (σ m))
        (hf : RolledOut k (τ m)) : Stands k .ready (σ (m + 1)) := by
      rcases step_settling hrounds hspecs (.inr hm.1) with ⟨-, hready⟩ | ⟨hpods, -⟩
      · exact hready
      · exact absurd hpods (((stocked_congr (hrounds.env m).env).mpr hm.2).pods_ne_nil hf)
    obtain ⟨m, -, hm⟩ := ensures (P := fun s => Stands k .notReady s ∧ Stocked k s) hkeep hleave
      hfair hstage
    exact ⟨m, hm.phase⟩

/-- `InCreation` over the open workload leads to `Ready`. -/
theorem ready_of_inCreation (hs : Stands k .inCreation (σ n) ∧ Opened k (σ n)) :
    ∃ m, (σ m).phase k = some .ready := by
  have hkeep (m : ℕ) (_ : n ≤ m) (hm : Stands k .inCreation (σ m) ∧ Opened k (σ m)) :
      (Stands k .inCreation (σ (m + 1)) ∧ Opened k (σ (m + 1))) ∨
        Stands k .inProgress (σ (m + 1)) := by
    rcases step_inCreation hrounds hspecs hm.1 with ⟨-, hstands, hdps, hsvcs⟩ | hstands
    · have ho := (opened_congr (hrounds.env m).env).mpr hm.2
      rw [Opened, Store.deployment, ← hdps, ← hsvcs] at ho
      exact .inl ⟨hstands, ho⟩
    · exact .inr hstands
  have hleave (m : ℕ) (_ : n ≤ m) (hm : Stands k .inCreation (σ m) ∧ Opened k (σ m))
      (hf : RolledOut k (τ m)) : Stands k .inProgress (σ (m + 1)) := by
    have ho := (opened_congr (hrounds.env m).env).mpr hm.2
    rcases step_inCreation hrounds hspecs hm.1 with ⟨hboot, -⟩ | hstands
    · exact absurd ((bootable_iff_opened hf).mpr ho) hboot
    · exact hstands
  obtain ⟨m, -, hm⟩ := ensures (P := fun s => Stands k .inCreation s ∧ Opened k s) hkeep hleave
    hfair hs
  exact ready_of_settling hrounds hspecs hfair (.inl hm)

/-- `Preparing` leads to `Ready` if a TidbCluster exists or the spec asks for one sooner or
later. -/
theorem ready_of_preparing (hs : Stands k .preparing (σ n))
    (hcomes : ((σ n).tidbClusters k).isSome ∨ ∃ m, n ≤ m ∧ (specs m).tidbCluster.isSome) :
    ∃ m, (σ m).phase k = some .ready := by
  have hfound {m : ℕ} (hm : Stands k .preparing (σ m)) (hsome : ((σ m).tidbClusters k).isSome) :
      ∃ m, (σ m).phase k = some .ready := by
    rcases step_preparing hrounds hspecs hm with henter | ⟨hnone, -⟩
    · exact ready_of_inCreation hrounds hspecs hfair henter
    · rw [hnone] at hsome
      cases hsome
  rcases hcomes with hsome | ⟨m, hnm, hsome⟩
  · exact hfound hs hsome
  · -- wait for the round in which the spec asks for it
    have hkeep (j : ℕ) (_ : n ≤ j) (hj : Stands k .preparing (σ j)) :
        Stands k .preparing (σ (j + 1)) ∨
          (Stands k .inCreation (σ (j + 1)) ∧ Opened k (σ (j + 1))) := by
      rcases step_preparing hrounds hspecs hj with henter | ⟨-, hstands, -⟩
      · exact .inr henter
      · exact .inl hstands
    rcases stays_or (Q := fun s => Stands k .inCreation s ∧ Opened k s) hkeep hs hnm with
      hstay | ⟨i, -, henter⟩
    · rcases step_preparing hrounds hspecs hstay with henter | ⟨-, hstands, htidb⟩
      · exact ready_of_inCreation hrounds hspecs hfair henter
      · exact hfound hstands (htidb hsome)
    · exact ready_of_inCreation hrounds hspecs hfair henter

/-- `New` leads to `Ready` if no TidbCluster is asked for, or one exists, or the spec goes on asking
for one. -/
theorem ready_of_new (hs : Stands k .new (σ n)) (hcomes : (specs n).tidbCluster = none ∨
      ((σ n).tidbClusters k).isSome ∨ ∃ m, n + 1 ≤ m ∧ (specs m).tidbCluster.isSome) :
    ∃ m, (σ m).phase k = some .ready := by
  rcases step_new hrounds hspecs hs with ⟨hsome, hstands, htidb⟩ | henter
  · rcases hcomes with hnone | hcomes
    · rw [hnone] at hsome
      cases hsome
    · exact ready_of_preparing hrounds hspecs hfair hstands (hcomes.imp_left htidb)
  · exact ready_of_inCreation hrounds hspecs hfair henter

end Stages

/-! ### Exactly which stores recover -/

/-- A TidbCluster exists, or the spec asks for one in round `n` or later. -/
def TidbComes (k : ObjectKey) (specs : ℕ → Spec) (n : ℕ) (s : Store) : Prop :=
  (s.tidbClusters k).isSome ∨ ∃ m, n ≤ m ∧ (specs m).tidbCluster.isSome

/-- A Cluster in `Preparing`, or on its way there, does not wait for a TidbCluster in vain. -/
structure Backed (k : ObjectKey) (specs : ℕ → Spec) (s : Store) : Prop where
  new : s.phase k = some .new → (specs 0).tidbCluster = none ∨ TidbComes k specs 1 s
  preparing : s.phase k = some .preparing → TidbComes k specs 0 s

/-- The stores from which a Cluster recovers: it does not wait for a TidbCluster in vain, its phase
is not `Error`, and it is `InCreation` only over the open workload. -/
structure ClusterLive (k : ObjectKey) (specs : ℕ → Spec) (s : Store) : Prop where
  backed : Backed k specs s
  notError : s.phase k ≠ some .error
  inCreation : s.phase k = some .inCreation → Opened k s

section Recovery

variable {srv : Server} {k : ObjectKey} {specs : ℕ → Spec} {s : Store}

theorem stands_of_phase {p : Phase} (hstored : ∃ c, s.clusters k = some c ∧ c.key = k)
    (hp : s.phase k = some p) : Stands k p s := by
  obtain ⟨c, hc, hk⟩ := hstored
  exact ⟨c, hc, hk, phase_of_stored hc hp⟩

theorem ClusterLive.recovers (hspecs : ∀ n, (specs n).Complete)
    (hstored : ∃ c, s.clusters k = some c ∧ c.key = k) (hs : ClusterLive k specs s) :
    ClusterRecovers srv k specs s := by
  rintro σ τ rfl hrounds hfair
  have hstands {p : Phase} := stands_of_phase (p := p) hstored
  obtain ⟨p, hp⟩ := Option.isSome_iff_exists.mp (isSome_phase hstored)
  cases p with
  | new => exact ready_of_new hrounds hspecs hfair (hstands hp) (hs.backed.new hp)
  | preparing => exact ready_of_preparing hrounds hspecs hfair (hstands hp) (hs.backed.preparing hp)
  | inCreation => exact ready_of_inCreation hrounds hspecs hfair ⟨hstands hp, hs.inCreation hp⟩
  | notReady => exact ready_of_settling hrounds hspecs hfair (.inr (hstands hp))
  | inProgress => exact ready_of_settling hrounds hspecs hfair (.inl (hstands hp))
  | ready => exact ⟨0, hp⟩
  | error => exact absurd hp hs.notError

/-- A TidbCluster that reports Ready. -/
def TidbCluster.reporting (tc : TidbCluster) : TidbCluster :=
  { tc with status := some ⟨some [⟨"Ready", "True"⟩]⟩ }

/-- The store once the environment has done all it can for a Cluster with the given spec. -/
def settled (k : ObjectKey) (spec : Spec) (s : Store) : Store :=
  let name := (spec.rootSecret.bind SecretReference.name).getD ""
  withPods k (fun d => List.replicate d.replicas d.template)
    { s with
      clusters := Function.update s.clusters k ((s.clusters k).map fun c => { c with spec := spec })
      secrets := Function.update s.secrets ⟨k.ns, name⟩ (some (givenSecret k.ns name).stored)
      tidbClusters := fun k' => (s.tidbClusters k').map TidbCluster.reporting }

theorem calm_settled (k : ObjectKey) (spec : Spec) (s : Store) :
    Calm k spec s (settled k spec s) where
  env := by
    refine ⟨fun {c} hc => ⟨spec, ?_⟩, ?_, rfl, rfl⟩
    · simp [settled, withPods, hc]
    · simp only [Store.deployment, settled, withPods, Function.update_self, Option.map_map]
      rfl
  edited {c} hc := by
    simp only [settled, withPods, Function.update_self] at hc
    obtain ⟨c', -, rfl⟩ := Option.map_eq_some_iff.mp hc
    rfl
  rootSecret {name} hname := by
    refine ⟨(givenSecret k.ns name).stored, _, ?_, rfl⟩
    simp only [settled, withPods, hname, Option.getD_some, Function.update_self]
  tidbKept h := by
    simpa [settled, withPods] using h
  tidbReady {tc} htc := by
    obtain ⟨tc', -, rfl⟩ := Option.map_eq_some_iff.mp htc
    rfl

theorem rolledOut_settled (k : ObjectKey) (spec : Spec) (s : Store) :
    RolledOut k (settled k spec s) := by
  intro live hlive
  simp only [settled, withPods, Function.update_self] at hlive
  obtain ⟨live', -, rfl⟩ := Option.map_eq_some_iff.mp hlive
  rfl

/-- A bootstrap request is turned down whenever it may be. -/
def TurnsDown (k : ObjectKey) (q : HttpRequest) (s : Store) (r : HttpOutcome) (s' : Store) : Prop :=
  (r.IsSuccess ↔ Bootable k s) ∧ ((r.IsSuccess ∧ s' = s.log (.http q)) ∨ (¬ r.IsSuccess ∧ s' = s))

theorem exists_turnsDown (k : ObjectKey) (q : HttpRequest) (s : Store) :
    ∃ r s', TurnsDown k q s r s' := by
  by_cases hb : Bootable k s
  · have hr : (HttpOutcome.response ⟨200, .inl (by decide)⟩ "").IsSuccess := by decide
    exact ⟨_, _, iff_of_true hr hb, .inl ⟨hr, rfl⟩⟩
  · exact ⟨.failed "", s, iff_of_false (fun h => h) hb, .inr ⟨fun h => h, rfl⟩⟩

theorem TurnsDown.bootstraps {q : HttpRequest} {r : HttpOutcome} {s' : Store}
    (h : TurnsDown k q s r s') : Bootstraps k q s r s' :=
  ⟨h.1.mpr, h.2.imp_left And.right⟩

/-- Stores among which invocations stay though all goes well, and none of which is Ready, do not
recover. -/
theorem not_clusterRecovers {J : ℕ → Store → Prop}
    (hJ : ∀ n s, J n s → ∃ p, p ≠ .ready ∧ Stands k p s)
    (hstep : ∀ n s c x s', J n s → (settled k (specs n) s).clusters k = some c → c.key = k →
      c.spec = specs n → (∀ p, Stands k p s → c.phase = p) →
      Completes (Answers srv (TurnsDown k)) c.reconcile.run (settled k (specs n) s) x s' →
      J (n + 1) s') (hs : J 0 s) : ¬ ClusterRecovers srv k specs s := by
  refine not_recovers (J := J) (fun n s hs => ?_) (fun n s hs => ?_) hs
  · obtain ⟨p, -, hstands⟩ := hJ n s hs
    have hcalm := calm_settled k (specs n) s
    obtain ⟨c, hc, hk, -⟩ := hstands.env hcalm.env
    have hphase (p : Phase) (hs : Stands k p s) : c.phase = p :=
      phase_of_stored hc (hs.env hcalm.env).phase
    have hserve (q : Call) (s : Store) : ∃ r t, Answers srv (TurnsDown k) q s r t := by
      cases q with
      | api q => exact ⟨_, _, rfl⟩
      | http q => exact exists_turnsDown k q s
      | draw n => exact ⟨(default : Draws n), s, rfl⟩
    obtain ⟨x, s', hrun⟩ := exists_completes hserve c.reconcile.run (settled k (specs n) s)
    refine ⟨_, s', hcalm, ⟨c, x, hc, hrun.mono fun q s r t hq => ?_⟩, rolledOut_settled k _ s,
      hstep n s c x s' hs hc hk (hcalm.edited hc) hphase hrun⟩
    cases q with
    | api q | draw n => exact hq
    | http q => exact TurnsDown.bootstraps hq
  · obtain ⟨p, hp, hstands⟩ := hJ n s hs
    rw [hstands.phase]
    exact fun h => hp (Option.some.inj h)

variable (hspecs : ∀ n, (specs n).Complete)

/-- No branch leaves `Error`. -/
theorem error_stuck (hs : Stands k .error s) : ¬ ClusterRecovers srv k specs s := by
  refine not_clusterRecovers (J := fun _ s => Stands k .error s) (fun _ _ hs => ⟨_, by decide, hs⟩)
    (fun n s c x s' hs hc hk _ hphase hrun => ?_) hs
  have hp := hphase _ hs
  subst hk
  exact Cluster.completes_error hc hp hrun

include hspecs in
/-- The branch for `InCreation` does not apply the open workload. -/
theorem inCreation_stuck (hs : Stands k .inCreation s) (ho : ¬ Opened k s) :
    ¬ ClusterRecovers srv k specs s := by
  refine not_clusterRecovers (J := fun _ s => Stands k .inCreation s ∧ ¬ Opened k s)
    (fun _ _ hs => ⟨_, by decide, hs.1⟩) (fun n s c x s' hs hc hk hspec hphase hrun => ?_) ⟨hs, ho⟩
  have hcalm := calm_settled k (specs n) s
  have hkept : Stands k .inCreation (settled k (specs n) s) ∧ ¬ Opened k (settled k (specs n) s) :=
    ⟨hs.1.env hcalm.env, by rw [opened_congr hcalm.env]; exact hs.2⟩
  have hp := hphase _ hs.1
  subst hk
  obtain ⟨name, hname⟩ := Option.isSome_iff_exists.mp (hspecs n).rootSecret
  obtain ⟨sec, cred, hsec, hcred⟩ := hcalm.rootSecret hname
  rcases Cluster.completes_inCreation hp (by rw [hspec, hname]) hsec hcred hrun with
    ⟨-, rfl⟩ | ⟨-, out, t, ⟨hout, hstore⟩, ⟨hfail, rfl⟩ | ⟨hsucc, -⟩⟩
  · exact hkept
  · rcases hstore with ⟨hsucc, -⟩ | ⟨-, rfl⟩
    · exact absurd hsucc hfail
    · exact hkept
  · -- it is accepted only if the open workload is stored
    exact absurd ((bootable_iff_opened (rolledOut_settled _ _ s)).mp (hout.mp hsucc)) hkept.2

include hspecs in
/-- `Preparing` waits for a TidbCluster that never comes, and so does `New` if it goes there. -/
theorem preparing_stuck (hnone : s.tidbClusters k = none)
    (hs : (Stands k .preparing s ∧ ∀ m, 0 ≤ m → (specs m).tidbCluster = none) ∨
      (Stands k .new s ∧ (specs 0).tidbCluster.isSome ∧
        ∀ m, 1 ≤ m → (specs m).tidbCluster = none)) :
    ¬ ClusterRecovers srv k specs s := by
  refine not_clusterRecovers (J := fun n s => s.tidbClusters k = none ∧
    ((Stands k .preparing s ∧ ∀ m, n ≤ m → (specs m).tidbCluster = none) ∨
      (Stands k .new s ∧ (specs n).tidbCluster.isSome ∧
        ∀ m, n + 1 ≤ m → (specs m).tidbCluster = none)))
    (fun n s hs => ?_) (fun n s c x s' hs hc hk hspec hphase hrun => ?_) ⟨hnone, hs⟩
  · rcases hs.2 with ⟨hs, -⟩ | ⟨hs, -⟩
    · exact ⟨_, by decide, hs⟩
    · exact ⟨_, by decide, hs⟩
  · obtain ⟨hnone, hs⟩ := hs
    have hnone' : (settled k (specs n) s).tidbClusters k = none := by
      simp only [settled, withPods, hnone, Option.map_none]
    rcases hs with ⟨hs, hnever⟩ | ⟨hs, hsome, hnever⟩
    · have hp := hphase _ hs
      subst hk
      have hstep := Cluster.completes_preparing hc hp hrun
      rw [hnone'] at hstep
      refine ⟨?_, .inl ⟨hstep.1, fun m hm => hnever m (Nat.le_of_succ_le hm)⟩⟩
      rw [hstep.2, hspec, hnever n (Nat.le_refl n), Option.map_none]
    · have hp := hphase _ hs
      subst hk
      rcases Cluster.completes_new hc hp (hspec ▸ hspecs n) hrun with
        ⟨-, hstands, htidb⟩ | ⟨hnot, -⟩
      · exact ⟨by rw [htidb, hnone'], .inl ⟨hstands, hnever⟩⟩
      · rw [hspec] at hnot
        rw [hnot] at hsome
        cases hsome

include hspecs in
/-- A Cluster that recovers is one of those. -/
theorem ClusterLive.of_recovers (hstored : ∃ c, s.clusters k = some c ∧ c.key = k)
    (hrec : ClusterRecovers srv k specs s) : ClusterLive k specs s := by
  have hcomes {n : ℕ} (hnot : ¬ TidbComes k specs n s) :
      s.tidbClusters k = none ∧ ∀ m, n ≤ m → (specs m).tidbCluster = none := by
    refine ⟨?_, fun m hm => ?_⟩
    · by_contra hne
      exact hnot (.inl (Option.isSome_iff_ne_none.mpr hne))
    · by_contra hne
      exact hnot (.inr ⟨m, hm, Option.isSome_iff_ne_none.mpr hne⟩)
  refine ⟨⟨fun hp => ?_, fun hp => ?_⟩, fun hp => ?_, fun hp => ?_⟩
  · by_contra hnot
    obtain ⟨hsome, hnever⟩ := not_or.mp hnot
    obtain ⟨hnone, hnever⟩ := hcomes hnever
    exact preparing_stuck hspecs hnone (.inr ⟨stands_of_phase hstored hp,
      Option.isSome_iff_ne_none.mpr hsome, hnever⟩) hrec
  · by_contra hnot
    obtain ⟨hnone, hnever⟩ := hcomes hnot
    exact preparing_stuck hspecs hnone (.inl ⟨stands_of_phase hstored hp, hnever⟩) hrec
  · exact error_stuck (stands_of_phase hstored hp) hrec
  · by_contra ho
    exact inCreation_stuck hspecs (stands_of_phase hstored hp) ho hrec

end Recovery

/-! ### Which runs lead to no other store -/

/-- Besides being uninterrupted, the run starts an invocation in `New` only with a backend in the
spec and one in an early phase only with replicas, and no call for the root Secret fails. -/
def Orderly (k : ObjectKey) (c : Run Unit) (m : RunMove Unit) : Prop :=
  Uninterrupted k c m ∧ match m with
  | .start _ l => (l.phase = .new → l.tikvBackendConfigured = .ok ()) ∧
      (l.phase.Early → l.spec.replicas ≠ some 0)
  | .call _ l h q r _ => ¬ l.Blocked (⟨q, r⟩ :: h)
  | _ => True

/-- The store is as the audit says, with replicas for every open Deployment, and not in `Error`. -/
structure Intact (k : ObjectKey) (s : Store) : Prop where
  notError : s.phase k ≠ some .error
  last : LastApplied k s
  served : Served k s.audit → (s.services k.workload).isSome
  replicas : ∀ d ∈ applied k s.audit, ¬ d.Authenticated → d.replicas ≠ 0

/-- What an orderly invocation knows about its spec. -/
structure Equipped (l : Cluster) (h : History Reply) : Prop where
  backend : l.phase = .new → l.tikvBackendConfigured = .ok ()
  replicas : l.phase.Early → l.spec.replicas ≠ some 0
  unblocked : ¬ l.Blocked h

section Runs

variable {srv : Server} {k : ObjectKey} {l : Cluster} {h : History Reply} {q : Call} {r : Reply q}
  {s s' : Store}

theorem Served.of_cons (hs : Served k (q :: s.audit)) :
    Served k s.audit ∨ ∃ x, x.metadata.key = k.workload ∧ q = .api (.applyService x) := by
  obtain ⟨x, hx, hmem⟩ := hs
  rcases List.mem_cons.mp hmem with heq | hold
  · exact .inr ⟨x, hx, heq.symm⟩
  · exact .inl ⟨x, hx, hold⟩

/-- An applied Service is stored, and stays. -/
theorem Serves.service_stored (hs : Serves srv q s r s')
    (hI : Served k s.audit → (s.services k.workload).isSome) :
    Served k s'.audit → (s'.services k.workload).isSome := by
  rcases hs.cases with rfl | ⟨rfl, ha⟩
  · exact hI
  intro hserved
  rw [ha] at hserved
  rcases services_effect srv q s k.workload with hsame | ⟨x, -, -, hnew⟩
  · rw [hsame]
    rcases hserved.of_cons with hold | ⟨x, hx, rfl⟩
    · exact hI hold
    · have hnew : (effect srv (.api (.applyService x)) s).services x.metadata.key = some x :=
        Function.update_self ..
      rw [← hsame, ← hx, hnew]
      rfl
  · rw [hnew]
    rfl

theorem Intact.call (hI : Intact k s) (hT : Equipped l h) (hsome : (s.phase k).isSome)
    (hk : l.key = k) (hq : l.Conduct h q) (hs : Serves srv q s r s') : Intact k s' := by
  refine ⟨?_, hI.last.call hk hq hs, hs.service_stored hI.served, ?_⟩
  · rcases hs.phase_cases hsome hq with hsame | ⟨p, -, hw, hp⟩
    · rw [hsame]
      exact hI.notError
    · rw [hp]
      rintro ⟨⟩
      -- only the branch for `New` writes `Error`
      have hnew : l.phase = .new := by
        unfold Cluster.Writes at hw
        cases hc : l.phase with
        | new => rfl
        | _ =>
          rw [hc] at hw
          exact hw.elim
      simp only [Cluster.Writes, hnew] at hw
      rcases hw with hb | hb
      · exact hb (hT.backend hnew)
      · exact hT.unblocked hb
  · rcases hs.applied_cases hk hq with hsame | ⟨m, -, hm, -, happ⟩
    · rw [hsame]
      exact hI.replicas
    · rw [happ]
      intro d hd hopen
      rcases List.mem_cons.mp hd with rfl | hold
      · rw [l.authenticated_build l.name m, Bool.not_eq_false] at hopen
        exact Cluster.replicas_build (hT.replicas (hm.early_iff.mpr hopen)) l.name m
      · exact hI.replicas d hold hopen

/-- Orderly runs keep the store intact. -/
theorem intact_invariance (srv : Server) (k : ObjectKey) :
    Invariance (ι := Unit) srv k (Orderly k) (fun s _ => Intact k s) (fun l h _ => Equipped l h)
      fun _ => True where
  init {s} hs := by
    obtain ⟨c, hc, -, hnew⟩ := hs.stored
    refine ⟨⟨?_, fun d ds happ => ?_, fun hserved => ?_, fun d hd => ?_⟩, trivial⟩
    · rw [Store.phase, hc, Option.map_some, hnew]
      decide
    · rw [hs.audit] at happ
      cases happ
    · obtain ⟨x, -, hmem⟩ := hserved
      rw [hs.audit] at hmem
      cases hmem
    · rw [hs.audit] at hd
      cases hd
  env hp _ he hI := by
    refine ⟨⟨?_, fun d ds happ => ?_, ?_, ?_⟩, fun _ hT => hT, fun _ => trivial⟩
    · rw [hp]
      exact hI.notError
    · rw [he.deployment]
      exact hI.last d ds (he.audit ▸ happ)
    · rw [he.service, he.audit]
      exact hI.served
    · rw [he.audit]
      exact hI.replicas
  start hm _ hI _ := ⟨hI, hm.2.1, hm.2.2, fun ⟨_, _, hb⟩ => by
    rcases hb with ⟨_, -, heq⟩ | heq <;> cases heq⟩
  call hsome hk _ hq hm hs hI hT :=
    ⟨hI.call hT hsome hk hq hs, hT.backend, hT.replicas, hm.2⟩
  frame _ _ _ _ _ hij := absurd (Subsingleton.elim _ _) hij
  finish _ _ := trivial
  crash _ _ _ := trivial

/-- The open workload as the audit has it is stored. -/
theorem Intact.opened (hI : Intact k s) (ho : OpenWorkload k s.audit) : Opened k s := by
  obtain ⟨⟨d, ds, happ, c, rfl⟩, hserved⟩ := ho
  refine ⟨hI.served hserved, _, hI.last _ _ happ, (c.unauthenticated_build c.name true).mpr rfl, ?_⟩
  refine hI.replicas _ (by rw [happ]; exact List.mem_cons_self) fun hauth => ?_
  cases (c.authenticated_build c.name true).mp hauth

/-- **Exactly which stores recover.** In every run, with whatever complete specs from then on, a
Cluster recovers if and only if it does not wait for a TidbCluster in vain, its phase is not
`Error`, and it is `InCreation` only over the open workload. And between the invocations of an
orderly sequential run it recovers unless it waits for a TidbCluster in vain. -/
theorem cluster_recovers_iff {ι : Type} [DecidableEq ι] (srv : Server) (k : ObjectKey)
    {specs : ℕ → Spec} (hspecs : ∀ n, (specs n).Complete) :
    (∀ c : Run ι, (clusterSystem srv k).Reachable (Fresh k) System.anyMove c →
      (ClusterRecovers srv k specs c.store ↔ ClusterLive k specs c.store)) ∧
    ∀ c : Run Unit, (clusterSystem srv k).Reachable (Fresh k) (Orderly k) c →
      c.running () = none → (ClusterRecovers srv k specs c.store ↔ Backed k specs c.store) := by
  refine ⟨fun c hc => ?_, fun c hc hidle => ?_⟩
  · have hstored := ((trivial_invariance srv k).sound hc).store.1
    exact ⟨.of_recovers hspecs hstored, ClusterLive.recovers hspecs hstored⟩
  · obtain ⟨hstored, hI⟩ := ((intact_invariance srv k).sound hc).store
    have hA : Agrees k c.store :=
      ((agrees_invariance srv k).sound (hc.mono _ fun _ _ h => h.1)).idle hidle
    constructor
    · exact fun hrec => (ClusterLive.of_recovers hspecs hstored hrec).backed
    · intro hb
      exact ClusterLive.recovers hspecs hstored ⟨hb, hI.notError, fun hp => hI.opened (hA hp)⟩

end Runs

theorem complete_sampleCluster : sampleCluster.spec.Complete :=
  ⟨.inr rfl, by decide, rfl⟩

/-- The sample Cluster after its first invocation. -/
theorem cluster_recovers_sample : ∃ c : Run Unit,
    c.store = invoke ⟨false⟩ sampleCluster.key (fun _ => false) sampleStore ∧
      ClusterRecovers ⟨false⟩ sampleCluster.key (fun _ => sampleCluster.spec) c.store := by
  have h₀ : Settles ⟨false⟩ sampleCluster.key System.anyMove sampleStore := .fresh fresh_sampleStore
  obtain ⟨c, hc, -, hs⟩ := h₀.invoke (fun _ => false) (fun _ _ _ _ => trivial) (by decide)
  refine ⟨c, hs, ((cluster_recovers_iff ⟨false⟩ _ fun _ => complete_sampleCluster).1 c hc).mpr ?_⟩
  have hp : c.store.phase sampleCluster.key = some .inCreation := by
    rw [hs]
    decide
  have hother {p : Phase} (hne : p ≠ .inCreation) : c.store.phase sampleCluster.key ≠ some p := by
    rw [hp]
    exact fun h => hne (Option.some.inj h).symm
  refine ⟨⟨fun h => absurd h (hother (by decide)), fun h => absurd h (hother (by decide))⟩,
    hother (by decide), fun _ => ?_⟩
  rw [hs]
  exact ⟨by decide, _, rfl, (sampleCluster.unauthenticated_build _ true).mpr rfl, by decide⟩

/-- `bareCluster` is reconciled once before the backend and the root Secret are added. -/
theorem cluster_stuck : ∃ (specs : ℕ → Spec) (c : Run Unit), (∀ n, (specs n).Complete) ∧
    (clusterSystem ⟨false⟩ bareCluster.key).Reachable (Fresh bareCluster.key) System.anyMove c ∧
    c.running () = none ∧ ¬ ClusterRecovers ⟨false⟩ bareCluster.key specs c.store := by
  have h₀ : Settles ⟨false⟩ bareCluster.key System.anyMove bareStore :=
    .fresh ⟨⟨bareCluster, rfl, rfl, rfl⟩, rfl⟩
  obtain ⟨c, hc, hidle, hs⟩ := h₀.invoke (fun _ => false) (fun _ _ _ _ => trivial) (by decide)
  refine ⟨fun _ => sampleCluster.spec, c, fun _ => complete_sampleCluster, hc, hidle,
    error_stuck ?_⟩
  rw [hs]
  exact ⟨bareCluster.mergeStatus .error, by decide, rfl, rfl⟩

end SdbController
