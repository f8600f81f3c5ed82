import SdbController.Cluster.Lifecycle

/-!
# One invocation that is answered

What an invocation of `Cluster.reconcile` comes to when the API server answers all its requests,
branch by branch. What becomes of a bootstrap request is left to the server.

The lemmas are about the whole invocation, so a branch that ends early and one that goes on are told
apart by the store it starts from: the stored Deployment and its pods, the stored TidbCluster.

## Main results

* `Cluster.completes_new`, `Cluster.completes_preparing`, `Cluster.completes_inCreation`,
  `Cluster.completes_settling`, `Cluster.completes_error` — one per branch
-/

namespace SdbController

open Interaction Program

/-- A spec with all that a Cluster needs. -/
structure Spec.Complete (spec : Spec) : Prop where
  backend : spec.tidbCluster.isSome ∨ spec.tikvSecretRef.isSome
  replicas : spec.replicas ≠ some 0
  rootSecret : (spec.rootSecret.bind SecretReference.name).isSome

/-- The Cluster is stored at `k` with phase `p`. -/
def Stands (k : ObjectKey) (p : Phase) (s : Store) : Prop :=
  ∃ x, s.clusters k = some x ∧ x.key = k ∧ x.phase = p

/-- A Deployment with replicas is stored. -/
def Stocked (k : ObjectKey) (s : Store) : Prop := ∃ d, s.deployment k = some d ∧ d.replicas ≠ 0

/-- The Service is stored, and so is an open Deployment with replicas. -/
def Opened (k : ObjectKey) (s : Store) : Prop :=
  (s.services k.workload).isSome ∧
    ∃ d, s.deployment k = some d ∧ d.template.Unauthenticated ∧ d.replicas ≠ 0

/-- The pods that are available for the stored Deployment. -/
def Store.pods (k : ObjectKey) (s : Store) : List PodTemplate :=
  ((s.deployments k.workload).map LiveDeployment.pods).getD []

theorem Stands.phase {k : ObjectKey} {p : Phase} {s : Store} (h : Stands k p s) :
    s.phase k = some p := by
  obtain ⟨x, hx, -, hp⟩ := h
  rw [Store.phase, hx, Option.map_some, hp]

theorem Stands.congr {k : ObjectKey} {p : Phase} {s s' : Store} (h : Stands k p s)
    (hs : s'.clusters k = s.clusters k) : Stands k p s' := by
  obtain ⟨x, hx, hk, hp⟩ := h
  exact ⟨x, hs.trans hx, hk, hp⟩

namespace Cluster

variable {c : Cluster} {srv : Server} {http : HttpRequest → Store → HttpOutcome → Store → Prop}
  {s s' : Store}

/-! ### The helpers -/

/-- The store with both parts of the workload applied. -/
def deploy (c : Cluster) (srv : Server) (m : Bool) (s : Store) : Store :=
  effect srv c.serviceCall (effect srv (c.deployCall m) s)

/-- The pods are still those from before. -/
theorem deploy_deployments (m : Bool) : (c.deploy srv m s).deployments c.key.workload =
    some ⟨c.buildSurrealDeployment c.name m, s.pods c.key⟩ := Function.update_self ..

theorem deploy_deployment (m : Bool) :
    (c.deploy srv m s).deployment c.key = some (c.buildSurrealDeployment c.name m) :=
  congrArg (Option.map LiveDeployment.object) (deploy_deployments m)

theorem deploy_services (m : Bool) : (c.deploy srv m s).services c.key.workload =
    some (c.buildSurrealService c.name) := Function.update_self ..

theorem replicas_build (hr : c.spec.replicas ≠ some 0) (name : String) (m : Bool) :
    (c.buildSurrealDeployment name m).replicas ≠ 0 := by
  change (c.spec.replicas.map UInt8.toNat).getD 1 ≠ 0
  cases hc : c.spec.replicas with
  | none => decide
  | some n =>
    intro hn
    exact hr (by rw [hc, UInt8.toNat_inj.mp (hn.trans UInt8.toNat_zero.symm)])

theorem opened_deploy (hr : c.spec.replicas ≠ some 0) :
    Opened c.key (c.deploy srv true s) := by
  have hsvc : ((c.deploy srv true s).services c.key.workload).isSome := by
    rw [deploy_services]
    rfl
  exact ⟨hsvc, _, deploy_deployment true, (c.unauthenticated_build c.name true).mpr rfl,
    replicas_build hr c.name true⟩

/-- `set_phase` on a stored Cluster. -/
theorem completes_setPhase {phase : Phase} {x : Except Error Unit} {y : Cluster}
    (hy : s.clusters c.key = some y) (hk : y.key = c.key)
    (h : Completes (Answers srv http) (c.setPhase phase).run s x s') :
    x = .ok () ∧ Stands c.key phase s' ∧ s'.tidbClusters = s.tidbClusters ∧
      s'.deployments = s.deployments := by
  obtain ⟨rfl, rfl⟩ := (Reconciler.completes_answered (.mergeClusterStatus c.key phase)).mp h
  simp only [answer, hy, Option.map_some, patched]
  exact ⟨rfl, ⟨y.mergeStatus phase, Function.update_self .., hk, rfl⟩, rfl, rfl⟩

/-- `reconcile_surrealdb_with_mode`. -/
theorem completes_reconcileSurrealdbWithMode {m : Bool} {x : Except Error Unit}
    (h : Completes (Answers srv http) (c.reconcileSurrealdbWithMode c.name m).run s x s') :
    x = .ok () ∧ s' = c.deploy srv m s := by
  rw [reconcileSurrealdbWithMode] at h
  obtain ⟨y, t, hdp, hrest⟩ := (completes_except_bind ..).mp h
  obtain ⟨rfl, rfl⟩ := (Reconciler.completes_answered (.applyDeployment _)).mp hdp
  obtain ⟨y, t, hsvc, hdone⟩ := (completes_except_bind ..).mp hrest
  obtain ⟨rfl, rfl⟩ := (Reconciler.completes_answered (.applyService _)).mp hsvc
  exact hdone

/-- `check_ready` counts the pods of the stored Deployment. -/
theorem completes_checkReady {x : Except Error Bool}
    (h : Completes (Answers srv http) (c.checkReady c.name).run s x s') :
    s' = s ∧ (x = .ok true ↔ s.pods c.key ≠ []) ∧
      ((s.deployments c.key.workload).isSome → x = .ok true ∨ x = .ok false) := by
  rw [checkReady] at h
  obtain ⟨y, t, hget, hrest⟩ := (completes_except_bind ..).mp h
  obtain ⟨hy, ht⟩ := (Reconciler.completes_answered (.getDeployment _)).mp hget
  obtain rfl : s = t := ht.symm
  subst hy
  rw [show (⟨c.ns, c.name ++ "-surrealdb"⟩ : ObjectKey) = c.key.workload from rfl] at hrest
  cases hlive : s.deployments c.key.workload with
  | none =>
    simp only [answer, lookup, hlive, Except.mapError] at hrest
    obtain ⟨rfl, rfl⟩ := hrest
    simp [Store.pods, hlive]
  | some live =>
    simp only [answer, lookup, hlive, Except.mapError] at hrest
    obtain ⟨rfl, rfl⟩ := hrest
    have hpods : s'.pods c.key = live.pods := by
      rw [Store.pods, hlive, Option.map_some, Option.getD_some]
    rw [hpods, ← LiveDeployment.availableReplicas_pos]
    refine ⟨rfl, by simp, fun _ => ?_⟩
    cases decide (0 < live.availableReplicas.getD 0) <;> simp

/-- `reconcile_tidb_cluster` creates the TidbCluster of the spec if there is none. -/
theorem completes_reconcileTidbCluster {x : Except Error Unit}
    (h : Completes (Answers srv http) (c.reconcileTidbCluster c.name).run s x s') :
    x = .ok () ∧ s'.clusters = s.clusters ∧ s'.tidbClusters c.key =
      (s.tidbClusters c.key).or (c.spec.tidbCluster.map (c.tidbClusterObject c.name)) := by
  rw [reconcileTidbCluster] at h
  cases hspec : c.spec.tidbCluster with
  | none =>
    rw [hspec] at h
    obtain ⟨rfl, rfl⟩ := h
    exact ⟨rfl, rfl, (Option.or_none).symm⟩
  | some spec =>
    rw [hspec] at h
    obtain ⟨y, t, hcreate, hrest⟩ := (completes_except_bind ..).mp h
    obtain ⟨r, hr, rfl⟩ := (Reconciler.completes_api _).mp hcreate
    have hr' : (r, t) = answer srv (.createTidbCluster (c.tidbClusterObject c.name spec)) s := hr
    have hkey : (c.tidbClusterObject c.name spec).metadata.key = c.key := rfl
    cases htidb : s.tidbClusters c.key with
    | none =>
      simp only [answer, createIn, hkey, htidb, created] at hr'
      obtain ⟨rfl, rfl⟩ := Prod.mk.inj hr'
      obtain ⟨rfl, rfl⟩ := hrest
      exact ⟨rfl, rfl, Function.update_self ..⟩
    | some tc =>
      simp only [answer, createIn, hkey, htidb, created] at hr'
      obtain ⟨rfl, rfl⟩ := Prod.mk.inj hr'
      obtain ⟨rfl, rfl⟩ := hrest
      exact ⟨rfl, rfl, htidb⟩

/-! ### The branches -/

variable {r : Except Error Action}

/-- Once `InCreation` is stored, the open workload is applied. -/
theorem completes_enter (hs : Stands c.key .inCreation s) (hr : c.spec.replicas ≠ some 0)
    (h : Completes (Answers srv http) (do
      let _ ← c.reconcileSurrealdbWithMode c.name true
      pure ⟨20⟩ : Reconciler Action).run s r s') :
    Stands c.key .inCreation s' ∧ Opened c.key s' := by
  obtain ⟨y, t, hdp, hdone⟩ := (completes_except_bind ..).mp h
  obtain ⟨rfl, rfl⟩ := completes_reconcileSurrealdbWithMode hdp
  obtain ⟨-, rfl⟩ := hdone
  exact ⟨hs.congr rfl, opened_deploy hr⟩

/-- `New` with a complete spec. The root Secret is named, so none is created. -/
theorem completes_new (hx : s.clusters c.key = some c) (hp : c.phase = .new)
    (hspec : c.spec.Complete) (h : Completes (Answers srv http) c.reconcile.run s r s') :
    (c.spec.tidbCluster.isSome ∧ Stands c.key .preparing s' ∧ s'.tidbClusters = s.tidbClusters) ∨
      (c.spec.tidbCluster = none ∧ Stands c.key .inCreation s' ∧ Opened c.key s') := by
  have hb : c.tikvBackendConfigured = .ok () := if_pos hspec.backend
  obtain ⟨sel, hsel⟩ : ∃ sel, c.spec.rootSecret = some sel := by
    cases hroot : c.spec.rootSecret with
    | none =>
      have hnamed := hspec.rootSecret
      rw [hroot] at hnamed
      cases hnamed
    | some sel => exact ⟨sel, rfl⟩
  simp only [reconcile, hp, reconcileNew, hb, ensureRootSecret, hsel] at h
  obtain ⟨y, t, hens, hrest⟩ := (completes_except_bind ..).mp h
  obtain ⟨_, hpure, rfl⟩ := (Reconciler.completes_attempt ..).mp hens
  obtain ⟨rfl, rfl⟩ := hpure
  cases htidb : c.spec.tidbCluster with
  | some spec =>
    rw [htidb] at hrest
    obtain ⟨y, t', hph, hdone⟩ := (completes_except_bind ..).mp hrest
    obtain ⟨_, hwrite, rfl⟩ := (Reconciler.completes_attempt ..).mp hph
    obtain ⟨-, hstands, htidbs, -⟩ := completes_setPhase hx rfl hwrite
    obtain ⟨-, rfl⟩ := hdone
    exact .inl ⟨rfl, hstands, htidbs⟩
  | none =>
    rw [htidb] at hrest
    obtain ⟨y, t', hph, henter⟩ := (completes_except_bind ..).mp hrest
    obtain ⟨rfl, hstands, -⟩ := completes_setPhase hx rfl hph
    exact .inr ⟨rfl, completes_enter hstands hspec.replicas henter⟩

/-- `Preparing` after the TidbCluster has been created or found. -/
theorem completes_preparing (hx : s.clusters c.key = some c) (hp : c.phase = .preparing)
    (h : Completes (Answers srv http) c.reconcile.run s r s') :
    match s.tidbClusters c.key with
    | some tc => tc.isReady → c.spec.replicas ≠ some 0 →
        Stands c.key .inCreation s' ∧ Opened c.key s'
    | none => Stands c.key .preparing s' ∧
        s'.tidbClusters c.key = c.spec.tidbCluster.map (c.tidbClusterObject c.name) := by
  simp only [reconcile, hp, reconcilePreparing] at h
  obtain ⟨y, t, htidb, hrest⟩ := (completes_except_bind ..).mp h
  obtain ⟨_, hcreate, rfl⟩ := (Reconciler.completes_attempt ..).mp htidb
  obtain ⟨rfl, hclusters, htidbs⟩ := completes_reconcileTidbCluster hcreate
  obtain ⟨y, t', hget, hrest'⟩ := (completes_except_bind ..).mp hrest
  obtain ⟨found, hfound, rfl⟩ := (Reconciler.completes_api _).mp hget
  have hfound' : (found, t') = answer srv (.getTidbCluster c.key) t := hfound
  obtain ⟨rfl, rfl⟩ := Prod.mk.inj hfound'
  have hx' : t'.clusters c.key = some c := by rw [hclusters, hx]
  have hstands : Stands c.key .preparing t' := ⟨c, hx', rfl, hp⟩
  cases hstored : s.tidbClusters c.key with
  | some tc =>
    intro hready hr
    rw [hstored, Option.some_or] at htidbs
    simp only [htidbs, hready, if_true] at hrest'
    obtain ⟨y, u, hph, henter⟩ := (completes_except_bind ..).mp hrest'
    obtain ⟨_, hwrite, rfl⟩ := (Reconciler.completes_attempt ..).mp hph
    obtain ⟨-, hstands', -⟩ := completes_setPhase hx' rfl hwrite
    exact completes_enter hstands' hr henter
  | none =>
    rw [hstored, Option.none_or] at htidbs
    -- one that was just created has no status yet
    have hsame : s' = t' := by
      cases hspec : c.spec.tidbCluster with
      | none =>
        rw [hspec] at htidbs
        simp only [htidbs, Option.map_none] at hrest'
        exact hrest'.2
      | some spec =>
        rw [hspec] at htidbs
        simp only [htidbs, Option.map_some] at hrest'
        exact hrest'.2
    subst hsame
    exact ⟨hstands, htidbs⟩

/-- `InCreation` with the root Secret at hand: the bootstrap is left to the server. -/
theorem completes_inCreation {name : String} {sec : Secret} {cred : String × String}
    (hp : c.phase = .inCreation)
    (hname : c.spec.rootSecret.bind SecretReference.name = some name)
    (hsec : s.secrets ⟨c.ns, name⟩ = some sec) (hcred : sec.credentials = some cred)
    (h : Completes (Answers srv http) c.reconcile.run s r s') :
    (s.pods c.key = [] ∧ s' = s) ∨ (s.pods c.key ≠ [] ∧ ∃ out t,
      http (c.bootstrapRequest c.name cred.1 cred.2) s out t ∧
      ((¬ out.IsSuccess ∧ s' = t) ∨ (out.IsSuccess ∧
        (t.clusters c.key = some c → Stands c.key .inProgress s')))) := by
  simp only [reconcile, hp, reconcileInCreation] at h
  obtain ⟨y, t, hready, hrest⟩ := (completes_except_bind ..).mp h
  obtain ⟨b, hcheck, rfl⟩ := (Reconciler.completes_attempt ..).mp hready
  obtain ⟨rfl, htrue, -⟩ := completes_checkReady hcheck
  by_cases hb : b = .ok true
  · subst hb
    refine .inr ⟨htrue.mp rfl, ?_⟩
    obtain ⟨y, u, hboot, hrest'⟩ := (completes_except_bind ..).mp hrest
    obtain ⟨_, hroot, rfl⟩ := (Reconciler.completes_attempt ..).mp hboot
    rw [bootstrapRootUser] at hroot
    obtain ⟨y, v, hcreds, hsend⟩ := (completes_except_bind ..).mp hroot
    obtain ⟨rfl, rfl⟩ := c.completes_bootstrapCredentials hname hsec hcred hcreds
    obtain ⟨user, pass⟩ := cred
    obtain ⟨y, v, hhttp, hverdict⟩ := (completes_except_bind ..).mp hsend
    obtain ⟨out, hout, rfl⟩ := (Reconciler.completes_http _).mp hhttp
    obtain ⟨rfl, rfl⟩ := hverdict
    refine ⟨out, _, hout, ?_⟩
    by_cases hs : out.IsSuccess
    · right
      refine ⟨hs, fun hx => ?_⟩
      rw [requestText_eq_ok_iff.mpr hs] at hrest'
      obtain ⟨y, w, hph, hrest''⟩ := (completes_except_bind ..).mp hrest'
      obtain ⟨_, hwrite, rfl⟩ := (Reconciler.completes_attempt ..).mp hph
      obtain ⟨-, hstands, -⟩ := completes_setPhase hx rfl hwrite
      obtain ⟨y, w', hdp, hdone⟩ := (completes_except_bind ..).mp hrest''
      obtain ⟨rfl, rfl⟩ := completes_reconcileSurrealdbWithMode hdp
      obtain ⟨-, rfl⟩ := hdone
      exact hstands.congr rfl
    · left
      refine ⟨hs, ?_⟩
      cases hreq : requestText out with
      | ok _ => exact absurd (requestText_eq_ok_iff.mp hreq) hs
      | error e =>
        rw [hreq] at hrest'
        exact hrest'.2
  · refine .inl ⟨by_contra fun hpods => hb (htrue.mpr hpods), ?_⟩
    rcases b with e | b
    · exact hrest.2
    · cases b with
      | true => exact absurd rfl hb
      | false => exact hrest.2

/-- The branches for `InProgress`, `Ready` and `NotReady` begin alike: the workload is applied and
its pods are counted. -/
theorem completes_steady {f : Except Error Bool → Reconciler Action}
    (h : Completes (Answers srv http) (do
      let _ ← c.reconcileSurrealdbWithMode c.name false
      let b ← Reconciler.attempt (c.checkReady c.name)
      f b : Reconciler Action).run s r s') :
    (s.pods c.key ≠ [] ∧
      Completes (Answers srv http) (f (.ok true)).run (c.deploy srv false s) r s') ∨
    (s.pods c.key = [] ∧
      Completes (Answers srv http) (f (.ok false)).run (c.deploy srv false s) r s') := by
  obtain ⟨y, t, hdp, hrest⟩ := (completes_except_bind ..).mp h
  obtain ⟨rfl, rfl⟩ := completes_reconcileSurrealdbWithMode hdp
  obtain ⟨y, t, hready, hrest'⟩ := (completes_except_bind ..).mp hrest
  obtain ⟨b, hcheck, rfl⟩ := (Reconciler.completes_attempt ..).mp hready
  obtain ⟨rfl, htrue, hok⟩ := completes_checkReady hcheck
  rw [Store.pods, deploy_deployments, Option.map_some, Option.getD_some] at htrue
  rcases hok (by rw [deploy_deployments]; rfl) with rfl | rfl
  · exact .inl ⟨htrue.mp rfl, hrest'⟩
  · refine .inr ⟨by_contra fun hpods => ?_, hrest'⟩
    cases htrue.mpr hpods

/-- `InProgress` and `NotReady` store `Ready` once there are pods. -/
theorem completes_settling (hx : s.clusters c.key = some c)
    (hp : c.phase = .inProgress ∨ c.phase = .notReady) (hr : c.spec.replicas ≠ some 0)
    (h : Completes (Answers srv http) c.reconcile.run s r s') :
    (s.pods c.key ≠ [] ∧ Stands c.key .ready s') ∨
      (s.pods c.key = [] ∧ Stands c.key .notReady s' ∧ Stocked c.key s') := by
  have hx' : (c.deploy srv false s).clusters c.key = some c := hx
  have hstocked (t : Store) (ht : t.deployments = (c.deploy srv false s).deployments) :
      Stocked c.key t := by
    refine ⟨_, ?_, replicas_build hr c.name false⟩
    rw [Store.deployment, ht]
    exact deploy_deployment false
  have hwrite {phase : Phase} {a : Action} (hw : Completes (Answers srv http) (do
      let _ ← Reconciler.attempt (c.setPhase phase)
      pure a : Reconciler Action).run (c.deploy srv false s) r s') :
      Stands c.key phase s' ∧ Stocked c.key s' := by
    obtain ⟨y, t, hph, hdone⟩ := (completes_except_bind ..).mp hw
    obtain ⟨_, hset, rfl⟩ := (Reconciler.completes_attempt ..).mp hph
    obtain ⟨-, hstands, -, hdps⟩ := completes_setPhase hx' rfl hset
    obtain ⟨-, rfl⟩ := hdone
    exact ⟨hstands, hstocked _ hdps⟩
  rcases hp with hp | hp
  · simp only [reconcile, hp, reconcileInProgress] at h
    rcases completes_steady h with ⟨hpods, htrue⟩ | ⟨hpods, hfalse⟩
    · exact .inl ⟨hpods, (hwrite htrue).1⟩
    · exact .inr ⟨hpods, hwrite hfalse⟩
  · simp only [reconcile, hp, reconcileNotReady] at h
    rcases completes_steady h with ⟨hpods, htrue⟩ | ⟨hpods, hfalse⟩
    · exact .inl ⟨hpods, (hwrite htrue).1⟩
    · obtain ⟨-, rfl⟩ := hfalse
      exact .inr ⟨hpods, ⟨c, hx', rfl, hp⟩, hstocked _ rfl⟩

/-- `Error` stores no phase. -/
theorem completes_error (hx : s.clusters c.key = some c) (hp : c.phase = .error)
    (h : Completes (Answers srv http) c.reconcile.run s r s') : Stands c.key .error s' := by
  simp only [reconcile, hp, reconcileError] at h
  obtain ⟨y, t, hheal, hdone⟩ := (completes_except_bind ..).mp h
  obtain ⟨_, hdp, rfl⟩ := (Reconciler.completes_attempt ..).mp hheal
  obtain ⟨rfl, rfl⟩ := completes_reconcileSurrealdbWithMode hdp
  obtain ⟨-, rfl⟩ := hdone
  exact ⟨c, hx, rfl, hp⟩

end Cluster

end SdbController
