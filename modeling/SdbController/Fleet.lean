import SdbController.Addressing
import SdbController.Cluster.Authentication
import SdbController.Interaction.Projection

/-!
# All controllers on all resources

The three controllers work on any number of Clusters, Databases and Users at once, one invocation
per resource at a time. `Store.view` is what one Cluster has to do with the store: the calls in the
audit that concern it, and everything else as it is. The invocations for other resources leave that
view as the environment of the single Cluster may leave it, so a run of all controllers is, for
each Cluster, a run of `clusterSystem`.

Two Clusters are kept apart by the names of what they deploy, and by nothing else. That the
bootstrap request of one does not reach the server of another takes names without the separators of
a path, which Kubernetes sees to.

## Main results

* `fleet_refines` — a run of all controllers is a run of the Cluster controller on each Cluster
* `fleet_authentication` — authentication never regresses for any of them
* `fleet_workloads` — a Service reaches the pods of its own Cluster, and no others
-/

namespace SdbController

open Interaction Program Kubernetes

/-! ### The system -/

/-- A resource, by its kind and key. A controller has one invocation at a time for each. -/
inductive Slot
  | cluster (k : ObjectKey)
  | database (k : ObjectKey)
  | user (k : ObjectKey)
deriving DecidableEq

def Resource.slot : Resource → Slot
  | .cluster c => .cluster c.key
  | .database d => .database d.key
  | .user u => .user u.key

/-- The name and the namespace of a Cluster are as Kubernetes admits them. -/
def Resource.Admitted : Resource → Prop
  | .cluster c => IsDnsSubdomain c.name ∧ IsDnsLabel c.ns
  | _ => True

/-- What the rest of the world may do: to each Cluster what its environment may do, so that a stored
Cluster stays. New Clusters may be created, and anything else may come and go. -/
structure FleetEnv (s s' : Store) : Prop where
  cluster : ∀ k, (s.clusters k).isSome → ClusterEnv k s s'
  created : ∀ {k c}, s.clusters k = none → s'.clusters k = some c → c.key = k ∧ c.phase = .new
  audit : s'.audit = s.audit

/-- The store before the controllers are started for the first time. -/
structure FreshFleet (s : Store) : Prop where
  cluster : ∀ {k c}, s.clusters k = some c → c.key = k ∧ c.phase = .new
  audit : s.audit = []

/-- All three controllers at work on whatever is stored. Neither finalizers nor cleanups are part of
this: no Cluster goes. -/
def fleet (libs : Externals) (client : Client) (srv : Server) :
    System Resource Reply (Except Error Action) Store where
  start s l p :=
    match l with
    | .cluster c => s.clusters c.key = some c ∧ p = c.reconcile.run
    | .database d => s.databases d.key = some d ∧ p = (d.reconcile libs client).run
    | .user u => s.users u.key = some u ∧ p = (u.reconcile libs client).run
  serve := Serves srv
  env := FleetEnv

/-- A configuration, with one slot for each resource. -/
abbrev FleetRun : Type := Config Slot Resource Reply (Except Error Action) Store

/-- A move of the system. -/
abbrev FleetMove : Type := Move Slot Resource Reply Store

/-- An invocation runs in the slot of its resource. -/
def InPlace (_ : FleetRun) : FleetMove → Prop
  | .start i l => i = l.slot ∧ l.Admitted
  | _ => True

/-! ### What concerns one Cluster -/

/-- The server of the Cluster at `k`. -/
def ObjectKey.endpoint (k : ObjectKey) : Endpoint := ⟨k.ns, k.name ++ "-surrealdb", 8000⟩

/-- The statement that defines the root user. -/
def Sql.definesRoot : Sql → Bool
  | .defineRootUser _ _ => true
  | _ => false

/-- The call can take effect. -/
def Call.MayWrite : Call → Prop
  | .api q => q.IsWrite
  | .http _ => True
  | .draw _ => False

/-- The calls that an invocation for the Cluster at `k` may change something with. -/
def concerns (k : ObjectKey) : Call → Bool
  | .api (.applyDeployment x) => x.metadata.key = k.workload
  | .api (.applyService x) => x.metadata.key = k.workload
  | .api (.createSecret x) => x.metadata.ns = k.ns ∧
    x.metadata.ownerReferences.any fun o => o.kind = Cluster.kind ∧ o.name = k.name
  | .api (.createTidbCluster x) => x.metadata.key = k
  | .api (.replaceRootSecret k' _) => k' = k
  | .api (.mergeClusterStatus k' _) => k' = k
  | .http q => q.body.definesRoot ∧ proxyEndpoint q.uri = some k.endpoint
  | _ => false

/-- The store with those calls in its audit that concern the Cluster at `k`. -/
def Store.view (k : ObjectKey) (s : Store) : Store :=
  { s with audit := s.audit.filter (concerns k) }

/-- The Cluster at `k`, among all resources. -/
def Resource.at (k : ObjectKey) : Resource → Option Cluster
  | .cluster c => if c.key = k then some c else none
  | _ => none

theorem Resource.at_eq_some {k : ObjectKey} {l : Resource} {c : Cluster} (h : l.at k = some c) :
    l = .cluster c ∧ c.key = k := by
  cases l with
  | cluster c' =>
    rw [Resource.at] at h
    split at h
    · next hk => exact ⟨congrArg _ (Option.some.inj h), Option.some.inj h ▸ hk⟩
    · cases h
  | database d => cases h
  | user u => cases h

/-- Its slot is where it runs. -/
theorem Resource.isSome_at {k : ObjectKey} {l : Resource} :
    l.slot = .cluster k ↔ (l.at k).isSome := by
  cases l with
  | cluster c =>
    rw [Resource.slot, Resource.at]
    split
    · next hk => simp [hk]
    · next hk => simp [hk]
  | database d => simp [Resource.slot, Resource.at]
  | user u => simp [Resource.slot, Resource.at]

/-! ### Calls of the Cluster itself, and of others -/

section Views

variable {libs : Externals} {client : Client} {srv : Server} {k : ObjectKey} {l : Resource}
  {h : History Reply} {q : Call} {r : Reply q} {s s' : Store}

/-- What an invocation may change something with concerns its Cluster. -/
theorem Cluster.Conduct.concerns {c : Cluster} (hq : c.Conduct h q)
    (hc : (Resource.cluster c).Admitted) (hw : q.MayWrite) : SdbController.concerns c.key q := by
  cases q with
  | draw n => exact hw.elim
  | http q =>
    obtain ⟨-, u, p, rfl⟩ := hq
    have hreach := bootstrapRequest_endpoint hc.1 hc.2 u p
    simp only [SdbController.concerns, decide_eq_true_eq]
    exact ⟨rfl, hreach⟩
  | api q =>
    cases q with
    | getCluster k | getDatabase k | getSecret k | getDeployment k | getTidbCluster k =>
      exact hw.elim
    | createSecret x =>
      obtain ⟨-, -, password, rfl⟩ := hq
      simp [SdbController.concerns, rootSecret, Cluster.key, ownerRef]
    | createConfigMap x => exact hq.elim
    | createTidbCluster x =>
      obtain ⟨-, spec, -, rfl⟩ := hq
      exact decide_eq_true rfl
    | applyDeployment x =>
      obtain ⟨m, rfl, -⟩ := hq
      exact decide_eq_true rfl
    | applyService x =>
      obtain ⟨rfl, -⟩ := hq
      exact decide_eq_true rfl
    | replaceRootSecret k r =>
      obtain ⟨-, -, rfl, -⟩ := hq
      exact decide_eq_true rfl
    | mergeClusterStatus k phase =>
      obtain ⟨rfl, -⟩ := hq
      exact decide_eq_true rfl
    | mergeDatabaseStatus k phase m => exact hq.elim
    | mergeUserStatus k phase m => exact hq.elim

/-- Different Clusters deploy under different names. -/
theorem ObjectKey.workload_inj {k k' : ObjectKey} (hk : k.workload = k'.workload) : k = k' := by
  obtain ⟨ns, name⟩ := k
  obtain ⟨ns', name'⟩ := k'
  rw [workload, workload, ObjectKey.mk.injEq, String.append_left_inj] at hk
  rw [ObjectKey.mk.injEq]
  exact hk

/-- What another Cluster's invocation does is no concern of this one. -/
theorem Cluster.Conduct.not_concerns {c : Cluster} (hq : c.Conduct h q)
    (hc : (Resource.cluster c).Admitted) (hk : c.key ≠ k) : SdbController.concerns k q = false := by
  refine Bool.eq_false_iff.mpr fun hconcerns => hk ?_
  cases q with
  | draw n => cases hconcerns
  | http q =>
    obtain ⟨-, u, p, rfl⟩ := hq
    have hreach := bootstrapRequest_endpoint hc.1 hc.2 u p
    rw [SdbController.concerns, decide_eq_true_eq, hreach, Option.some.injEq] at hconcerns
    obtain ⟨-, hendpoint⟩ := hconcerns
    have hworkload : c.key.workload = k.workload :=
      congrArg (fun e : Endpoint => (⟨e.ns, e.service⟩ : ObjectKey)) hendpoint
    exact ObjectKey.workload_inj hworkload
  | api q =>
    cases q with
    | getCluster k | getDatabase k | getSecret k | getDeployment k | getTidbCluster k =>
      cases hconcerns
    | createSecret x =>
      obtain ⟨-, -, password, rfl⟩ := hq
      simp only [SdbController.concerns, rootSecret, ownerRef, List.any_cons, List.any_nil,
        decide_eq_true_eq, Bool.or_false] at hconcerns
      exact congrArg₂ ObjectKey.mk hconcerns.1 hconcerns.2.2
    | createConfigMap x => exact hq.elim
    | createTidbCluster x =>
      obtain ⟨-, spec, -, rfl⟩ := hq
      exact of_decide_eq_true hconcerns
    | applyDeployment x =>
      obtain ⟨m, rfl, -⟩ := hq
      exact ObjectKey.workload_inj (of_decide_eq_true hconcerns)
    | applyService x =>
      obtain ⟨rfl, -⟩ := hq
      exact ObjectKey.workload_inj (of_decide_eq_true hconcerns)
    | replaceRootSecret k r =>
      obtain ⟨-, -, rfl, -⟩ := hq
      exact of_decide_eq_true hconcerns
    | mergeClusterStatus k phase =>
      obtain ⟨rfl, -⟩ := hq
      exact of_decide_eq_true hconcerns
    | mergeDatabaseStatus k phase m => exact hq.elim
    | mergeUserStatus k phase m => exact hq.elim

/-- What a Database's invocation does is no concern of any Cluster. -/
theorem Database.Conduct.not_concerns {d : Database} (hq : d.Conduct libs client h q)
    (k : ObjectKey) : SdbController.concerns k q = false := by
  cases q with
  | draw n => rfl
  | http q =>
    have hbody : q.body.definesRoot = false := by
      rcases hq with ⟨hasks, -⟩ | ⟨hasks, -⟩ <;> rw [hasks.body] <;> rfl
    simp [SdbController.concerns, hbody]
  | api q =>
    cases q with
    | mergeDatabaseStatus k phase m => rfl
    | getCluster k | getDatabase k | getSecret k | getDeployment k | getTidbCluster k => rfl
    | _ => exact absurd trivial hq

/-- Nor is what a User's does, though it creates a Secret: that one has another kind of owner. -/
theorem User.Conduct.not_concerns {u : User} (hq : u.Conduct libs client h q) (k : ObjectKey) :
    SdbController.concerns k q = false := by
  cases q with
  | draw n => rfl
  | http q =>
    obtain ⟨-, nsName, dbName, password, hasks, -⟩ := hq
    have hbody : q.body.definesRoot = false := by rw [hasks.body]; rfl
    simp [SdbController.concerns, hbody]
  | api q =>
    rcases hq.api with ⟨hread, -⟩ | ⟨password, rfl, -⟩ | ⟨rfl, -⟩ | ⟨phase, m, rfl, -⟩
    · cases q with
      | getCluster k | getDatabase k | getSecret k | getDeployment k | getTidbCluster k => rfl
      | _ => exact absurd trivial hread
    · simp [SdbController.concerns, secret, ownerRef, Cluster.kind]
    · rfl
    · rfl

/-! ### The view -/

theorem created_view {o o' : Option Store} (h : o' = o.map (Store.view k)) :
    created (s.view k) o' = ((created s o).1, (created s o).2.view k) := by
  subst h
  cases o <;> rfl

theorem patched_view {o o' : Option Store} (h : o' = o.map (Store.view k)) :
    patched (s.view k) o' = ((patched s o).1, (patched s o).2.view k) := by
  subst h
  cases o <;> rfl

/-- A request that is recorded, if at all, because it concerns the Cluster, finds in the view what
it finds in the store. -/
theorem answer_view (srv : Server) (q : ApiRequest)
    (hq : q.IsWrite → SdbController.concerns k (.api q)) (s : Store) :
    answer srv q (s.view k) = ((answer srv q s).1, (answer srv q s).2.view k) := by
  have logged (hw : q.IsWrite) (t : Store) :
      (t.view k).log (.api q) = (t.log (.api q)).view k := by
    simp only [Store.view, Store.log, List.filter_cons, hq hw, if_true]
  cases q with
  | getCluster k | getDatabase k | getSecret k | getDeployment k | getTidbCluster k => rfl
  | applyDeployment x =>
    exact congrArg (Prod.mk _) (logged trivial
      { s with deployments := Function.update s.deployments x.metadata.key
                (some (LiveDeployment.applied (s.deployments x.metadata.key) x)) })
  | applyService x =>
    exact congrArg (Prod.mk _) (logged trivial
      { s with services := Function.update s.services x.metadata.key (some x) })
  | createSecret x =>
    refine created_view ?_
    rw [Option.map_map]
    exact congrArg (Option.map · _) (funext fun m => logged trivial { s with secrets := m })
  | createConfigMap x =>
    refine created_view ?_
    rw [Option.map_map]
    exact congrArg (Option.map · _) (funext fun m => logged trivial { s with configMaps := m })
  | createTidbCluster x =>
    refine created_view ?_
    rw [Option.map_map]
    exact congrArg (Option.map · _) (funext fun m => logged trivial { s with tidbClusters := m })
  | mergeClusterStatus k' phase =>
    refine patched_view ?_
    rw [Option.map_map]
    exact congrArg (Option.map · _) (funext fun c => logged trivial
      { s with clusters := Function.update s.clusters k' (some (c.mergeStatus phase)) })
  | mergeDatabaseStatus k' phase m =>
    refine patched_view ?_
    rw [Option.map_map]
    exact congrArg (Option.map · _) (funext fun d => logged trivial
      { s with databases := Function.update s.databases k' (some (d.mergeStatus phase m)) })
  | mergeUserStatus k' phase m =>
    refine patched_view ?_
    rw [Option.map_map]
    exact congrArg (Option.map · _) (funext fun u => logged trivial
      { s with users := Function.update s.users k' (some (u.mergeStatus phase m)) })
  | replaceRootSecret k' ref =>
    have hview : (s.view k).clusters k' = s.clusters k' := rfl
    simp only [answer, hview]
    cases s.clusters k' with
    | none => rfl
    | some c =>
      by_cases hc : c.spec.rootSecret.isSome || srv.replaceMissing
      · simp only [hc, if_true]
        exact congrArg (Prod.mk _) (logged trivial
          { s with clusters := Function.update s.clusters k' (some (c.setRootSecret ref)) })
      · simp only [hc]
        rfl

/-- **A call of the Cluster's own** is served in the view as it is served in the store. -/
theorem Serves.view (hs : Serves srv q s r s') (hq : q.MayWrite → concerns k q) :
    Serves srv q (s.view k) r (s'.view k) := by
  cases q with
  | draw n => exact congrArg (Store.view k) hs
  | http q =>
    have hlog : (s.view k).log (.http q) = (s.log (.http q)).view k := by
      simp only [Store.view, Store.log, List.filter_cons, hq trivial, if_true]
    rcases hs with rfl | ⟨hr, rfl⟩
    · exact .inl hlog.symm
    · exact .inr ⟨hr, rfl⟩
  | api q =>
    have hans := answer_view srv q hq s
    rcases hs with h | ⟨e, he, hr, h⟩
    · refine .inl (Eq.trans ?_ hans.symm)
      rw [← h]
      rfl
    · refine .inr ⟨e, he, hr, ?_⟩
      rcases h with rfl | rfl
      · exact .inl rfl
      · exact .inr (congrArg Prod.snd hans).symm

/-- **A call that is no concern of the Cluster** leaves the view as its environment may. -/
theorem Serves.elsewhere (hs : Serves srv q s r s') (hq : concerns k q = false) :
    ClusterEnv k (s.view k) (s'.view k) := by
  have stay : ClusterEnv k (s.view k) (s.view k) := ⟨fun {x} hx => ⟨x.spec, hx⟩, rfl, rfl, rfl⟩
  rcases hs.cases with rfl | heff
  · exact stay
  have haudit : s'.audit = q :: s.audit := heff.audit
  obtain rfl := heff.store
  refine ⟨fun {x} hx => ⟨x.spec, ?_⟩, ?_, ?_, ?_⟩
  · rcases clusters_effect srv q s k with h | ⟨phase, rfl, -⟩ | ⟨ref, c, rfl, -⟩
    · exact h.trans hx
    · simp [concerns] at hq
    · simp [concerns] at hq
  · rcases deployments_effect srv q s k.workload with h | ⟨x, rfl, hx, -⟩
    · exact congrArg (Option.map LiveDeployment.object) h
    · simp [concerns, hx] at hq
  · rcases services_effect srv q s k.workload with h | ⟨x, rfl, hx, -⟩
    · exact h
    · simp [concerns, hx] at hq
  · simp only [Store.view, haudit, List.filter_cons, hq]
    rfl

end Views

/-! ### Runs -/

section Runs

variable {libs : Externals} {client : Client} {srv : Server} {k : ObjectKey} {l : Resource}
  {h : History Reply} {q : Call} {s : Store}

/-- What an invocation does concerns the Cluster it was started for, and no other. -/
theorem Resource.Conduct.concerns_iff (hq : l.Conduct libs client h q) (hl : l.Admitted) :
    ((l.at k).isSome → q.MayWrite → concerns k q) ∧ (l.at k = none → concerns k q = false) := by
  cases l with
  | cluster c =>
    refine ⟨fun hsome hw => ?_, fun hnone => ?_⟩
    · obtain ⟨c', hc'⟩ := Option.isSome_iff_exists.mp hsome
      obtain ⟨heq, rfl⟩ := Resource.at_eq_some hc'
      obtain rfl := Resource.cluster.inj heq
      exact Cluster.Conduct.concerns hq hl hw
    · refine Cluster.Conduct.not_concerns hq hl fun hk => ?_
      rw [Resource.at, if_pos hk] at hnone
      cases hnone
  | database d => exact ⟨(by rintro ⟨⟩), fun _ => Database.Conduct.not_concerns hq k⟩
  | user u => exact ⟨(by rintro ⟨⟩), fun _ => User.Conduct.not_concerns hq k⟩

/-- No call that concerns a Cluster has taken effect before there was one. -/
structure Tidy (s : Store) : Prop where
  key : ∀ {k c}, s.clusters k = some c → c.key = k
  absent : ∀ {k}, s.clusters k = none → (s.view k).audit = []

/-- No call creates a Cluster, removes one, or moves it. -/
theorem Serves.clusters_key {r : Reply q} {s' : Store} (hs : Serves srv q s r s') (k : ObjectKey) :
    (s'.clusters k).map Cluster.key = (s.clusters k).map Cluster.key := by
  rcases hs.cases with rfl | ⟨rfl, -⟩
  · rfl
  rcases clusters_effect srv q s k with h | ⟨phase, -, h⟩ | ⟨ref, c, -, hc, -, h⟩
  · rw [h]
  · rw [h, Option.map_map]
    rfl
  · rw [h, hc]
    rfl

theorem Serves.clusters_isSome {r : Reply q} {s' : Store} (hs : Serves srv q s r s')
    (k : ObjectKey) : (s'.clusters k).isSome = (s.clusters k).isSome := by
  have hkey := congrArg Option.isSome (hs.clusters_key k)
  rwa [Option.isSome_map, Option.isSome_map] at hkey

/-- What holds in every run. An invocation for a Cluster has one to work on. -/
def fleetOutline (libs : Externals) (client : Client) :
    Outline Resource Reply (Except Error Action) Store where
  store s _ := Tidy s
  task l _ s := l.Admitted ∧ ∀ k, (l.at k).isSome → (s.clusters k).isSome
  guard l := l.Conduct libs client

/-- A call keeps the store tidy. -/
theorem Tidy.call {r : Reply q} {s' : Store} (hI : Tidy s) (hq : l.Conduct libs client h q)
    (hl : l.Admitted) (hstored : ∀ k, (l.at k).isSome → (s.clusters k).isSome)
    (hs : Serves srv q s r s') : Tidy s' where
  key {k c} hc := by
    have hkey := hs.clusters_key k
    rw [hc] at hkey
    obtain ⟨c', hc', heq⟩ := Option.map_eq_some_iff.mp hkey.symm
    exact heq.symm.trans (hI.key hc')
  absent {k} hnone := by
    have hnone' : s.clusters k = none := by
      rw [← Option.not_isSome_iff_eq_none, ← hs.clusters_isSome k, hnone]
      exact Bool.false_ne_true
    have hat : l.at k = none := by
      rw [← Option.not_isSome_iff_eq_none]
      intro hsome
      have hc := hstored k hsome
      rw [hnone'] at hc
      cases hc
    exact (Serves.elsewhere hs ((hq.concerns_iff hl).2 hat)).audit.trans (hI.absent hnone')

/-- Each invocation conducts itself as its kind does. -/
theorem fleet_start_meets {p : Program Reply (Except Error Action)}
    (hs : (fleet libs client srv).start s l p) :
    p.Meets (l.Conduct libs client) (fun _ _ => True) [] := by
  cases l with
  | cluster x =>
    obtain ⟨-, rfl⟩ := hs
    exact x.reconcile_meets.mono (fun _ _ => id) fun _ _ _ => trivial
  | database d =>
    obtain ⟨-, rfl⟩ := hs
    exact (d.reconcile_meets libs client).mono (fun _ _ h => h.2) fun _ _ _ => trivial
  | user u =>
    obtain ⟨-, rfl⟩ := hs
    exact (u.reconcile_meets libs client).mono (fun _ _ h => h.2) fun _ _ _ => trivial

theorem fleet_preserves (libs : Externals) (client : Client) (srv : Server) :
    (fleet libs client srv).Preserves FreshFleet InPlace (fleetOutline libs client) where
  init {s} hs := by
    refine ⟨⟨fun hc => (hs.cluster hc).1, fun {k} _ => ?_⟩, trivial⟩
    rw [Store.view, hs.audit]
    rfl
  env {c s'} hc _ he := by
    have hI : Tidy c.store := hc.store
    have hstays (k : ObjectKey) (hsome : (c.store.clusters k).isSome) :
        ∃ x spec, c.store.clusters k = some x ∧ s'.clusters k = some { x with spec := spec } := by
      obtain ⟨x, hx⟩ := Option.isSome_iff_exists.mp hsome
      obtain ⟨spec, hspec⟩ := (he.cluster k hsome).cluster hx
      exact ⟨x, spec, hx, hspec⟩
    refine ⟨⟨fun {k x} hx => ?_, fun {k} hnone => ?_⟩, fun i l h p hi => ⟨(hc.task hi).1,
      fun k hk => ?_⟩, fun _ _ => trivial⟩
    · cases hold : c.store.clusters k with
      | none => exact (he.created hold hx).1
      | some y =>
        obtain ⟨y, spec, hy, hspec⟩ := hstays k (by rw [hold]; rfl)
        rw [Option.some.inj (hx.symm.trans hspec)]
        exact show y.key = k from hI.key hy
    · have hold : c.store.clusters k = none := by
        rw [← Option.not_isSome_iff_eq_none]
        intro hsome
        obtain ⟨x, spec, -, hspec⟩ := hstays k hsome
        rw [hnone] at hspec
        cases hspec
      exact (congrArg (List.filter (concerns k)) he.audit).trans (hI.absent hold)
    · obtain ⟨x, spec, -, hspec⟩ := hstays k ((hc.task hi).2 k hk)
      rw [hspec]
      rfl
  start {c i l p} hc _ hm hs := by
    refine ⟨hc.store, ⟨hm.2, fun k hk => ?_⟩, fleet_start_meets hs⟩
    obtain ⟨x, hx⟩ := Option.isSome_iff_exists.mp hk
    obtain ⟨rfl, rfl⟩ := Resource.at_eq_some hx
    rw [show c.store.clusters x.key = some x from hs.1]
    rfl
  call hc hi hG _ hs := by
    obtain ⟨hl, hstored⟩ := hc.task hi
    refine ⟨Tidy.call hc.store hG hl hstored hs, hl, fun k hk => ?_⟩
    rw [Serves.clusters_isSome hs]
    exact hstored k hk
  frame hc _ _ _ hs _ := by
    refine ⟨fun l h p hj => ⟨(hc.task hj).1, fun k hk => ?_⟩, fun _ => trivial⟩
    rw [Serves.clusters_isSome hs]
    exact (hc.task hj).2 k hk
  finish _ _ _ _ := trivial
  crash _ _ _ := trivial

/-! ### What one Cluster sees -/

/-- There is no Cluster at `k`, and there has been none. -/
def Unborn (k : ObjectKey) (s : Store) : Prop := s.clusters k = none ∧ s.audit = []

/-- From its slot, the Cluster at `k` sees `clusterSystem`. -/
theorem fleet_focus (libs : Externals) (client : Client) (srv : Server) (k : ObjectKey) :
    Focus (fleet libs client srv) (clusterSystem srv k) (Unborn k) (Fresh k) (.cluster k)
      (Resource.at k) (Store.view k) fun c m => InPlace c m ∧ c.Sound (fleetOutline libs client)
    where
  env {c s'} hm he := by
    have hI : Tidy c.store := hm.2.store
    have haudit : (s'.view k).audit = (c.store.view k).audit :=
      congrArg (List.filter _) he.audit
    refine ⟨fun hpre => ?_, fun hpre => ?_⟩
    · cases hnew : s'.clusters k with
      | none => exact .inl ⟨hnew, haudit.trans hpre.2⟩
      | some x => exact .inr ⟨⟨x, hnew, he.created hpre.1 hnew⟩, haudit.trans hpre.2⟩
    · have hsome : (c.store.clusters k).isSome := by
        rw [Option.isSome_iff_ne_none]
        exact fun hnone => hpre ⟨hnone, hI.absent hnone⟩
      have henv := he.cluster k hsome
      exact ⟨henv.cluster, henv.deployment, henv.service, haudit⟩
  slot := by
    rintro c j l p ⟨⟨rfl, -⟩, -⟩ -
    exact Resource.isSome_at
  start := by
    rintro c j l l' p - hl hs
    obtain ⟨rfl, rfl⟩ := Resource.at_eq_some hl
    refine ⟨fun hpre => ?_, hs⟩
    have hstored : c.store.clusters l'.key = some l' := hs.1
    rw [show c.store.clusters l'.key = none from hpre.1] at hstored
    cases hstored
  own := by
    rintro c j l l' h q f r s' ⟨-, hc⟩ hi hl hs
    exact Serves.view hs
      ((Resource.Conduct.concerns_iff (k := k) (hc.rest hi).1 (hc.task hi).1).1 (by rw [hl]; rfl))
  other := by
    rintro c j l h q f r s' ⟨-, hc⟩ hi hl hs
    have helse := Serves.elsewhere hs
      ((Resource.Conduct.concerns_iff (k := k) (hc.rest hi).1 (hc.task hi).1).2 hl)
    refine ⟨fun hpre => .inl ⟨?_, helse.audit.trans hpre.2⟩, fun _ => helse⟩
    rw [← Option.not_isSome_iff_eq_none]
    intro hsome
    have hold := Serves.clusters_isSome hs k
    rw [show c.store.clusters k = none from hpre.1] at hold
    exact Bool.false_ne_true (hold.symm.trans hsome)

/-- **What each Cluster sees of all controllers is the Cluster controller on its own.** Every run of
the three controllers on any number of resources, from a store in which nothing was reconciled yet,
is seen from a stored Cluster a run of `clusterSystem`. The moves of that run meet what the seen
moves meet. -/
theorem fleet_refines (libs : Externals) (client : Client) (srv : Server) (k : ObjectKey)
    {ok : Run Unit → RunMove Unit → Prop} {c : FleetRun}
    (hc : (fleet libs client srv).Reachable FreshFleet (fun c m => InPlace c m ∧
      ∀ m', m.only (Resource.at k) (Store.view k) = some m' →
        ok (c.only (.cluster k) (Resource.at k) (Store.view k)) m') c)
    (hk : (c.store.clusters k).isSome) :
    (clusterSystem srv k).Reachable (Fresh k) ok
      (c.only (.cluster k) (Resource.at k) (Store.view k)) := by
  have hsound := ((fleet_preserves libs client srv).mono fun _ _ hm => hm.1).reachable hc
  refine ((fleet_focus libs client srv k).reachable (fun {s} hs => ?_) (fun {d} hd hpre => ?_)
    (hsound.mono _ fun c m hm => ⟨⟨hm.1.1, hm.2⟩, fun m' hm' _ => hm.1.2 m' hm'⟩)).resolve_left
    fun hpre => ?_
  · cases hx : s.clusters k with
    | none => exact .inl ⟨hx, by rw [Store.view, hs.audit]; rfl⟩
    | some x => exact .inr ⟨⟨x, hx, hs.cluster hx⟩, by rw [Store.view, hs.audit]; rfl⟩
  · obtain ⟨x, hx, -⟩ := ((trivial_invariance srv k).sound (hd.mono _ fun _ _ _ => trivial)).store.1
    rw [show d.store.clusters k = none from hpre.1] at hx
    cases hx
  · rw [show c.store.clusters k = none from hpre.1] at hk
    cases hk

/-! ### For every Cluster -/

theorem concerns_of_appliedBy {x : Deployment} (hq : appliedBy k q = some x) : concerns k q := by
  obtain ⟨rfl, hx⟩ := appliedBy_eq_some hq
  exact decide_eq_true hx

/-- The view has all the Deployments that were applied for the Cluster. -/
theorem applied_view (k : ObjectKey) (s : Store) :
    applied k (s.view k).audit = applied k s.audit := by
  rw [applied, applied, Store.view, List.filterMap_filter]
  refine congrArg (List.filterMap · s.audit) (funext fun q => ?_)
  cases hq : appliedBy k q with
  | none => exact ite_self none
  | some x => exact if_pos (concerns_of_appliedBy hq)

theorem Bootstrapped.of_view (hs : Bootstrapped k (s.view k).audit) : Bootstrapped k s.audit := by
  obtain ⟨c, user, pass, hc, hmem⟩ := hs
  exact ⟨c, user, pass, hc, List.mem_of_mem_filter hmem⟩

/-- **Authentication never regresses for any Cluster**, whatever the other invocations of the three
controllers do at the same time. -/
theorem fleet_authentication (libs : Externals) (client : Client) (srv : Server) {c : FleetRun}
    (hc : (fleet libs client srv).Reachable FreshFleet InPlace c) (k : ObjectKey)
    (hk : (c.store.clusters k).isSome) :
    ((applied k c.store.audit).Pairwise fun newer older =>
        older.Authenticated → newer.Authenticated) ∧
      (∀ p, c.store.phase k = some p → p.Early → Open k c.store.audit) ∧
      (∀ p, c.store.phase k = some p → p.Late → Bootstrapped k c.store.audit) ∧
      ∀ p, c.store.phase k = some p → p = .ready ∨ p = .notReady → Closed k c.store.audit := by
  have hrun : (clusterSystem srv k).Reachable (Fresh k) System.anyMove
      (c.only (.cluster k) (Resource.at k) (Store.view k)) :=
    fleet_refines libs client srv k (hc.mono _ fun _ _ hm => ⟨hm, fun _ _ => trivial⟩) hk
  obtain ⟨-, hS⟩ := ((secured_invariance srv k).sound hrun).store
  have hsecured : Secured k (c.store.view k) := hS
  refine ⟨?_, fun p hp he => ?_, fun p hp hl => ?_, fun p hp hr => ?_⟩
  · rw [← applied_view]
    exact hsecured.ordered
  · have hopen := hsecured.early hp he
    rwa [Open, applied_view] at hopen
  · exact (hsecured.late hp hl).of_view
  · have hclosed := hsecured.closed hp hr
    rwa [Closed, applied_view] at hclosed

/-! ### Whose pods a Service reaches -/

/-- Every call that took effect was made in an invocation for some resource. -/
def Attributed (libs : Externals) (client : Client) (audit : List Call) : Prop :=
  ∀ q ∈ audit, ∃ (l : Resource) (h : History Reply), l.Conduct libs client h q

theorem Attributed.call {r : Reply q} {s' : Store}
    (ha : Attributed libs client s.audit) (hq : l.Conduct libs client h q)
    (hs : Serves srv q s r s') : Attributed libs client s'.audit := by
  rcases hs.audit_cases with haudit | haudit
  · rwa [haudit]
  · intro q' hq'
    rw [haudit] at hq'
    rcases List.mem_cons.mp hq' with rfl | hq'
    · exact ⟨l, h, hq⟩
    · exact ha q' hq'

theorem attributed_preserves (libs : Externals) (client : Client) (srv : Server) :
    (fleet libs client srv).Preserves FreshFleet (System.anyMove (ι := Slot))
      { store := fun s _ => Attributed libs client s.audit
        task := fun _ _ _ => True
        guard := fun l => l.Conduct libs client } where
  init {s} hs := by
    refine ⟨fun q hq => ?_, trivial⟩
    rw [hs.audit] at hq
    exact absurd hq List.not_mem_nil
  env {c s'} hc _ he := by
    refine ⟨fun q hq => ?_, fun _ _ _ _ _ => trivial, fun _ _ => trivial⟩
    rw [he.audit] at hq
    exact hc.store q hq
  start hc _ _ hs := ⟨hc.store, trivial, fleet_start_meets hs⟩
  call hc _ hG _ hs := ⟨Attributed.call hc.store hG hs, trivial⟩
  frame _ _ _ _ _ _ := ⟨fun _ _ _ _ => trivial, fun _ => trivial⟩
  finish _ _ _ _ := trivial
  crash _ _ _ := trivial

/-- An applied Deployment was built for a Cluster. -/
theorem Resource.Conduct.deployment {x : Deployment}
    (hq : l.Conduct libs client h (.api (.applyDeployment x))) :
    ∃ (c : Cluster) (m : Bool), x = c.buildSurrealDeployment c.name m := by
  cases l with
  | cluster c =>
    obtain ⟨m, rfl, -⟩ := hq
    exact ⟨c, m, rfl⟩
  | database d => exact absurd trivial (show ¬ True from hq)
  | user u => exact absurd trivial (show ¬ True ∧ _ from hq).1

/-- An applied Service was built for a Cluster. -/
theorem Resource.Conduct.service {x : Service}
    (hq : l.Conduct libs client h (.api (.applyService x))) :
    ∃ c : Cluster, x = c.buildSurrealService c.name := by
  cases l with
  | cluster c =>
    obtain ⟨rfl, -⟩ := hq
    exact ⟨c, rfl⟩
  | database d => exact absurd trivial (show ¬ True from hq)
  | user u => exact absurd trivial (show ¬ True ∧ _ from hq).1

/-- The Service selects the pods of the template. -/
def Service.Selects (y : Service) (x : Deployment) : Prop :=
  y.metadata.ns = x.metadata.ns ∧ ∀ e ∈ y.selector, e ∈ x.template.labels

/-- The labels of a Cluster's pods are those of no other Cluster in its namespace. -/
theorem Cluster.labels_subset_iff {c c' : Cluster} :
    (∀ e ∈ c.labels (c.name ++ "-surrealdb"), e ∈ c'.labels (c'.name ++ "-surrealdb")) ↔
      c.name = c'.name := by
  refine ⟨fun hsub => ?_, fun hname => ?_⟩
  · have hmem := hsub ("surrealdb.aexol.com/cluster", c.name) (by simp [labels])
    rw [labels, List.mem_append] at hmem
    rcases hmem with hmem | hmem
    · simpa using hmem
    · split at hmem <;> simp at hmem
  · rw [labels, labels, hname]
    exact fun _ => id

/-- **A Service reaches the pods of its own Cluster and no others**, and a Deployment keeps its
selector for good. -/
theorem fleet_workloads (libs : Externals) (client : Client) (srv : Server) {c : FleetRun}
    (hc : (fleet libs client srv).Reachable FreshFleet System.anyMove c) :
    (∀ x y, .api (.applyDeployment x) ∈ c.store.audit → .api (.applyService y) ∈ c.store.audit →
      (y.Selects x ↔ y.metadata.key = x.metadata.key)) ∧
    ∀ x x', .api (.applyDeployment x) ∈ c.store.audit →
      .api (.applyDeployment x') ∈ c.store.audit → x.metadata.key = x'.metadata.key →
      x.matchLabels = x'.matchLabels ∧ ∀ e ∈ x.matchLabels, e ∈ x'.template.labels := by
  have hA : Attributed libs client c.store.audit :=
    ((attributed_preserves libs client srv).sound hc).store
  refine ⟨fun x y hx hy => ?_, fun x x' hx hx' hkey => ?_⟩
  · obtain ⟨l, h, hq⟩ := hA _ hx
    obtain ⟨a, m, rfl⟩ := hq.deployment
    obtain ⟨l', h', hq'⟩ := hA _ hy
    obtain ⟨b, rfl⟩ := hq'.service
    rw [Cluster.buildSurrealDeployment_key, Cluster.buildSurrealService_key, Cluster.workloadKey,
      Cluster.workloadKey, ObjectKey.mk.injEq, String.append_left_inj, ← Cluster.labels_subset_iff]
    rfl
  · obtain ⟨l, h, hq⟩ := hA _ hx
    obtain ⟨a, m, rfl⟩ := hq.deployment
    obtain ⟨l', h', hq'⟩ := hA _ hx'
    obtain ⟨b, m', rfl⟩ := hq'.deployment
    rw [Cluster.buildSurrealDeployment_key, Cluster.buildSurrealDeployment_key, Cluster.workloadKey,
      Cluster.workloadKey, ObjectKey.mk.injEq, String.append_left_inj] at hkey
    have hlabels : a.labels (a.name ++ "-surrealdb") = b.labels (b.name ++ "-surrealdb") := by
      rw [Cluster.labels, Cluster.labels, hkey.2]
    exact ⟨hlabels, Cluster.labels_subset_iff.mpr hkey.2⟩

end Runs

/-! ### Two Clusters side by side -/

/-- Another Cluster in the namespace of the first. -/
def neighbour : Cluster := { sampleCluster with name := "cache", uid := "3" }

/-- A store with both Clusters, and a Database on the first. -/
def neighbourhood : Store :=
  { tenantStore sampleUser with
    clusters := Function.update (Function.update (fun _ => none) sampleCluster.key
      (some sampleCluster)) neighbour.key (some neighbour) }

theorem freshFleet_neighbourhood : FreshFleet neighbourhood where
  cluster {k c} hc := by
    by_cases hn : k = neighbour.key
    · subst hn
      obtain rfl : neighbour = c := Option.some.inj hc
      exact ⟨rfl, rfl⟩
    · rw [show neighbourhood.clusters k = Function.update (fun _ => none) sampleCluster.key
        (some sampleCluster) k from Function.update_of_ne hn ..] at hc
      by_cases hk : k = sampleCluster.key
      · subst hk
        rw [Function.update_self] at hc
        obtain rfl := Option.some.inj hc
        exact ⟨rfl, rfl⟩
      · rw [Function.update_of_ne hk] at hc
        cases hc
  audit := rfl

/-- An invocation that is played in the slot of its resource. -/
theorem inPlace_of_played {server : (q : Call) → Store → Reply q × Store} {l : Resource}
    {p : Program Reply (Except Error Action)} {c : FleetRun} {m : FleetMove} (hl : l.Admitted)
    (hm : System.Played server l.slot l p c m) : InPlace c m := by
  cases hm with
  | start => exact ⟨rfl, hl⟩
  | call hp => trivial
  | finish hp => trivial

/-- The pods of one Cluster are rolled out. -/
theorem fleetEnv_rollOut (k : ObjectKey) (s : Store) : FleetEnv s (rollOut k s) where
  cluster k' _ := by
    refine ⟨fun {x} hx => ⟨x.spec, hx⟩, ?_, rfl, rfl⟩
    rcases eq_or_ne k'.workload k.workload with heq | hne
    · obtain rfl := ObjectKey.workload_inj heq
      exact (clusterEnv_rollOut k' s).deployment
    · exact congrArg (Option.map LiveDeployment.object) (Function.update_of_ne hne ..)
  created {k' x} hnone hsome := by
    have hold : s.clusters k' = some x := hsome
    rw [hnone] at hold
    cases hold
  audit := rfl

/-- An idle slot can play one whole invocation for the Cluster stored there. -/
theorem fleet_invoke {libs : Externals} {client : Client} {srv : Server} {k : ObjectKey}
    {c : FleetRun} (hc : (fleet libs client srv).Reachable FreshFleet InPlace c)
    (hi : c.running (.cluster k) = none)
    (hx : ∀ {x}, c.store.clusters k = some x → x.key = k ∧ (Resource.cluster x).Admitted)
    (hsome : (c.store.clusters k).isSome) :
    ∃ c', (fleet libs client srv).Reachable FreshFleet InPlace c' ∧
      c'.store = invoke srv k (fun _ => false) c.store ∧ c'.running = c.running := by
  obtain ⟨x, hstored⟩ := Option.isSome_iff_exists.mp hsome
  obtain ⟨rfl, hadm⟩ := hx hstored
  have hstart : (fleet libs client srv).start c.store (.cluster x) x.reconcile.run := ⟨hstored, rfl⟩
  obtain ⟨c', hc', hs, hrun⟩ := hc.play (serves_respond srv fun _ => false)
    (fun _ _ => inPlace_of_played hadm) hi hstart
  refine ⟨c', hc', ?_, hrun⟩
  rw [hs, invoke, hstored]

theorem admitted_sampleCluster : (Resource.cluster sampleCluster).Admitted :=
  ⟨⟨by decide, List.all_iff_forall_prop.mp (by decide), by decide⟩,
    ⟨by decide, List.all_iff_forall_prop.mp (by decide), by decide⟩⟩

theorem admitted_neighbour : (Resource.cluster neighbour).Admitted :=
  ⟨⟨by decide, List.all_iff_forall_prop.mp (by decide), by decide⟩, admitted_sampleCluster.2⟩

/-- The store after the first invocations for both Clusters. -/
def overlappedStore : Store :=
  let server := respond ⟨false⟩ fun _ => false
  (sampleCluster.reconcile.run.eval server (neighbour.reconcile.run.eval server neighbourhood).2).2

/-- The first Cluster is then taken to `Ready`. -/
def overlappedReadyStore : Store :=
  let step := invoke ⟨false⟩ sampleCluster.key fun _ => false
  step (step (rollOut sampleCluster.key overlappedStore))

/-- A run in which the first invocations for both Clusters overlap, and the first Cluster then gets
to `Ready`. -/
theorem exists_overlapping : ∃ c : FleetRun,
    (fleet sampleExternals .kube ⟨false⟩).Reachable FreshFleet InPlace c ∧
      c.store = overlappedReadyStore := by
  have h₀ : (fleet sampleExternals .kube ⟨false⟩).Reachable FreshFleet InPlace
      (⟨neighbourhood, fun _ => none, []⟩ : FleetRun) := .init freshFleet_neighbourhood
  have hstart₁ : (fleet sampleExternals .kube ⟨false⟩).start neighbourhood
      (.cluster sampleCluster) sampleCluster.reconcile.run := ⟨rfl, rfl⟩
  have hstart₂ : (fleet sampleExternals .kube ⟨false⟩).start neighbourhood
      (.cluster neighbour) neighbour.reconcile.run := ⟨rfl, rfl⟩
  -- both are started before either makes a call
  have h₁ := h₀.step (m := .start (.cluster sampleCluster.key) _) ⟨rfl, admitted_sampleCluster⟩
    (.start rfl hstart₁)
  have h₂ := h₁.step (m := .start (.cluster neighbour.key) _) ⟨rfl, admitted_neighbour⟩
    (.start rfl hstart₂)
  obtain ⟨c₃, h₃, hs₃, hrun₃⟩ := h₂.play_running (i := .cluster neighbour.key)
    (serves_respond ⟨false⟩ fun _ => false) (fun _ _ => inPlace_of_played admitted_neighbour)
    .start rfl
  obtain ⟨c₄, h₄, hs₄, hrun₄⟩ := h₃.play_running (i := .cluster sampleCluster.key)
    (serves_respond ⟨false⟩ fun _ => false) (fun _ _ => inPlace_of_played admitted_sampleCluster)
    .start (by rw [hrun₃]; rfl)
  have hidle : c₄.running (.cluster sampleCluster.key) = none := by
    rw [hrun₄]
    exact Function.update_self ..
  have hstore : c₄.store = overlappedStore := by
    rw [hs₄, hs₃]
    rfl
  -- then the pods of the first become available, and it is reconciled twice more
  have hadm (s : Store) (hs : (s.clusters sampleCluster.key).map (·.key) = some sampleCluster.key)
      {x : Cluster} (hx : s.clusters sampleCluster.key = some x) :
      x.key = sampleCluster.key ∧ (Resource.cluster x).Admitted := by
    rw [hx, Option.map_some, Option.some.injEq, Cluster.key, Cluster.key, ObjectKey.mk.injEq] at hs
    obtain ⟨hns, hname⟩ := hs
    rw [Resource.Admitted, hns, hname, Cluster.key, Cluster.key, ObjectKey.mk.injEq]
    exact ⟨⟨hns, hname⟩, admitted_sampleCluster⟩
  obtain ⟨c₅, h₅, hs₅, hi₅⟩ : ∃ c : FleetRun,
      (fleet sampleExternals .kube ⟨false⟩).Reachable FreshFleet InPlace c ∧
        c.store = rollOut sampleCluster.key overlappedStore ∧
        c.running (.cluster sampleCluster.key) = none :=
    ⟨_, h₄.step (m := .env _) trivial (.env (fleetEnv_rollOut sampleCluster.key c₄.store)),
      congrArg (rollOut sampleCluster.key) hstore, hidle⟩
  obtain ⟨c₆, h₆, hs₆, hrun₆⟩ := fleet_invoke h₅ hi₅
    (hadm _ (by rw [hs₅]; decide)) (by rw [hs₅]; decide)
  obtain ⟨c₇, h₇, hs₇, -⟩ := fleet_invoke (k := sampleCluster.key) h₆ (hrun₆ ▸ hi₅)
    (hadm _ (by rw [hs₆, hs₅]; decide)) (by rw [hs₆, hs₅]; decide)
  refine ⟨c₇, h₇, ?_⟩
  rw [hs₇, hs₆, hs₅]
  rfl

/-- What the two Clusters see of that run is a run of their own each. -/
theorem fleet_refines_overlapping : ∃ c : FleetRun, c.store = overlappedReadyStore ∧
    (clusterSystem ⟨false⟩ sampleCluster.key).Reachable (Fresh sampleCluster.key) System.anyMove
      (c.only (.cluster sampleCluster.key) (Resource.at sampleCluster.key)
        (Store.view sampleCluster.key)) ∧
    (clusterSystem ⟨false⟩ neighbour.key).Reachable (Fresh neighbour.key) System.anyMove
      (c.only (.cluster neighbour.key) (Resource.at neighbour.key) (Store.view neighbour.key)) := by
  obtain ⟨c, hc, hs⟩ := exists_overlapping
  refine ⟨c, hs, ?_, ?_⟩
  · exact fleet_refines sampleExternals .kube ⟨false⟩ sampleCluster.key
      (hc.mono _ fun _ _ hm => ⟨hm, fun _ _ => trivial⟩) (by rw [hs]; decide)
  · exact fleet_refines sampleExternals .kube ⟨false⟩ neighbour.key
      (hc.mono _ fun _ _ hm => ⟨hm, fun _ _ => trivial⟩) (by rw [hs]; decide)

/-- The first Cluster in that run is closed, and the second is still on its way. -/
theorem fleet_authentication_overlapping : ∃ c : FleetRun,
    c.store.phase sampleCluster.key = some .ready ∧
      c.store.phase neighbour.key = some .inCreation ∧ Closed sampleCluster.key c.store.audit ∧
      (applied neighbour.key c.store.audit).Pairwise fun newer older =>
        older.Authenticated → newer.Authenticated := by
  obtain ⟨c, hc, hs⟩ := exists_overlapping
  have hfirst : c.store.phase sampleCluster.key = some .ready := by
    rw [hs]
    decide
  have hsecond : c.store.phase neighbour.key = some .inCreation := by
    rw [hs]
    decide
  obtain ⟨-, -, -, hclosed⟩ := fleet_authentication sampleExternals .kube ⟨false⟩ hc
    sampleCluster.key (by rw [hs]; decide)
  obtain ⟨hordered, -⟩ := fleet_authentication sampleExternals .kube ⟨false⟩ hc
    neighbour.key (by rw [hs]; decide)
  exact ⟨c, hfirst, hsecond, hclosed _ hfirst (.inl rfl), hordered⟩

/-- In that run both Services were applied after both Deployments: each selects the pods of its own
Deployment and not those of the other. -/
theorem fleet_workloads_overlapping :
    (sampleCluster.buildSurrealService sampleCluster.name).Selects
        (sampleCluster.buildSurrealDeployment sampleCluster.name false) ∧
      ¬ (sampleCluster.buildSurrealService sampleCluster.name).Selects
        (neighbour.buildSurrealDeployment neighbour.name true) := by
  obtain ⟨c, hc, hs⟩ := exists_overlapping
  obtain ⟨hselects, -⟩ := fleet_workloads sampleExternals .kube ⟨false⟩
    (hc.mono _ fun _ _ _ => trivial)
  rw [hs] at hselects
  have hservice : Call.api (.applyService (sampleCluster.buildSurrealService sampleCluster.name)) ∈
      overlappedReadyStore.audit := List.mem_of_getElem? (i := 1) rfl
  refine ⟨(hselects _ _ (List.mem_of_getElem? (i := 2) rfl) hservice).mpr rfl, fun hsel => ?_⟩
  have hkey := (hselects _ _ (List.mem_of_getElem? (i := 11) rfl) hservice).mp hsel
  exact absurd hkey (by decide)

end SdbController
