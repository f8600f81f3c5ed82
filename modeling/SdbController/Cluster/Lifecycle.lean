import SdbController.Cluster.Conduct
import SdbController.Kubernetes.Effect

/-!
# Runs of the Cluster controller

`clusterSystem srv k` runs invocations of `Cluster.reconcile` on the Cluster stored at `k`. Each
slot is one controller process, so a run with a single slot is sequential. Between calls the
environment does what `ClusterEnv` allows: anything but writing the Cluster's status, removing it,
or writing its Deployment and Service.

What has happened so far is read off the audit: `applied` lists the Deployments that were applied,
`Served` and `Bootstrapped` say that a Service and a bootstrap request were.

## Main results

* `Invariance.sound` — the invariant rule for this system. Its clauses come with what is known about
  a call: that the invocation conducts itself (`Cluster.Conduct`), and that it acts on this Cluster.
-/

namespace SdbController

open Interaction

/-- Where the Deployment and the Service of the Cluster at `k` are. -/
def ObjectKey.workload (k : ObjectKey) : ObjectKey := ⟨k.ns, k.name ++ "-surrealdb"⟩

theorem Cluster.workloadKey_eq (c : Cluster) : c.workloadKey = c.key.workload := rfl

/-- The Deployment stored for the Cluster at `k`. -/
def Store.deployment (s : Store) (k : ObjectKey) : Option Deployment :=
  (s.deployments k.workload).map LiveDeployment.object

/-- What the environment may do between two calls. -/
structure ClusterEnv (k : ObjectKey) (s s' : Store) : Prop where
  /-- The spec may be edited. Status and identity stay. -/
  cluster : ∀ {x}, s.clusters k = some x → ∃ spec, s'.clusters k = some { x with spec := spec }
  /-- Pods come and go. The Deployment object stays. -/
  deployment : s'.deployment k = s.deployment k
  service : s'.services k.workload = s.services k.workload
  audit : s'.audit = s.audit

/-- A Cluster that was never reconciled. -/
structure Fresh (k : ObjectKey) (s : Store) : Prop where
  stored : ∃ c, s.clusters k = some c ∧ c.key = k ∧ c.phase = .new
  audit : s.audit = []

/-- Invocations of `Cluster.reconcile`, each started from the stored Cluster. -/
def clusterSystem (srv : Server) (k : ObjectKey) :
    System Cluster Reply (Except Error Action) Store where
  start s c p := s.clusters k = some c ∧ p = c.reconcile.run
  serve := Serves srv
  env := ClusterEnv k

/-- A configuration of the system, with one process per element of `ι`. -/
abbrev Run (ι : Type) : Type := Config ι Cluster Reply (Except Error Action) Store

/-- A move of the system. -/
abbrev RunMove (ι : Type) : Type := Move ι Cluster Reply Store

/-! ### What has happened so far -/

/-- The Deployment that a call applies for the Cluster at `k`. -/
def appliedBy (k : ObjectKey) : Call → Option Deployment
  | .api (.applyDeployment x) => if x.metadata.key = k.workload then some x else none
  | _ => none

/-- The Deployments applied for the Cluster at `k`, the newest first. -/
def applied (k : ObjectKey) (audit : List Call) : List Deployment := audit.filterMap (appliedBy k)

/-- A Service was applied for the Cluster at `k`. -/
def Served (k : ObjectKey) (audit : List Call) : Prop :=
  ∃ x, x.metadata.key = k.workload ∧ Call.api (.applyService x) ∈ audit

/-- A bootstrap request of the Cluster at `k` was accepted. -/
def Bootstrapped (k : ObjectKey) (audit : List Call) : Prop :=
  ∃ c : Cluster, ∃ user pass, c.key = k ∧ Call.http (c.bootstrapRequest c.name user pass) ∈ audit

/-- The Deployment was built in the given mode. -/
def Deployment.BuiltIn (creationMode : Bool) (d : Deployment) : Prop :=
  ∃ c : Cluster, d = c.buildSurrealDeployment c.name creationMode

theorem Deployment.BuiltIn.authenticated_iff {m : Bool} {d : Deployment} (h : d.BuiltIn m) :
    d.Authenticated ↔ m = false := by
  obtain ⟨c, rfl⟩ := h
  exact c.authenticated_build c.name m

section Views

variable {k : ObjectKey} {audit : List Call}

@[simp] theorem applied_deployCall {c : Cluster} (hc : c.key = k) (m : Bool) :
    applied k (c.deployCall m :: audit) = c.buildSurrealDeployment c.name m :: applied k audit := by
  have hkey : (c.buildSurrealDeployment c.name m).metadata.key = k.workload := by
    rw [Cluster.buildSurrealDeployment_key, Cluster.workloadKey_eq, hc]
  simp only [applied, Cluster.deployCall, List.filterMap_cons, appliedBy, if_pos hkey]

theorem appliedBy_eq_some {q : Call} {x : Deployment} (h : appliedBy k q = some x) :
    q = .api (.applyDeployment x) ∧ x.metadata.key = k.workload := by
  unfold appliedBy at h
  split at h
  · split at h
    · next hkey =>
      cases h
      exact ⟨rfl, hkey⟩
    · cases h
  · cases h

theorem applied_cons_of_none {q : Call} (hq : appliedBy k q = none) :
    applied k (q :: audit) = applied k audit := by
  simp only [applied, List.filterMap_cons, hq]

theorem Served.cons (q : Call) (h : Served k audit) : Served k (q :: audit) := by
  obtain ⟨x, hx, hmem⟩ := h
  exact ⟨x, hx, List.mem_cons_of_mem _ hmem⟩

theorem Bootstrapped.cons (q : Call) (h : Bootstrapped k audit) : Bootstrapped k (q :: audit) := by
  obtain ⟨c, u, p, hc, hmem⟩ := h
  exact ⟨c, u, p, hc, List.mem_cons_of_mem _ hmem⟩

end Views

/-! ### What one call of an invocation changes -/

section Step

variable {srv : Server} {k : ObjectKey} {c : Cluster} {h : History Reply} {q : Call} {r : Reply q}
  {s s' : Store}

/-- The audit grows by the call or stays. -/
theorem Serves.audit_cases (hs : Serves srv q s r s') :
    s'.audit = s.audit ∨ s'.audit = q :: s.audit := by
  rcases hs.cases with rfl | heff
  · exact .inl rfl
  · exact .inr heff.audit

/-- The stored phase changes only by the invocation's own status write. -/
theorem Serves.phase_cases (hs : Serves srv q s r s') (hsome : (s.phase k).isSome)
    (hq : c.Conduct h q) : s'.phase k = s.phase k ∨
      ∃ p, q = c.phaseWrite p ∧ c.Writes h p ∧ s'.phase k = some p := by
  rcases hs.cases with rfl | ⟨rfl, -⟩
  · exact .inl rfl
  rcases phase_effect srv q s k with hp | ⟨p, rfl, hp⟩
  · exact .inl hp
  · obtain ⟨hkey, hw⟩ := hq
    obtain ⟨p', hp'⟩ := Option.isSome_iff_exists.mp hsome
    refine .inr ⟨p, by rw [Cluster.phaseWrite, hkey], hw, ?_⟩
    rw [hp, hp', Option.map_some]

/-- The Deployments applied grow only by the invocation's own Deployment write. -/
theorem Serves.applied_cases (hs : Serves srv q s r s') (hk : c.key = k) (hq : c.Conduct h q) :
    applied k s'.audit = applied k s.audit ∨ ∃ m, q = c.deployCall m ∧ c.Deploys h m ∧
      s'.audit = q :: s.audit ∧
      applied k s'.audit = c.buildSurrealDeployment c.name m :: applied k s.audit := by
  rcases hs.audit_cases with ha | ha
  · exact .inl (by rw [ha])
  · by_cases hd : appliedBy k q = none
    · exact .inl (by rw [ha, applied_cons_of_none hd])
    · -- the only call of an invocation that applies a Deployment is its own
      obtain ⟨x, hx⟩ := Option.ne_none_iff_exists'.mp hd
      obtain ⟨rfl, -⟩ := appliedBy_eq_some hx
      obtain ⟨m, rfl, hm⟩ := hq
      exact .inr ⟨m, rfl, hm, ha, by rw [ha]; exact applied_deployCall hk m⟩

theorem Served.serves (hs : Serves srv q s r s') (h : Served k s.audit) : Served k s'.audit := by
  rcases hs.audit_cases with ha | ha
  · rwa [ha]
  · rw [ha]
    exact h.cons q

theorem Bootstrapped.serves (hs : Serves srv q s r s') (h : Bootstrapped k s.audit) :
    Bootstrapped k s'.audit := by
  rcases hs.audit_cases with ha | ha
  · rwa [ha]
  · rw [ha]
    exact h.cons q

/-- The reply `deployed` means that the Deployment was applied. -/
theorem Serves.deployed {m : Bool} (hs : Serves srv q s r s') (hk : c.key = k)
    (hr : (⟨q, r⟩ : Σ q, Reply q) = c.deployed m) :
    applied k s'.audit = c.buildSurrealDeployment c.name m :: applied k s.audit := by
  cases hr
  rw [(hs.accepted ⟨trivial, (), rfl⟩).audit]
  exact applied_deployCall hk m

/-- The reply `served` means that the Service was applied. -/
theorem Serves.served (hs : Serves srv q s r s') (hk : c.key = k)
    (hr : (⟨q, r⟩ : Σ q, Reply q) = c.served) : Served k s'.audit := by
  cases hr
  rw [(hs.accepted ⟨trivial, (), rfl⟩).audit]
  refine ⟨c.buildSurrealService c.name, ?_, List.mem_cons_self⟩
  rw [Cluster.buildSurrealService_key, Cluster.workloadKey_eq, hk]

/-- A successful response to a bootstrap request means that the request was accepted. -/
theorem Serves.bootstrapped {u p : String} {out : HttpOutcome} (hs : Serves srv q s r s')
    (hk : c.key = k) (hr : (⟨q, r⟩ : Σ q, Reply q) = c.bootstrapped u p out)
    (hout : out.IsSuccess) : Bootstrapped k s'.audit := by
  cases hr
  rw [(hs.accepted hout).audit]
  exact ⟨c, u, p, hk, List.mem_cons_self⟩

end Step

/-! ### The invariant rule -/

section Rule

variable {ι : Type} {srv : Server} {k : ObjectKey} {ok : Run ι → RunMove ι → Prop}
  {I : Store → List (Cluster × History Reply) → Prop} {T : Cluster → History Reply → Store → Prop}
  {J : Store → Prop}

/-- The outline of an invariance proof: `I` about the store, `T` about a running invocation, `J`
about an idle process. -/
def clusterOutline (k : ObjectKey) (I : Store → List (Cluster × History Reply) → Prop)
    (T : Cluster → History Reply → Store → Prop) (J : Store → Prop) :
    Outline Cluster Reply (Except Error Action) Store where
  store s record := (∃ c, s.clusters k = some c ∧ c.key = k) ∧ I s record
  task l h s := l.key = k ∧ T l h s
  idle := J
  guard := Cluster.Conduct
  result c h _ := c.Ends h

/-- What an invariance proof has to show. -/
structure Invariance (srv : Server) (k : ObjectKey) (ok : Run ι → RunMove ι → Prop)
    (I : Store → List (Cluster × History Reply) → Prop)
    (T : Cluster → History Reply → Store → Prop) (J : Store → Prop) : Prop where
  init : ∀ {s}, Fresh k s → I s [] ∧ J s
  env : ∀ {c s'}, s'.phase k = c.store.phase k → ok c (.env s') → ClusterEnv k c.store s' →
    I c.store c.record →
    I s' c.record ∧ (∀ {i l h p}, c.running i = some ⟨l, h, p⟩ → T l h c.store → T l h s') ∧
      (J c.store → J s')
  start : ∀ {c i l}, ok c (.start i l) → c.store.clusters k = some l → I c.store c.record →
    J c.store → I c.store ((l, []) :: c.record) ∧ T l [] c.store
  call : ∀ {c i l h q r s'}, (c.store.phase k).isSome → l.key = k → (l, h) ∈ c.record →
    l.Conduct h q → ok c (.call i l h q r s') → Serves srv q c.store r s' →
    I c.store c.record → T l h c.store →
    I s' ((l, ⟨q, r⟩ :: h) :: c.record) ∧ T l (⟨q, r⟩ :: h) s'
  frame : ∀ {c i j l h q r s'}, (c.store.phase k).isSome → l.key = k → l.Conduct h q →
    ok c (.call i l h q r s') → Serves srv q c.store r s' → i ≠ j → I c.store c.record →
    (∀ {l' h'}, T l' h' c.store → T l' h' s') ∧ (J c.store → J s')
  finish : ∀ {l h s}, l.Ends h → T l h s → J s
  crash : ∀ {c i l h}, ok c (.crash i l h) → I c.store c.record → T l h c.store → J c.store

/-- The Cluster stays stored under its key. -/
theorem Serves.stored {q : Call} {s s' : Store} {r : Reply q} (h : Serves srv q s r s')
    (hs : ∃ c, s.clusters k = some c ∧ c.key = k) : ∃ c, s'.clusters k = some c ∧ c.key = k := by
  obtain ⟨c, hc, hk⟩ := hs
  rcases h.cases with rfl | ⟨rfl, -⟩
  · exact ⟨c, hc, hk⟩
  rcases clusters_effect srv q s k with h | ⟨phase, -, h⟩ | ⟨ref, c', -, hc', -, h⟩
  · exact ⟨c, h.trans hc, hk⟩
  · rw [hc] at h
    exact ⟨_, h, hk⟩
  · rw [hc] at hc'
    cases hc'
    exact ⟨_, h, hk⟩

theorem isSome_phase {s : Store} (hs : ∃ c, s.clusters k = some c ∧ c.key = k) :
    (s.phase k).isSome := by
  obtain ⟨c, hc, -⟩ := hs
  rw [Store.phase, hc]
  rfl

theorem ClusterEnv.phase {s s' : Store} (h : ClusterEnv k s s') (hs : (s.phase k).isSome) :
    s'.phase k = s.phase k := by
  obtain ⟨c, hc⟩ := Option.isSome_iff_exists.mp (Option.isSome_map ▸ hs)
  obtain ⟨spec, hspec⟩ := h.cluster hc
  rw [Store.phase, Store.phase, hspec, hc]
  rfl

/-- An invariance proof gives the obligations of the general rule. -/
theorem Invariance.preserves (inv : Invariance srv k ok I T J) :
    (clusterSystem srv k).Preserves (Fresh k) ok (clusterOutline k I T J) where
  init hs := by
    obtain ⟨c, hc, hk, -⟩ := hs.stored
    exact ⟨⟨⟨c, hc, hk⟩, (inv.init hs).1⟩, (inv.init hs).2⟩
  env hc hm he := by
    obtain ⟨⟨x, hx, hk⟩, hI⟩ := hc.store
    obtain ⟨hI', hT, hJ⟩ := inv.env (he.phase (isSome_phase ⟨x, hx, hk⟩)) hm he hI
    obtain ⟨spec, hspec⟩ := he.cluster hx
    exact ⟨⟨⟨_, hspec, hk⟩, hI'⟩, fun i l h p hi => ⟨(hc.task hi).1, hT hi (hc.task hi).2⟩,
      fun i hi => hJ (hc.idle hi)⟩
  start hc hi hm hs := by
    obtain ⟨hl, rfl⟩ := hs
    obtain ⟨⟨x, hx, hk⟩, hI⟩ := hc.store
    obtain ⟨hI', hT⟩ := inv.start hm hl hI (hc.idle hi)
    have hxl : x = _ := Option.some.inj (hx.symm.trans hl)
    exact ⟨⟨⟨x, hx, hk⟩, hI'⟩, ⟨hxl ▸ hk, hT⟩, Cluster.reconcile_meets _⟩
  call hc hi hG hm hs := by
    obtain ⟨hstored, hI⟩ := hc.store
    obtain ⟨hk, hT⟩ := hc.task hi
    obtain ⟨hI', hT'⟩ := inv.call (isSome_phase hstored) hk (hc.recorded hi) hG hm hs hI hT
    exact ⟨⟨Serves.stored hs hstored, hI'⟩, hk, hT'⟩
  frame hc hi hG hm hs hij := by
    obtain ⟨hstored, hI⟩ := hc.store
    obtain ⟨hT, hJ⟩ := inv.frame (isSome_phase hstored) (hc.task hi).1 hG hm hs hij hI
    exact ⟨fun l h p hj => ⟨(hc.task hj).1, hT (hc.task hj).2⟩, fun hj => hJ (hc.idle hj)⟩
  finish hc hi ha _ := inv.finish ha (hc.task hi).2
  crash hc hi hm := inv.crash hm hc.store.2 (hc.task hi).2

/-- **The invariant rule for runs of the Cluster controller.** -/
theorem Invariance.sound [DecidableEq ι] (inv : Invariance srv k ok I T J) {c : Run ι}
    (hc : (clusterSystem srv k).Reachable (Fresh k) ok c) : c.Sound (clusterOutline k I T J) :=
  inv.preserves.sound hc

/-- In any run, whatever the number of processes, invocations conduct themselves. -/
theorem trivial_invariance (srv : Server) (k : ObjectKey) :
    Invariance (ι := ι) srv k System.anyMove (fun _ _ => True) (fun _ _ _ => True)
      fun _ => True where
  init _ := ⟨trivial, trivial⟩
  env _ _ _ _ := ⟨trivial, fun _ _ => trivial, fun _ => trivial⟩
  start _ _ _ _ := ⟨trivial, trivial⟩
  call _ _ _ _ _ _ _ _ := ⟨trivial, trivial⟩
  frame _ _ _ _ _ _ _ := ⟨fun _ => trivial, fun _ => trivial⟩
  finish _ _ := trivial
  crash _ _ _ := trivial

end Rule

/-! ### Runs by evaluation -/

section Evaluation

variable {ι : Type} [DecidableEq ι] {srv : Server} {k : ObjectKey} {ok : Run ι → RunMove ι → Prop}
  {c : Run ι}

/-- The store after one invocation against a server that loses the calls in `lost`. -/
def invoke (srv : Server) (k : ObjectKey) (lost : Call → Bool) (s : Store) : Store :=
  match s.clusters k with
  | some x => (x.reconcile.run.eval (respond srv lost) s).2
  | none => s

/-- The store with other pods available for the Deployment of the Cluster at `k`. -/
def withPods (k : ObjectKey) (pods : Deployment → List PodTemplate) (s : Store) : Store :=
  let live := (s.deployments k.workload).map fun d => { d with pods := pods d.object }
  { s with deployments := Function.update s.deployments k.workload live }

/-- The store once that Deployment has been rolled out. -/
def rollOut (k : ObjectKey) (s : Store) : Store := withPods k (fun d => [d.template]) s

/-- The configuration after a running process has made its next call. -/
def afterCall (srv : Server) (lost : Call → Bool) (c : Run ι) (i : ι) (l : Cluster)
    (h : History Reply) (q : Call) (f : Reply q → Program Reply (Except Error Action)) : Run ι :=
  let r := (respond srv lost q c.store).1
  { store := (respond srv lost q c.store).2
    running := Function.update c.running i (some ⟨l, ⟨q, r⟩ :: h, f r⟩)
    record := (l, ⟨q, r⟩ :: h) :: c.record }

theorem step_call {i : ι} {l : Cluster} {h : History Reply} {q : Call}
    {f : Reply q → Program Reply (Except Error Action)} (lost : Call → Bool)
    (hi : c.running i = some ⟨l, h, .call q f⟩) :
    (clusterSystem srv k).Step c
      (.call i l h q (respond srv lost q c.store).1 (respond srv lost q c.store).2)
      (afterCall srv lost c i l h q f) := .call hi (serves_respond srv lost q c.store)

/-- An idle process may run an invocation to its end. -/
theorem reachable_invoke {i : ι} (lost : Call → Bool)
    (hok : ∀ {x}, c.store.clusters k = some x →
      ∀ c m, System.Played (respond srv lost) i x x.reconcile.run c m → ok c m)
    (hc : (clusterSystem srv k).Reachable (Fresh k) ok c) (hi : c.running i = none)
    (hx : (c.store.clusters k).isSome) :
    ∃ c', (clusterSystem srv k).Reachable (Fresh k) ok c' ∧
      c'.store = invoke srv k lost c.store ∧ c'.running = c.running := by
  obtain ⟨x, hx⟩ := Option.isSome_iff_exists.mp hx
  obtain ⟨c', hc', hs, hrun⟩ := hc.play (serves_respond srv lost) (hok hx) hi ⟨hx, rfl⟩
  refine ⟨c', hc', ?_, hrun⟩
  rw [hs, invoke, hx]

theorem phase_of_stored {s : Store} {x : Cluster} {p : Phase} (hx : s.clusters k = some x)
    (hp : s.phase k = some p) : x.phase = p := by
  rw [Store.phase, hx] at hp
  exact Option.some.inj hp

/-- A sequential run leads to the store `s`, with no invocation running. -/
def Settles (srv : Server) (k : ObjectKey) (ok : Run Unit → RunMove Unit → Prop) (s : Store) :
    Prop := (clusterSystem srv k).Settles (Fresh k) ok s

section Settles

variable {ok : Run Unit → RunMove Unit → Prop} {s s' : Store}

theorem Settles.fresh (hs : Fresh k s) : Settles srv k ok s := System.Settles.initial hs

theorem Settles.invoke (hs : Settles srv k ok s) (lost : Call → Bool)
    (hok : ∀ {x}, s.clusters k = some x →
      ∀ c m, System.Played (respond srv lost) () x x.reconcile.run c m → ok c m)
    (hx : (s.clusters k).isSome) : Settles srv k ok (invoke srv k lost s) := by
  obtain ⟨x, hx⟩ := Option.isSome_iff_exists.mp hx
  rw [SdbController.invoke, hx]
  exact System.Settles.play hs (serves_respond srv lost) (hok hx) ⟨hx, rfl⟩

theorem Settles.env (hs : Settles srv k ok s) (he : ClusterEnv k s s')
    (hok : ∀ c, c.running () = none → ok c (.env s')) : Settles srv k ok s' :=
  System.Settles.env hs he fun c hi _ => hok c hi

end Settles

/-- The environment may put other pods in place. -/
theorem clusterEnv_withPods (k : ObjectKey) (pods : Deployment → List PodTemplate) (s : Store) :
    ClusterEnv k s (withPods k pods s) where
  cluster hx := ⟨_, hx⟩
  deployment := by
    simp only [Store.deployment, withPods, Function.update_self, Option.map_map]
    rfl
  service := rfl
  audit := rfl

theorem clusterEnv_rollOut (k : ObjectKey) (s : Store) : ClusterEnv k s (rollOut k s) :=
  clusterEnv_withPods k _ s

end Evaluation

/-- A Cluster with a storage backend and a root Secret of its own. -/
def sampleCluster : Cluster :=
  { name := "db", ns := "prod", uid := "1"
    spec := { tikvSecretRef := some ⟨"path", "tikv", none⟩
              rootSecret := some ⟨some "root", some "prod"⟩ } }

/-- The API server before `sampleCluster` is reconciled for the first time. -/
def sampleStore : Store :=
  { clusters := Function.update (fun _ => none) sampleCluster.key (some sampleCluster)
    secrets := Function.update (fun _ => none) ⟨"prod", "root"⟩
      (some (givenSecret "prod" "root").stored) }

theorem fresh_sampleStore : Fresh sampleCluster.key sampleStore :=
  ⟨⟨sampleCluster, rfl, rfl, rfl⟩, rfl⟩

end SdbController
