import SdbController.Cluster.Recovery
import SdbController.Finalizers
import SdbController.Interaction.Gate
import SdbController.Kubernetes.Rbac

/-!
# What the controllers are permitted

The Helm chart gives the controllers a ClusterRole, and what that does not grant the API server
forbids: the call is answered with 403 and has no effect. The rules about TidbClusters are part of
the role only if the chart was installed with its TiDB controller, and they never grant `delete`.
The role in `yaml/deployment.yaml` was rendered from an older chart and has no rule about Services.

The code does not know any of this. The cleanup of a Cluster looks for a TidbCluster whether there
ever was one or not, and to `delete_if_exists` a 403 is an error like any other.

## Main results

* `reachable_of_role` — what the controllers do under a role they might do under any other
* `passes_chartRole_iff` — what the role of the chart grants of the calls of the controllers
* `cluster_goes_iff` — under that role, when a deleted Cluster can ever go
* `preparing_left_iff` — and when a Cluster can ever leave `Preparing`
* `unserved_without_proxy` — under a role without the service proxy nothing ever becomes Ready
-/

namespace SdbController

open Interaction Program Kubernetes

/-! ### The roles -/

/-- `templates/rbac.yaml` of the chart. `tidbEnabled` is `tidbController.enabled`, which is false by
default. -/
def chartRole (tidbEnabled : Bool) : Role :=
  [{ apiGroups := [""], resources := ["configmaps", "secrets", "services", "services/proxy"]
     verbs := ["get", "list", "watch", "create", "update", "patch", "delete"] },
    { apiGroups := ["events.k8s.io"], resources := ["events"], verbs := ["create", "patch"] },
    { apiGroups := ["apps"], resources := ["deployments"]
      verbs := ["get", "list", "watch", "create", "update", "patch", "delete"] },
    { apiGroups := ["surrealdb.aexol.com"], resources := ["clusters", "databases", "users"]
      verbs := ["get", "list", "watch", "create", "update", "patch", "delete"] },
    { apiGroups := ["surrealdb.aexol.com"]
      resources := ["clusters/status", "databases/status", "users/status"]
      verbs := ["get", "update", "patch"] },
    { apiGroups := ["surrealdb.aexol.com"]
      resources := ["clusters/finalizers", "databases/finalizers", "users/finalizers"]
      verbs := ["update"] }] ++
  if tidbEnabled then
    [{ apiGroups := ["pingcap.com"], resources := ["tidbclusters"]
       verbs := ["get", "list", "watch", "create", "update", "patch"] },
      { apiGroups := ["pingcap.com"], resources := ["tidbclusters/status"], verbs := ["get"] }]
  else []

/-- The role in `yaml/deployment.yaml`. -/
def snapshotRole : Role :=
  [{ apiGroups := [""], resources := ["configmaps", "secrets"]
     verbs := ["get", "list", "watch", "create", "update", "patch"] },
    { apiGroups := ["events.k8s.io"], resources := ["events"], verbs := ["create", "patch"] },
    { apiGroups := ["apps"], resources := ["deployments"]
      verbs := ["get", "list", "watch", "create", "update", "patch", "delete"] },
    { apiGroups := ["surrealdb.aexol.com"], resources := ["clusters", "databases", "users"]
      verbs := ["get", "list", "watch", "create", "update", "patch", "delete"] },
    { apiGroups := ["surrealdb.aexol.com"]
      resources := ["clusters/status", "databases/status", "users/status"]
      verbs := ["get", "update", "patch"] },
    { apiGroups := ["surrealdb.aexol.com"]
      resources := ["clusters/finalizers", "databases/finalizers", "users/finalizers"]
      verbs := ["update"] }]

/-! ### What is asked -/

/-- A verb on resources of this project, or on their status. -/
def ownAccess (verb resource : String) (subresource : Option String) : Access :=
  ⟨verb, "surrealdb.aexol.com", resource, subresource⟩

/-- What a request needs. Server-side apply is a patch that may create. -/
def ApiRequest.accesses : ApiRequest → List Access
  | getCluster _ => [ownAccess "get" "clusters" none]
  | getDatabase _ => [ownAccess "get" "databases" none]
  | getSecret _ => [⟨"get", "", "secrets", none⟩]
  | getDeployment _ => [⟨"get", "apps", "deployments", none⟩]
  | getTidbCluster _ => [⟨"get", "pingcap.com", "tidbclusters", none⟩]
  | createSecret _ => [⟨"create", "", "secrets", none⟩]
  | createConfigMap _ => [⟨"create", "", "configmaps", none⟩]
  | createTidbCluster _ => [⟨"create", "pingcap.com", "tidbclusters", none⟩]
  | applyDeployment _ =>
    [⟨"patch", "apps", "deployments", none⟩, ⟨"create", "apps", "deployments", none⟩]
  | applyService _ => [⟨"patch", "", "services", none⟩, ⟨"create", "", "services", none⟩]
  | replaceRootSecret _ _ => [ownAccess "patch" "clusters" none]
  | mergeClusterStatus _ _ => [ownAccess "patch" "clusters" (some "status")]
  | mergeDatabaseStatus _ _ _ => [ownAccess "patch" "databases" (some "status")]
  | mergeUserStatus _ _ _ => [ownAccess "patch" "users" (some "status")]

/-- The request goes through the API server: its address is a path there and not a URL. -/
def HttpRequest.Proxied (q : HttpRequest) : Prop := q.uri.toList.head? = some '/'

instance : DecidablePred HttpRequest.Proxied := fun _ => inferInstanceAs (Decidable (_ = _))

/-- What a call needs. A POST to a server behind the service proxy creates a `services/proxy`. -/
def Call.accesses : Call → List Access
  | api q => q.accesses
  | http q => if q.Proxied then [⟨"create", "", "services", some "proxy"⟩] else []
  | draw _ => []

/-- The objects of a kind. -/
def Kind.access (verb : String) : Kind → Access
  | .deployment => ⟨verb, "apps", "deployments", none⟩
  | .service => ⟨verb, "", "services", none⟩
  | .secret => ⟨verb, "", "secrets", none⟩
  | .tidbCluster => ⟨verb, "pingcap.com", "tidbclusters", none⟩

def CleanupCall.accesses : CleanupCall → List Access
  | get kind _ => [kind.access "get"]
  | delete kind _ _ => [kind.access "delete"]
  | publish _ => [⟨"create", "events.k8s.io", "events", none⟩]

/-! ### What is answered -/

/-- The API server's answer to a request that is not granted. -/
def KubeError.forbidden (text : String) : KubeError := .api 403 text

/-- The call is forbidden. -/
def Call.Forbidden : (q : Call) → Reply q → Prop
  | .api _, r => ∃ text, r = .error (.forbidden text)
  | .http _, r => ∃ status text, r = HttpOutcome.response status text ∧ status.code = 403
  | .draw _, _ => False

def CleanupCall.Forbidden : (q : CleanupCall) → CleanupReply q → Prop
  | .get _ _, r => ∃ text, r = .error (.forbidden text)
  | .delete _ _ _, r => ∃ text, r = .error (.forbidden text)
  | .publish _, r => ∃ text, r = .error (.forbidden text)

/-- The authorizer in front of a reconciliation. -/
def gate (ρ : Role) : Gate Reply where
  passes q := ∀ a ∈ q.accesses, ρ.Grants a
  refusal := Call.Forbidden

/-- The authorizer in front of a cleanup. -/
def cleanupGate (ρ : Role) : Gate CleanupReply where
  passes q := ∀ a ∈ q.accesses, ρ.Grants a
  refusal := CleanupCall.Forbidden

instance (ρ : Role) : DecidablePred (gate ρ).passes := fun q =>
  inferInstanceAs (Decidable (∀ a ∈ q.accesses, ρ.Grants a))

instance (ρ : Role) : DecidablePred (cleanupGate ρ).passes := fun q =>
  inferInstanceAs (Decidable (∀ a ∈ q.accesses, ρ.Grants a))

/-- To be forbidden is one of the ways in which a call may fail. -/
theorem fails_gate (ρ : Role) (srv : Server) : (gate ρ).Fails (Serves srv) := by
  intro q s r hr
  cases q with
  | api q =>
    obtain ⟨text, rfl⟩ := hr
    exact .inr ⟨_, ⟨rfl, rfl⟩, rfl, .inl rfl⟩
  | http q =>
    obtain ⟨status, text, rfl, hcode⟩ := hr
    refine .inr ⟨fun hsuccess => ?_, rfl⟩
    have hlt : status.code < 300 := hsuccess
    omega
  | draw n => exact hr.elim

/-- What is proved of all runs holds under any role. -/
theorem reachable_of_role {ι L α : Type} [DecidableEq ι] {sys : System L Reply α Store} {ρ : Role}
    {srv : Server} (hserve : sys.serve = Serves srv) {init : Store → Prop}
    {ok : Config ι L Reply α Store → Move ι L Reply Store → Prop} {c : Config ι L Reply α Store}
    (hc : (sys.gated (gate ρ)).Reachable init ok c) : sys.Reachable init ok c :=
  System.reachable_of_gated (hserve ▸ fails_gate ρ srv) hc

/-- A request that is forbidden is not a success. -/
theorem Call.Forbidden.not_isSuccess {q : HttpRequest} {r : HttpOutcome}
    (hr : Call.Forbidden (.http q) r) : ¬ r.IsSuccess := by
  obtain ⟨status, text, rfl, hcode⟩ := hr
  intro hsuccess
  have hlt : status.code < 300 := hsuccess
  omega

/-! ### What the role of the chart grants -/

/-- The call is about a TidbCluster. -/
def Call.AboutTidb : Call → Prop
  | .api (.getTidbCluster _) => True
  | .api (.createTidbCluster _) => True
  | _ => False

/-- **What the role of the chart grants**: every call of a reconciliation, less those about
TidbClusters if it was installed without its TiDB controller. -/
theorem passes_chartRole_iff {tidbEnabled : Bool} {q : Call} :
    (gate (chartRole tidbEnabled)).passes q ↔ tidbEnabled = true ∨ ¬ q.AboutTidb := by
  have hproxy : (chartRole tidbEnabled).Grants ⟨"create", "", "services", some "proxy"⟩ :=
    Role.grants_append.mpr (.inl (by decide))
  cases q with
  | draw n => simp [gate, Call.accesses, Call.AboutTidb]
  | http q =>
    refine iff_of_true (fun a ha => ?_) (.inr id)
    rw [Call.accesses] at ha
    split at ha
    · rw [List.mem_singleton.mp ha]
      exact hproxy
    · cases ha
  | api q =>
    cases q <;> cases tidbEnabled <;>
      simp only [gate, Call.accesses, ApiRequest.accesses, Call.AboutTidb] <;> decide

/-- The same for a cleanup: it may look at what it may delete, and delete all but TidbClusters. -/
theorem passes_cleanup_chartRole_iff {tidbEnabled : Bool} {q : CleanupCall} :
    (cleanupGate (chartRole tidbEnabled)).passes q ↔
      (∀ k, q = .get .tidbCluster k → tidbEnabled = true) ∧
        ∀ k policy, q ≠ .delete .tidbCluster k policy := by
  cases q with
  | publish event =>
    refine iff_of_true ?_ (by simp)
    cases tidbEnabled <;> simp only [cleanupGate, CleanupCall.accesses] <;> decide
  | get kind k =>
    cases kind <;> cases tidbEnabled <;>
      simp [cleanupGate, CleanupCall.accesses, Kind.access] <;> decide
  | delete kind k policy =>
    cases kind <;> cases tidbEnabled <;>
      simp [cleanupGate, CleanupCall.accesses, Kind.access] <;> decide

/-! ### Letting go of a Cluster under the role of the chart -/

/-- There is a TidbCluster that the Cluster takes for its own. -/
def Cluster.HasTidb (c : Cluster) (w : World) : Prop :=
  ∃ m, w.metadata .tidbCluster (c.cleanupKey .tidbCluster) = some m ∧ c.owns m

/-- What others may do: anything but to take that TidbCluster away. -/
def Cluster.LeavesTidb (c : Cluster) (w w' : World) : Prop := c.HasTidb w → c.HasTidb w'

/-- The controller of a Cluster under the role of the chart. It sees the Cluster with any spec and
status. -/
def permitted (libs : Externals) (client : Client) (srv : Server) (c : Cluster)
    (tidbEnabled : Bool) :
    Managed Reply CleanupReply Resource World Error (Option Action) :=
  { managed libs client srv (.cluster c.key) c.LeavesTidb with
    object := fun l => ∃ spec status, l = .cluster { c with spec := spec, status := status }
    serveApply := (gate (chartRole tidbEnabled)).behind (World.Serves srv)
    serveCleanup := (cleanupGate (chartRole tidbEnabled)).behind World.Cleans }

/-- The role does not let the cleanup of the Cluster succeed. -/
def Cluster.Barred (c : Cluster) (tidbEnabled : Bool) (w : World) : Prop :=
  tidbEnabled = false ∨ c.HasTidb w

section Barred

variable {libs : Externals} {client : Client} {srv : Server} {c : Cluster} {tidbEnabled : Bool}
  {w w' : World}

/-- No call of a reconciliation changes a TidbCluster that is there. -/
theorem Serves.tidbCluster {q : Call} {r : Reply q} {s s' : Store} (hs : Serves srv q s r s')
    {k : ObjectKey} {m : ObjectMeta} (hm : s.metadata k .tidbCluster = some m) :
    s'.metadata k .tidbCluster = some m := by
  rcases hs.cases with rfl | ⟨rfl, -⟩
  · exact hm
  · rcases effect_cases srv q s with hsame | hleaves
    · rwa [hsame]
    · generalize effect srv q s = t at hleaves
      cases hleaves with
      | @tidbCluster x hfree =>
        have hk : k ≠ x.metadata.key := by
          rintro rfl
          rw [Store.metadata, hfree] at hm
          cases hm
        exact (congrArg (Option.map TidbCluster.metadata) (Function.update_of_ne hk ..)).trans hm
      | _ => exact hm

/-- Of a cleanup only a DELETE of a TidbCluster does. -/
theorem CleanupServes.tidbCluster {q : CleanupCall} {r : CleanupReply q} {s s' : ApiState}
    (hs : CleanupServes q s r s') (hq : ∀ k policy, q ≠ .delete .tidbCluster k policy)
    (k : ObjectKey) : s'.store.metadata k .tidbCluster = s.store.metadata k .tidbCluster := by
  cases q with
  | get kind k' => rw [hs.1]
  | publish event => rw [show s' = s from hs]
  | delete kind k' policy =>
    have hkind : Kind.tidbCluster ≠ kind := by
      rintro rfl
      exact hq k' policy rfl
    have hdeletes (hdel : Deletes kind k' policy s s') :
        s'.store.metadata k .tidbCluster = s.store.metadata k .tidbCluster := by
      obtain ⟨-, -, -, hstore | hstore⟩ := hdel
      · rw [hstore]
      · rw [hstore, Store.metadata_remove_of_ne _ (.inl hkind)]
    rcases hs with ⟨-, hdel⟩ | ⟨-, -, rfl⟩ | ⟨e, -, -, rfl | hdel⟩
    · exact hdeletes hdel
    · rfl
    · rfl
    · exact hdeletes hdel

theorem Cluster.Barred.apply {q : Call} {r : Reply q} (hw : c.Barred tidbEnabled w)
    (hs : (gate (chartRole tidbEnabled)).behind (World.Serves srv) q w r w') :
    c.Barred tidbEnabled w' := by
  refine hw.imp_right fun ⟨m, hm, howns⟩ => ?_
  rcases hs with ⟨-, hserve⟩ | ⟨-, -, rfl⟩
  · exact ⟨m, hserve.served.tidbCluster hm, howns⟩
  · exact ⟨m, hm, howns⟩

theorem Cluster.Barred.cleanup {q : CleanupCall} {r : CleanupReply q}
    (hw : c.Barred tidbEnabled w)
    (hs : (cleanupGate (chartRole tidbEnabled)).behind World.Cleans q w r w') :
    c.Barred tidbEnabled w' := by
  refine hw.imp_right fun ⟨m, hm, howns⟩ => ?_
  rcases hs with ⟨hpasses, hserve⟩ | ⟨-, -, rfl⟩
  · have hq := (passes_cleanup_chartRole_iff.mp hpasses).2
    exact ⟨m, (hserve.served.tidbCluster hq _).trans hm, howns⟩
  · exact ⟨m, hm, howns⟩

/-- While the cleanup is barred no reply deals with the TidbCluster. -/
theorem Cluster.Barred.not_deals {q : CleanupCall} {r : CleanupReply q} {h : History CleanupReply}
    (hw : c.Barred tidbEnabled w) (hq : c.CleanupConduct h q)
    (hs : (cleanupGate (chartRole tidbEnabled)).behind World.Cleans q w r w') :
    ¬ c.Deals .tidbCluster ⟨q, r⟩ := by
  intro hdeals
  have hforbidden (text : String) : (KubeError.forbidden text).hasCode 404 = false := rfl
  cases q with
  | publish event => exact hdeals
  | delete kind k policy =>
    obtain ⟨rfl, hr⟩ := hdeals
    rcases hs with ⟨hpasses, -⟩ | ⟨-, ⟨text, rfl⟩, -⟩
    · exact (passes_cleanup_chartRole_iff.mp hpasses).2 k policy rfl
    · rcases hr with heq | ⟨e, heq, he⟩
      · cases heq
      · obtain rfl := Except.error.inj heq
        rw [hforbidden] at he
        cases he
  | get kind k =>
    obtain ⟨rfl, hr⟩ := hdeals
    obtain rfl : k = c.cleanupKey .tidbCluster := hq
    rcases hs with ⟨hpasses, hserve⟩ | ⟨-, ⟨text, rfl⟩, -⟩
    · have henabled := (passes_cleanup_chartRole_iff.mp hpasses).1 _ rfl
      obtain ⟨m, hm, howns⟩ := hw.resolve_left (by rw [henabled]; decide)
      obtain ⟨-, ⟨m', hm', rfl⟩ | ⟨hnone, -⟩ | ⟨e, he, rfl⟩⟩ := hserve.served
      · rcases hr with ⟨e, heq, -⟩ | ⟨m'', heq, hforeign⟩
        · cases heq
        · obtain rfl := Except.ok.inj heq
          obtain rfl := Option.some.inj (hm.symm.trans hm')
          rw [howns] at hforeign
          cases hforeign
      · cases hm.symm.trans hnone
      · rcases hr with ⟨e', heq, he'⟩ | ⟨m', heq, -⟩
        · obtain rfl := Except.error.inj heq
          rw [he] at he'
          cases he'
        · cases heq
    · rcases hr with ⟨e, heq, he⟩ | ⟨m, heq, -⟩
      · obtain rfl := Except.error.inj heq
        rw [hforbidden] at he
        cases he
      · cases heq

/-- What is known about a cleanup that is barred: it never deals with the TidbCluster. -/
def barring (libs : Externals) (client : Client) :
    Managed.Clearing Reply CleanupReply Resource World Error (Option Action) where
  applies l := l.Conduct libs client
  guard l := l.CleanupConduct
  result l := l.CleanupEnds
  knows l h _ := ∀ x : Cluster, l = .cluster x → ¬ x.DealtWith h .tidbCluster
  clear _ := False

theorem clears_barring : ((permitted libs client srv c tidbEnabled).within
    (c.Barred tidbEnabled)).Clears (barring libs client) where
  applies {l} _ := l.reconcile_meets libs client
  meets {l} _ := l.cleanup_meets
  begin _ x _ hdealt := by
    obtain ⟨e, he, -⟩ := hdealt
    exact absurd he List.not_mem_nil
  env _ := ⟨id, fun _ hknows => hknows⟩
  call {l h q r w w'} hl hknows hq hserve := by
    refine ⟨id, fun x hx hdealt => ?_⟩
    obtain ⟨spec, status, rfl⟩ := hl
    obtain rfl : x = { c with spec := spec, status := status } := (Resource.cluster.inj hx).symm
    obtain ⟨e, he, hdeals⟩ := hdealt
    rcases List.mem_cons.mp he with rfl | he
    · exact Cluster.Barred.not_deals (h := h) hserve.1 hq hserve.2.1 hdeals
    · exact hknows _ rfl ⟨e, he, hdeals⟩
  done hl hends hknows := by
    obtain ⟨spec, status, rfl⟩ := hl
    exact hknows _ rfl (hends.2.2 .tidbCluster)

/-- Under any role the controller acts in custody. -/
theorem clears_permitted :
    (permitted libs client srv c tidbEnabled).Clears (acting libs client) where
  applies {l} _ := l.reconcile_meets libs client
  meets {l} _ := l.cleanup_meets
  begin _ := trivial
  env _ := ⟨id, fun _ => id⟩
  call _ _ _ _ := ⟨id, trivial⟩
  done _ _ _ := trivial

end Barred

/-- The reply to a call that is forbidden. A draw never is. -/
def Call.refused : (q : Call) → Reply q
  | .api q => (.error (.forbidden "forbidden") : Except KubeError q.Object)
  | .http _ => HttpOutcome.response ⟨403, .inr (by decide)⟩ "forbidden"
  | .draw _ => (default : Draws _)

def CleanupCall.refused : (q : CleanupCall) → CleanupReply q
  | .get _ _ => (.error (.forbidden "forbidden") : Except KubeError ObjectMeta)
  | .delete _ _ _ => (.error (.forbidden "forbidden") : Except KubeError Unit)
  | .publish _ => (.error (.forbidden "forbidden") : Except KubeError Unit)

/-- The calls of a reconciliation under the role of the chart, against a server that works. -/
def answerPermitted (srv : Server) (tidbEnabled : Bool) : (q : Call) → World → Reply q × World :=
  (gate (chartRole tidbEnabled)).answer Call.refused (answerWorld srv)

theorem forbidden_refused {ρ : Role} {q : Call} (hq : ¬ (gate ρ).passes q) :
    q.Forbidden q.refused := by
  cases q with
  | api q => exact ⟨"forbidden", rfl⟩
  | http q => exact ⟨_, "forbidden", rfl, rfl⟩
  | draw n => exact absurd (fun _ ha => absurd ha List.not_mem_nil) hq

theorem behind_answerPermitted (srv : Server) (tidbEnabled : Bool) (q : Call) (w : World) :
    (gate (chartRole tidbEnabled)).behind (World.Serves srv) q w
      (answerPermitted srv tidbEnabled q w).1 (answerPermitted srv tidbEnabled q w).2 :=
  Gate.behind_answer (fun _ hq => forbidden_refused hq) (serves_answerWorld srv) q w

/-- The calls of a cleanup. -/
def cleanPermitted (tidbEnabled : Bool) : (q : CleanupCall) → World → CleanupReply q × World :=
  (cleanupGate (chartRole tidbEnabled)).answer CleanupCall.refused cleanWorld

theorem behind_cleanPermitted (tidbEnabled : Bool) (q : CleanupCall) (w : World) :
    (cleanupGate (chartRole tidbEnabled)).behind World.Cleans q w
      (cleanPermitted tidbEnabled q w).1 (cleanPermitted tidbEnabled q w).2 := by
  refine Gate.behind_answer (fun q _ => ?_) cleans_cleanWorld q w
  cases q <;> exact ⟨"forbidden", rfl⟩

/-- On the way through a cleanup that is not barred: nothing failed, and no TidbCluster was found
to be owned. -/
structure Cluster.Unbarred (c : Cluster) (h : History CleanupReply) (w : World) : Prop where
  clean : Clean h
  none : ¬ c.HasTidb w
  looked : ∀ {k m h'}, h = looked .tidbCluster k (.ok m) :: h' → c.owns m = false

/-- One call of such a cleanup is granted. -/
theorem Cluster.Unbarred.call {c : Cluster} {h : History CleanupReply} {w : World}
    (hh : c.Unbarred h w) {q : CleanupCall} (hq : c.CleanupConduct h q) :
    c.Unbarred (⟨q, (cleanPermitted true q w).1⟩ :: h) (cleanPermitted true q w).2 := by
  have hdelete (k : ObjectKey) (policy : PropagationPolicy) :
      q ≠ .delete .tidbCluster k policy := by
    rintro rfl
    obtain ⟨-, -, m, h', hlook, howns⟩ := hq
    rw [hh.looked hlook] at howns
    cases howns
  have hpasses : (cleanupGate (chartRole true)).passes q :=
    passes_cleanup_chartRole_iff.mpr ⟨fun _ _ => rfl, hdelete⟩
  have hreply : cleanPermitted true q w = cleanWorld q w := if_pos hpasses
  rw [hreply]
  have hsame : (cleanWorld q w).2.metadata .tidbCluster (c.cleanupKey .tidbCluster) =
      w.metadata .tidbCluster (c.cleanupKey .tidbCluster) :=
    (serves_answerCleanup q w.api).tidbCluster hdelete _
  refine ⟨hh.clean.cons (not_failedWith_answerCleanup q w.api), ?_, fun {k m h'} heq => ?_⟩
  · rintro ⟨m, hm, howns⟩
    exact hh.none ⟨m, hsame.symm.trans hm, howns⟩
  · cases q with
    | delete kind k' policy => cases heq
    | publish event => cases heq
    | get kind k' =>
      obtain ⟨heq, -⟩ := List.cons_eq_cons.mp heq
      obtain rfl : kind = .tidbCluster := by
        cases kind <;> first | rfl | cases heq
      obtain rfl : k' = c.cleanupKey .tidbCluster := hq
      rw [Bool.eq_false_iff]
      intro howns
      refine hh.none ⟨m, ?_, howns⟩
      cases hm : w.api.store.metadata (c.cleanupKey .tidbCluster) .tidbCluster with
      | none =>
        simp only [cleanWorld, answerCleanup, hm] at heq
        cases heq
      | some m' =>
        simp only [cleanWorld, answerCleanup, hm] at heq
        cases heq
        exact hm

/-- A cleanup that is not barred says `Ok`, if every call that is granted is answered. -/
theorem Cluster.cleanup_permitted {c : Cluster} {w : World} (hw : ¬ c.HasTidb w) :
    (c.cleanup.run.eval (cleanPermitted true) w).1 = .ok none := by
  obtain ⟨h, hh, hends⟩ := c.cleanup_meets.eval_keeping (P := c.Unbarred)
    (fun q w h hq hh => hh.call hq)
    ⟨fun _ hx => absurd hx List.not_mem_nil, hw, fun heq => nomatch heq⟩
  cases hr : (c.cleanup.run.eval (cleanPermitted true) w).1 with
  | ok a =>
    rw [hr] at hends
    rw [hends.1]
  | error e =>
    rw [hr] at hends
    obtain ⟨e', -, hbroke⟩ := hends
    exact absurd hh.clean hbroke.not_clean

/-- **When a deleted Cluster can go.** Under the role of the chart, and wherever the runs of one
process have led: a Cluster that is deleted and held can ever be let go of if and only if the
chart was installed with its TiDB controller and the Cluster has no TidbCluster of its own. Others
leave the finalizer alone, and do not take such a TidbCluster away. Without the TiDB controller a
cleanup may not look for a TidbCluster, and it may never delete one. -/
theorem cluster_goes_iff (libs : Externals) (client : Client) (srv : Server) (c : Cluster)
    (tidbEnabled : Bool) {run : Finalizer Reply CleanupReply KubeError Error (Option Action)}
    (hrun : Documented (Slot.cluster c.key).finalizer none run) {start : HeldRun}
    (hstart : ((permitted libs client srv c tidbEnabled).system run).Reachable
      ((permitted libs client srv c tidbEnabled).Vacant (acting libs client)) System.anyMove start)
    {l : Life} (hl : start.store.stored = some l) (hnodup : l.finalizers.Nodup)
    (hheld : (Slot.cluster c.key).finalizer ∈ l.finalizers) (hdel : l.deleting = true) :
    ((∃ cfg : HeldRun, ((permitted libs client srv c tidbEnabled).system run).Reachable
        (· = start.store) System.anyMove cfg ∧
          ¬ Held (Slot.cluster c.key).finalizer cfg.store.stored) ↔
      tidbEnabled = true ∧ ¬ c.HasTidb start.store.world) ∧
    (∀ k, (cleanupGate (chartRole tidbEnabled)).passes (.get .tidbCluster k) ↔
      tidbEnabled = true) ∧
    ∀ k policy, ¬ (cleanupGate (chartRole tidbEnabled)).passes (.delete .tidbCluster k policy) := by
  have hkept : (permitted libs client srv c tidbEnabled).Kept (acting libs client) start.store :=
    ((Managed.preserves clears_permitted hrun).sound hstart).store
  refine ⟨⟨?_, ?_⟩, fun k => ?_, fun k policy hpasses => ?_⟩
  · rintro ⟨cfg, hcfg, hfree⟩
    by_contra hnot
    have hbarred : c.Barred tidbEnabled start.store.world := by
      by_cases henabled : tidbEnabled = true
      · exact .inr (by_contra fun hnone => hnot ⟨henabled, hnone⟩)
      · exact .inl (Bool.eq_false_of_not_eq_true henabled)
    exact hfree (Managed.endures (J := c.Barred tidbEnabled) (fun hw he => hw.imp_right he)
      (fun hw hs => hw.apply hs) (fun hw hs => hw.cleanup hs) clears_barring (fun _ => id) hrun
      hkept.sane ⟨l, hl, hheld⟩ hbarred hcfg)
  · rintro ⟨rfl, hnone⟩
    obtain ⟨t, -, -, ⟨cfg, hcfg, -, hs⟩, hstored⟩ := Managed.settles_released
      (m := permitted libs client srv c true) (o := .cluster c) hrun
      (behind_answerPermitted srv true) (behind_cleanPermitted true) (.other "conflict")
      ⟨c.spec, c.status, rfl⟩ hl hheld hdel (c.cleanup_permitted hnone)
    refine ⟨cfg, hcfg, ?_⟩
    rw [hs, hstored, Life.release]
    split
    · rintro ⟨l', ⟨⟩, -⟩
    · rintro ⟨l', ⟨⟩, hmem⟩
      exact hnodup.not_mem_erase hmem
  · simp [passes_cleanup_chartRole_iff]
  · exact (passes_cleanup_chartRole_iff.mp hpasses).2 k policy rfl

/-- The finalizer is put on the sample Cluster, without the TiDB controller. -/
def heldTracked : Tracked World :=
  ((sampleFinalizer {} (sampleManaged.apply (.cluster sampleCluster))
    (sampleManaged.cleanup (.cluster sampleCluster))).eval
    (answerLife (KubeError.other "conflict") (answerPermitted ⟨false⟩ false)
      (cleanPermitted false)) sampleTracked).2

/-- It is then deleted, and never goes. -/
theorem cluster_goes_iff_default : ∃ start : HeldRun,
    start.store.stored = some ⟨[sampleManaged.name], true⟩ ∧
    ¬ ∃ cfg : HeldRun, ((permitted sampleExternals .kube ⟨false⟩ sampleCluster false).system
        sampleFinalizer).Reachable (· = start.store) System.anyMove cfg ∧
          ¬ Held sampleManaged.name cfg.store.stored := by
  have hinit : (permitted sampleExternals .kube ⟨false⟩ sampleCluster false).Vacant
      (acting sampleExternals .kube) sampleTracked := by
    refine ⟨rfl, ?_, trivial⟩
    rintro ⟨l, ⟨⟩, hmem⟩
    cases hmem
  have hheld : ((permitted sampleExternals .kube ⟨false⟩ sampleCluster false).system
      sampleFinalizer).Settles ((permitted sampleExternals .kube ⟨false⟩ sampleCluster false).Vacant
        (acting sampleExternals .kube)) System.anyMove heldTracked :=
    System.Settles.play (l := (.cluster sampleCluster, {})) (.initial hinit)
      (serves_answerLife (KubeError.other "conflict") (behind_answerPermitted ⟨false⟩ false)
        (behind_cleanPermitted false)) (fun _ _ _ => trivial)
      ⟨⟨sampleCluster.spec, sampleCluster.status, rfl⟩, rfl, rfl⟩
  have hdeleted : ((permitted sampleExternals .kube ⟨false⟩ sampleCluster false).system
      sampleFinalizer).Settles _ System.anyMove (deleteRequested (synced heldTracked)) :=
    (Managed.settles_synced hheld).env (.object (.change Iff.rfl fun _ => rfl)) fun _ _ _ => trivial
  obtain ⟨start, hstart, -, hs⟩ := hdeleted
  have hl : start.store.stored = some ⟨[sampleManaged.name], true⟩ := by
    rw [hs]
    rfl
  refine ⟨start, hl, fun hgoes => ?_⟩
  obtain ⟨henabled, -⟩ := (cluster_goes_iff sampleExternals .kube ⟨false⟩ sampleCluster false
    (documented_finalizer _ none) hstart hl (by decide) (by decide) rfl).1.mp hgoes
  cases henabled

/-! ### Leaving `Preparing` under the role of the chart -/

section Preparing

variable {ι : Type} [DecidableEq ι] {srv : Server} {k : ObjectKey} {tidbEnabled : Bool} {s : Store}

/-- A preparing Cluster gets its phase written right after a TidbCluster was found. -/
def Cluster.Found (c : Cluster) (h : History Reply) (q : Call) : Prop :=
  ∀ phase, q = c.phaseWrite phase →
    ∃ tc h', h = Cluster.replied (.getTidbCluster c.key) (.ok (some tc)) :: h'

theorem Cluster.reconcile_found {c : Cluster} (hc : c.phase = .preparing) :
    c.reconcile.run.Meets c.Found (fun _ _ => True) [] := by
  have other {h : History Reply} {q : Call} (hq : ∀ phase, q ≠ c.phaseWrite phase) :
      c.Found h q := fun phase heq => absurd heq (hq phase)
  have hcreate : (c.reconcileTidbCluster c.name).run.Meets c.Found (fun _ _ => True) [] := by
    rw [reconcileTidbCluster]
    split
    · trivial
    · simp only [Reconciler.meets_createIfAbsent]
      exact ⟨other fun _ heq => (by cases heq), fun _ => trivial, fun _ => trivial⟩
  rw [reconcile, hc]
  simp only [reconcilePreparing, meets_except_bind, Reconciler.meets_attempt]
  refine hcreate.mono (fun _ _ h => h) fun h r _ => ?_
  rcases r with e | _
  · trivial
  simp only [meets_except_bind, Reconciler.meets_api]
  refine ⟨other fun _ heq => (by cases heq), fun r => ?_⟩
  rcases r with e | _ | tc
  · trivial
  · trivial
  dsimp only
  split
  · simp only [meets_except_bind, Reconciler.meets_attempt, meets_setPhase,
      meets_reconcileSurrealdbWithMode, Reconciler.meets_pure]
    have hdeploy {h : History Reply} : c.Found h (c.deployCall true) :=
      other fun _ heq => (by cases heq)
    have hserve {h : History Reply} : c.Found h c.serviceCall := other fun _ heq => (by cases heq)
    refine ⟨fun _ _ => ⟨tc, h, rfl⟩, ?_, fun e => ?_⟩ <;>
      exact ⟨hdeploy, fun _ => trivial, hserve, fun _ => trivial, trivial⟩
  · trivial

/-- What holds in every run without the TiDB controller: nobody finds a TidbCluster. -/
def preparingOutline (k : ObjectKey) : Outline Cluster Reply (Except Error Action) Store where
  store s _ := Stands k .preparing s
  task c h _ := c.key = k ∧ c.phase = .preparing ∧
    ∀ k' tc, Cluster.replied (.getTidbCluster k') (.ok (some tc)) ∉ h
  guard c h q := c.Conduct h q ∧ (c.phase = .preparing → c.Found h q)

omit [DecidableEq ι] in
theorem preserves_preparing (hs : Stands k .preparing s) :
    ((clusterSystem srv k).gated (gate (chartRole false))).Preserves (ι := ι) (· = s)
      System.anyMove (preparingOutline k) where
  init heq := ⟨heq ▸ hs, trivial⟩
  env hc _ he := ⟨Stands.env hc.store he, fun _ _ _ _ hi => hc.task hi, fun _ _ => trivial⟩
  start {c i l p} hc _ _ hs := by
    obtain ⟨hl, rfl⟩ := hs
    obtain ⟨x, hx, hk, hp⟩ : Stands k .preparing c.store := hc.store
    obtain rfl : l = x := Option.some.inj (hl.symm.trans hx)
    refine ⟨⟨l, hx, hk, hp⟩, ⟨hk, hp, fun _ _ => List.not_mem_nil⟩, ?_⟩
    exact (l.reconcile_meets.and (Cluster.reconcile_found hp)).mono
      (fun _ _ h => ⟨h.1, fun _ => h.2⟩) fun _ _ _ => trivial
  call {c i l h q k' r s'} hc hi hG _ hs := by
    obtain ⟨hk, hp, hnone⟩ := hc.task hi
    have hstands : Stands k .preparing c.store := hc.store
    have hmem (k' : ObjectKey) (tc : TidbCluster) :
        Cluster.replied (.getTidbCluster k') (.ok (some tc)) ∉ (⟨q, r⟩ : Σ q, Reply q) :: h := by
      intro hmem
      rcases List.mem_cons.mp hmem with heq | hmem
      · cases heq
        rcases hs with ⟨hpasses, -⟩ | ⟨-, ⟨text, heq⟩, -⟩
        · have henabled := passes_chartRole_iff.mp hpasses
          exact henabled.elim (by decide) fun hnot => hnot trivial
        · cases heq
      · exact hnone k' tc hmem
    have hserve : Serves srv q c.store r s' := Gate.Fails.serves (fails_gate _ srv) hs
    have hphase : s'.phase k = some .preparing := by
      rcases hserve.phase_cases (by rw [hstands.phase]; rfl) hG.1 with hsame | ⟨p, rfl, -, -⟩
      · exact hsame.trans hstands.phase
      · obtain ⟨tc, h', rfl⟩ := hG.2 hp p rfl
        exact absurd List.mem_cons_self (hnone _ tc)
    obtain ⟨x, hx, hkey, -⟩ := hstands
    obtain ⟨y, hy, hykey⟩ := Serves.stored hserve ⟨x, hx, hkey⟩
    refine ⟨⟨y, hy, hykey, Option.some.inj ?_⟩, hk, hp, hmem⟩
    rw [← hphase, Store.phase, hy]
    rfl
  frame hc _ _ _ _ _ := ⟨fun _ _ _ hj => hc.task hj, fun _ => trivial⟩
  finish _ _ _ _ := trivial
  crash _ _ _ := trivial

/-- The Cluster with the default number of replicas. -/
def Cluster.restored (x : Cluster) : Cluster :=
  { x with spec := { x.spec with replicas := none } }

/-- The Cluster has replicas, and its TidbCluster reports Ready. -/
def Store.prepared (s : Store) (x : Cluster) : Store :=
  { s with
    clusters := Function.update s.clusters x.key (some x.restored)
    tidbClusters := Function.update s.tidbClusters x.key
      (some (x.tidbClusterObject x.name ⟨""⟩).reporting) }

theorem env_prepared {x : Cluster} (hx : s.clusters x.key = some x) :
    ClusterEnv x.key s (s.prepared x) where
  cluster {y} hy := by
    obtain rfl : x = y := Option.some.inj (hx.symm.trans hy)
    exact ⟨_, Function.update_self ..⟩
  deployment := rfl
  service := rfl
  audit := rfl

/-- **When a Cluster can leave `Preparing`.** Under the role of the chart, from any store in which
the Cluster stands there and with any number of processes, it can if and only if the chart was
installed with its TiDB controller. Nobody else writes the status of the Cluster or removes it. -/
theorem preparing_left_iff [Inhabited ι] (srv : Server) (hs : Stands k .preparing s)
    (tidbEnabled : Bool) :
    (∃ c : Run ι, ((clusterSystem srv k).gated (gate (chartRole tidbEnabled))).Reachable
        (· = s) System.anyMove c ∧ ¬ Stands k .preparing c.store) ↔ tidbEnabled = true := by
  constructor
  · rintro ⟨c, hc, hleft⟩
    by_contra henabled
    obtain rfl := Bool.eq_false_of_not_eq_true henabled
    exact hleft ((preserves_preparing hs).sound hc).store
  · rintro rfl
    obtain ⟨x, hx, rfl, hp⟩ := id hs
    -- the environment does its part, and one invocation is answered
    have hserve (q : Call) (s : Store) : (gate (chartRole true)).behind (Serves srv) q s
        (respond srv (fun _ => false) q s).1 (respond srv (fun _ => false) q s).2 :=
      (Gate.behind_of_passes (passes_chartRole_iff.mpr (.inl rfl))).mpr
        (serves_respond srv (fun _ => false) q s)
    have hinit : ((clusterSystem srv x.key).gated (gate (chartRole true))).Reachable (ι := ι)
        (· = s) System.anyMove ⟨s, fun _ => none, []⟩ := .init rfl
    have henv := hinit.step trivial (.env (env_prepared hx))
    obtain ⟨c, hc, hstore, -⟩ := henv.play hserve (fun _ _ _ => trivial) (i := default) rfl
      ⟨Function.update_self .., rfl⟩
    refine ⟨c, hc, fun hstands => ?_⟩
    have hrun : Completes (Answers srv fun _ _ _ _ => True) x.restored.reconcile.run
        (s.prepared x) (x.restored.reconcile.run.eval (respond srv fun _ => false) (s.prepared x)).1
        (x.restored.reconcile.run.eval (respond srv fun _ => false) (s.prepared x)).2 :=
      completes_eval (fun q _ => by cases q <;> trivial) _ _
    have hp' : x.restored.phase = .preparing := hp
    have hentered := Cluster.completes_preparing (Function.update_self ..) hp' hrun
    rw [show (s.prepared x).tidbClusters x.restored.key = some _ from Function.update_self ..]
      at hentered
    have hcreation := (hentered rfl (by simp [Cluster.restored])).1
    rw [hstore] at hstands
    have hphases := hcreation.phase.symm.trans hstands.phase
    cases hphases

/-- A Cluster that waits for a TidbCluster. -/
def preparingCluster : Cluster := { sampleCluster with status := some { phase := some .preparing } }

/-- The chart was installed without its TiDB controller, and the Cluster waits for ever. -/
theorem preparing_left_iff_default : ¬ ∃ c : Run Unit,
    ((clusterSystem ⟨false⟩ preparingCluster.key).gated (gate (chartRole false))).Reachable
      (· = { clusters := Function.update (fun _ => none) preparingCluster.key preparingCluster })
      System.anyMove c ∧ ¬ Stands preparingCluster.key .preparing c.store := by
  rw [preparing_left_iff ⟨false⟩ ⟨preparingCluster, rfl, rfl, rfl⟩ false]
  decide

end Preparing

/-! ### Without the proxy -/

/-- What is reached without the server: a Cluster is at most in creation, and no Database and no
User is Ready. -/
structure Unserved (s : Store) : Prop where
  cluster : ∀ {k c}, s.clusters k = some c →
    c.phase = .new ∨ c.phase = .preparing ∨ c.phase = .inCreation ∨ c.phase = .error
  database : ∀ {k d}, s.databases k = some d → d.phase ≠ .ready
  user : ∀ {k u}, s.users k = some u → u.phase ≠ .ready

/-- Nobody but the controllers makes a Database or a User Ready. -/
def NobodyElse {ι : Type} (c : Config ι Resource Reply (Except Error Action) Store) :
    Move ι Resource Reply Store → Prop
  | .env s' =>
    (∀ k d', s'.databases k = some d' → d'.phase = .ready →
      ∃ d, c.store.databases k = some d ∧ d.phase = .ready) ∧
    ∀ k u', s'.users k = some u' → u'.phase = .ready →
      ∃ u, c.store.users k = some u ∧ u.phase = .ready
  | _ => True

/-- No request was a success. -/
def Unanswered (h : History Reply) : Prop := ∀ q r, sent q r ∈ h → ¬ r.IsSuccess

section Unserved

variable {ι : Type} {libs : Externals} {srv : Server} {ρ : Role} {l : Resource}
  {h : History Reply} {q : Call} {r : Reply q} {s s' : Store}

theorem Asks.proxied {cluster : ObjectKey} {sql : Sql} {q : HttpRequest}
    (hq : Asks libs .kube cluster sql q) : q.Proxied := by
  obtain ⟨user, pass, request, hreq, rfl⟩ := hq
  rw [sqlRequest, Client.post] at hreq
  dsimp only at hreq
  cases hurl : libs.urlParse (sqlUrl cluster.ns cluster.name) with
  | error text =>
    rw [hurl] at hreq
    cases hreq
  | ok u =>
    rw [hurl] at hreq
    dsimp only at hreq
    split at hreq
    · cases hreq
    · split at hreq
      · split at hreq
        · cases hreq
          simp [HttpRequest.Proxied, Builder.header]
        · cases hreq
      · cases hreq

/-- Every request of an invocation goes through the API server. -/
theorem Resource.Conduct.proxied {q : HttpRequest} (hq : l.Conduct libs .kube h (.http q)) :
    q.Proxied := by
  cases l with
  | cluster c =>
    obtain ⟨-, u, p, rfl⟩ := hq
    simp [HttpRequest.Proxied, Cluster.bootstrapRequest]
  | database d =>
    rcases hq with ⟨hasks, -⟩ | ⟨hasks, -⟩
    · exact hasks.proxied
    · exact hasks.proxied
  | user u =>
    obtain ⟨-, nsName, dbName, password, hasks, -⟩ := hq
    exact hasks.proxied

/-- So without the proxy none is a success. -/
theorem Unanswered.call (hρ : ¬ ρ.Grants ⟨"create", "", "services", some "proxy"⟩)
    (hh : Unanswered h) (hq : l.Conduct libs .kube h q)
    (hs : (gate ρ).behind (Serves srv) q s r s') : Unanswered (⟨q, r⟩ :: h) := by
  rintro q' r' hmem
  rcases List.mem_cons.mp hmem with heq | hmem
  · cases heq
    rcases hs with ⟨hpasses, -⟩ | ⟨-, hr, -⟩
    · refine absurd (hpasses _ ?_) hρ
      rw [Call.accesses, if_pos hq.proxied]
      exact List.mem_singleton_self _
    · exact Call.Forbidden.not_isSuccess hr
  · exact hh q' r' hmem

/-- A good verdict on the last call would have been a success. -/
theorem Unanswered.not_ok (hh : Unanswered h) {q : HttpRequest} {r : HttpOutcome}
    {h' : History Reply} (heq : h = sent q r :: h') : Client.kube.verdict r ≠ .ok () := by
  intro hok
  have hsuccess := (Client.verdict_eq_ok_iff.mp hok).resolve_right fun hne => by cases hne.1
  exact hh q r (heq ▸ List.mem_cons_self) hsuccess

theorem Unanswered.tail {e : Σ q, Reply q} (hh : Unanswered (e :: h)) : Unanswered h :=
  fun q r hmem => hh q r (List.mem_cons_of_mem _ hmem)

/-- The phases that a Cluster is started from without the server. -/
def Resource.Early (l : Resource) : Prop :=
  ∀ c, l = .cluster c →
    c.phase = .new ∨ c.phase = .preparing ∨ c.phase = .inCreation ∨ c.phase = .error

/-- The phase that an invocation for a Cluster writes is an early one again. -/
theorem Cluster.Writes.early {c : Cluster} (hl : (Resource.cluster c).Early) (hh : Unanswered h)
    {phase : Phase} (hw : c.Writes h phase) :
    phase = .new ∨ phase = .preparing ∨ phase = .inCreation ∨ phase = .error := by
  have hc := hl c rfl
  cases phase with
  | new | preparing | inCreation | error => simp
  | ready | notReady =>
    rcases hc with hc | hc | hc | hc <;> simp only [Cluster.Writes, hc] at hw
  | inProgress =>
    -- this is written after the bootstrap, which cannot have been a success
    obtain ⟨u, p, r, h', rfl, hsuccess⟩ :
        ∃ u p r h', h = c.bootstrapped u p r :: h' ∧ r.IsSuccess := by
      rcases hc with hc | hc | hc | hc <;> simp only [Cluster.Writes, hc] at hw
      exact hw
    exact absurd hsuccess (hh _ r List.mem_cons_self)

/-- An invocation for a Database does not write `Ready`. -/
theorem Unanswered.database_ne (hh : Unanswered h) {k : ObjectKey} {phase : DbPhase}
    {message : Option String}
    (hq : l.Conduct libs .kube h (.api (.mergeDatabaseStatus k phase message))) :
    phase ≠ .ready := by
  rintro rfl
  match l, hq with
  | .cluster c, hq => exact hq.elim
  | .user u, hq => exact hq.1 trivial
  | .database d, ⟨_, .inl ⟨_, q, r, h', heq, _, hok, _⟩⟩ => exact hh.not_ok heq hok
  | .database d, ⟨_, .inr ⟨heq, _⟩⟩ => cases heq

/-- Nor does one for a User. -/
theorem Unanswered.user_ne (hh : Unanswered h) {k : ObjectKey} {phase : UserPhase}
    {message : Option String}
    (hq : l.Conduct libs .kube h (.api (.mergeUserStatus k phase message))) :
    phase ≠ .ready := by
  rintro rfl
  match l, hq with
  | .cluster c, hq => exact hq.elim
  | .database d, hq => exact hq trivial
  | .user u, ⟨_, .inr heq⟩ => cases heq
  | .user u, ⟨_, .inl ⟨_, password, hdone⟩⟩ =>
    obtain ⟨r, h₁, rfl, -, r', h₂, rfl, -, -, nsName, dbName, q, r'', h₃, heq, -, hok, -⟩ := hdone
    exact hh.tail.tail.not_ok heq hok

/-- One call of an invocation that was started before anything was served. -/
theorem Unserved.call (hI : Unserved s) (hh : Unanswered h) (hl : l.Early)
    (hq : l.Conduct libs .kube h q) (hs : Serves srv q s r s') : Unserved s' := by
  rcases hs.cases with rfl | ⟨rfl, -⟩
  · exact hI
  refine ⟨fun {k c} hc => ?_, fun {k d} hd => ?_, fun {k u} hu => ?_⟩
  · rcases clusters_effect srv q s k with h | ⟨phase, rfl, h⟩ | ⟨ref, c', rfl, hc', -, h⟩
    · exact hI.cluster (h ▸ hc)
    · match l, hq with
      | .cluster x, ⟨_, hw⟩ =>
        obtain ⟨y, -, rfl⟩ := Option.map_eq_some_iff.mp (h.symm.trans hc)
        exact hw.early hl hh
      | .database d, hq => exact absurd trivial hq
      | .user u, hq => exact absurd trivial hq.1
    · obtain rfl := Option.some.inj (h.symm.trans hc)
      have hphase := hI.cluster hc'
      exact hphase
  · rcases databases_effect srv q s k with h | ⟨phase, m, rfl, h⟩
    · exact hI.database (h ▸ hd)
    · obtain ⟨y, -, rfl⟩ := Option.map_eq_some_iff.mp (h.symm.trans hd)
      exact hh.database_ne hq
  · rcases users_effect srv q s k with h | ⟨phase, m, rfl, h⟩
    · exact hI.user (h ▸ hu)
    · obtain ⟨y, -, rfl⟩ := Option.map_eq_some_iff.mp (h.symm.trans hu)
      exact hh.user_ne hq

/-- What holds in every run without the proxy. -/
def unservedOutline (libs : Externals) : Outline Resource Reply (Except Error Action) Store where
  store s _ := Unserved s
  task l h _ := l.Early ∧ Unanswered h
  guard l := l.Conduct libs .kube

theorem preserves_unserved (hρ : ¬ ρ.Grants ⟨"create", "", "services", some "proxy"⟩) :
    ((fleet libs .kube srv).gated (gate ρ)).Preserves (ι := ι) Unserved NobodyElse
      (unservedOutline libs) where
  init hs := ⟨hs, trivial⟩
  env {c s'} hc hm he := by
    have hI : Unserved c.store := hc.store
    refine ⟨⟨fun {k x} hx => ?_, fun {k d} hd hready => ?_, fun {k u} hu hready => ?_⟩,
      fun _ _ _ _ hi => hc.task hi, fun _ _ => trivial⟩
    · cases hold : c.store.clusters k with
      | none => exact .inl (he.created hold hx).2
      | some y =>
        obtain ⟨spec, hspec⟩ := (he.cluster k (by rw [hold]; rfl)).cluster hold
        obtain rfl := Option.some.inj (hspec.symm.trans hx)
        have hphase := hI.cluster hold
        exact hphase
    · obtain ⟨d', hd', hready'⟩ := hm.1 k d hd hready
      exact hI.database hd' hready'
    · obtain ⟨u', hu', hready'⟩ := hm.2 k u hu hready
      exact hI.user hu' hready'
  start {c i l p} hc _ _ hs := by
    have hI : Unserved c.store := hc.store
    have hstart : (fleet libs .kube srv).start c.store l p := hs
    refine ⟨hI, ⟨?_, fun _ _ hmem => absurd hmem List.not_mem_nil⟩, fleet_start_meets hstart⟩
    rintro x rfl
    exact hI.cluster hs.1
  call hc hi hG _ hs := by
    obtain ⟨hl, hh⟩ := hc.task hi
    have hserve := Gate.Fails.serves (fails_gate ρ srv) hs
    exact ⟨Unserved.call hc.store hh hl hG hserve, hl, hh.call hρ hG hs⟩
  frame hc _ _ _ _ _ := ⟨fun _ _ _ hj => hc.task hj, fun _ => trivial⟩
  finish _ _ _ _ := trivial
  crash _ _ _ := trivial

/-- **Nothing is served without the proxy.** Under a role that does not let the controllers create a
`services/proxy`, in every run of all of them, with any number of invocations at once, no Cluster
gets beyond `InCreation`, and nobody but others can make a Database or a User Ready. -/
theorem unserved_without_proxy [DecidableEq ι] (libs : Externals) (srv : Server)
    (hρ : ¬ ρ.Grants ⟨"create", "", "services", some "proxy"⟩)
    {c : Config ι Resource Reply (Except Error Action) Store}
    (hc : ((fleet libs .kube srv).gated (gate ρ)).Reachable Unserved NobodyElse c) :
    Unserved c.store :=
  ((preserves_unserved hρ).sound hc).store

/-- Under the role in `yaml/deployment.yaml` the sample Cluster gets as far as `InCreation`. -/
theorem unserved_without_proxy_snapshot : ∃ c : FleetRun,
    ((fleet sampleExternals .kube ⟨false⟩).gated (gate snapshotRole)).Reachable Unserved NobodyElse
      c ∧ c.store.phase sampleCluster.key = some .inCreation ∧ Unserved c.store := by
  have hinit : Unserved sampleStore := by
    refine ⟨fun {k c} hc => .inl ?_, fun {k d} hd => ?_, fun {k u} hu => ?_⟩
    · change Function.update (fun _ => none) sampleCluster.key (some sampleCluster) k = _ at hc
      rcases eq_or_ne k sampleCluster.key with rfl | hk
      · rw [Function.update_self] at hc
        obtain rfl := Option.some.inj hc
        rfl
      · rw [Function.update_of_ne hk] at hc
        cases hc
    · cases hd
    · cases hu
  have hserve (q : Call) (s : Store) : (gate snapshotRole).behind (Serves ⟨false⟩) q s
      ((gate snapshotRole).answer Call.refused (respond ⟨false⟩ fun _ => false) q s).1
      ((gate snapshotRole).answer Call.refused (respond ⟨false⟩ fun _ => false) q s).2 :=
    Gate.behind_answer (fun _ hq => forbidden_refused hq)
      (serves_respond ⟨false⟩ fun _ => false) q s
  have hstart : ((fleet sampleExternals .kube ⟨false⟩).gated (gate snapshotRole)).Reachable
      Unserved NobodyElse (⟨sampleStore, fun _ => none, []⟩ : FleetRun) := .init hinit
  have hrun : ((fleet sampleExternals .kube ⟨false⟩).gated (gate snapshotRole)).start sampleStore
      (.cluster sampleCluster) sampleCluster.reconcile.run := ⟨rfl, rfl⟩
  obtain ⟨c, hc, hstore, -⟩ := hstart.play hserve (fun _ _ hm => by cases hm <;> trivial)
    (i := .cluster sampleCluster.key) rfl hrun
  refine ⟨c, hc, ?_, unserved_without_proxy sampleExternals ⟨false⟩ (by decide) hc⟩
  rw [hstore]
  rfl

end Unserved

end SdbController
