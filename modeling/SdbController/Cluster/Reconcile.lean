import SdbController.Cluster.Workload
import SdbController.Service

/-!
# The Cluster reconciler

`Cluster::reconcile` and what it calls, as reconcilers. The receiver `c` is the snapshot that an
invocation starts from; it never looks at the stored Cluster again, so the phase it acts on and the
spec it builds from are the ones it was started with.

Two things are easy to miss in the source and are kept. Most writes of the phase are `.ok()`, so an
invocation goes on after a failed one. And `Phase::Error` applies the authenticated workload but
writes no phase.
-/

namespace SdbController

open Interaction Program

/-- The source's `is_true`. -/
def isTrue (s : String) : Bool := s = "True" ∨ s = "true" ∨ s = "TRUE"

/-- The readiness test on a TidbCluster: some true `Ready` or `Available` condition. -/
def TidbCluster.isReady (tc : TidbCluster) : Bool :=
  match tc.status.bind TidbClusterStatus.conditions with
  | none => false
  | some conds => (conds.find? fun c => (c.type = "Ready" ∨ c.type = "Available") ∧
      isTrue c.status).isSome

/-- The entries `user` and `password` of a Secret, each read as text. -/
def Secret.credentials (s : Secret) : Option (String × String) :=
  match s.data.lookup "user", s.data.lookup "password" with
  | some u, some p => some (fromUtf8OrDefault u, fromUtf8OrDefault p)
  | _, _ => none

/-- A root Secret as a user provides it. -/
def givenSecret (ns name : String) : Secret :=
  { metadata := { name := name, ns := ns }, type := "Opaque"
    stringData := [("password", "secret"), ("user", "root")] }

namespace Cluster

open Reconciler

variable (c : Cluster)

def setPhase (phase : Phase) : Reconciler Unit := call (.mergeClusterStatus c.key phase)

def rootSecretName : String := c.name ++ "-surrealdb-root"

def persistRootSecretRef (secretName : String) : Reconciler Unit :=
  if c.spec.rootSecret.isSome then pure ()
  else call (.replaceRootSecret c.key ⟨some secretName, some c.ns⟩)

/-- The Secret that `ensure_root_secret` creates. -/
def rootSecret (password : String) : Secret :=
  { metadata := { name := c.rootSecretName, ns := c.ns, ownerReferences := [c.ownerRef] }
    type := "Opaque"
    stringData := [("password", password), ("user", "root")] }

def ensureRootSecret : Reconciler SecretReference :=
  match c.spec.rootSecret with
  | some sel => pure sel
  | none => do
    let d ← draw (secureSamples 32)
    createIfAbsent (.createSecret (c.rootSecret d.password))
    c.persistRootSecretRef c.rootSecretName
    pure ⟨some c.rootSecretName, some c.ns⟩

def reconcileSurrealdbWithMode (name : String) (creationMode : Bool) : Reconciler Unit := do
  let _ ← call (.applyDeployment (c.buildSurrealDeployment name creationMode))
  let _ ← call (.applyService (c.buildSurrealService name))
  pure ()

/-- The first half of `bootstrap_root_user`: the credentials. -/
def bootstrapCredentials : Reconciler (String × String) := do
  let secName ← okOr (c.spec.rootSecret.bind SecretReference.name) .missingRootCredentials
  let sec ← call (.getSecret ⟨c.ns, secName⟩)
  okOr sec.credentials .missingRootCredentials

/-- The request of `bootstrap_root_user`, through the API server's service proxy. -/
def bootstrapRequest (name user pass : String) : HttpRequest :=
  { method := "POST"
    uri := "/api/v1/namespaces/" ++ c.ns ++ "/services/" ++ name ++ "-surrealdb:8000/proxy/sql"
    headers := [("accept", "application/json"), ("content-type", "text/plain")]
    body := .defineRootUser user pass }

def bootstrapRootUser (name : String) : Reconciler Unit := do
  let (user, pass) ← c.bootstrapCredentials
  let r ← http (c.bootstrapRequest name user pass)
  Reconciler.ofExcept ((requestText r).mapError .kubeError)

def checkReady (name : String) : Reconciler Bool := do
  let dp ← call (.getDeployment ⟨c.ns, name ++ "-surrealdb"⟩)
  pure (0 < (LiveDeployment.availableReplicas dp).getD 0)

def tikvBackendConfigured : Except String Unit :=
  if c.spec.tidbCluster.isSome ∨ c.spec.tikvSecretRef.isSome then .ok ()
  else .error "No TiKV backend configured: set .spec.tidbCluster or .spec.tikvSecret"

/-- The TidbCluster that is created. A fresh object has no owners yet, so the source's search for
duplicates finds none. -/
def tidbClusterObject (name : String) (spec : TidbClusterSpec) : TidbCluster :=
  { metadata := { name := name, ns := c.ns, ownerReferences := [c.ownerRef] }, spec := spec }

def reconcileTidbCluster (name : String) : Reconciler Unit :=
  match c.spec.tidbCluster with
  | none => pure ()
  | some spec => createIfAbsent (.createTidbCluster (c.tidbClusterObject name spec))

/-! ### One definition per branch -/

def reconcileNew : Reconciler Action := do
  match c.tikvBackendConfigured with
  | .error _ =>
    let _ ← c.setPhase .error
    pure ⟨30⟩
  | .ok () =>
    match ← attempt c.ensureRootSecret with
    | .error _ =>
      let _ ← attempt (c.setPhase .error)
      pure ⟨30⟩
    | .ok _ =>
      match c.spec.tidbCluster with
      | some _ =>
        let _ ← attempt (c.setPhase .preparing)
        pure ⟨10⟩
      | none =>
        let _ ← c.setPhase .inCreation
        let _ ← c.reconcileSurrealdbWithMode c.name true
        pure ⟨20⟩

def reconcilePreparing : Reconciler Action := do
  match ← attempt (c.reconcileTidbCluster c.name) with
  | .error _ => pure ⟨20⟩
  | .ok () =>
    match ← api (.getTidbCluster c.key) with
    | .ok (some tc) =>
      if TidbCluster.isReady tc then
        let _ ← attempt (c.setPhase .inCreation)
        let _ ← c.reconcileSurrealdbWithMode c.name true
        pure ⟨20⟩
      else pure ⟨15⟩
    | .ok none => pure ⟨10⟩
    | .error _ => pure ⟨15⟩

def reconcileInCreation : Reconciler Action := do
  match ← attempt (c.checkReady c.name) with
  | .ok true =>
    match ← attempt (c.bootstrapRootUser c.name) with
    | .error _ => pure ⟨30⟩
    | .ok () =>
      let _ ← attempt (c.setPhase .inProgress)
      let _ ← c.reconcileSurrealdbWithMode c.name false
      pure ⟨20⟩
  | .ok false => pure ⟨20⟩
  | .error _ => pure ⟨20⟩

def reconcileInProgress : Reconciler Action := do
  let _ ← c.reconcileSurrealdbWithMode c.name false
  match ← attempt (c.checkReady c.name) with
  | .ok true =>
    let _ ← attempt (c.setPhase .ready)
    pure ⟨60⟩
  | .ok false =>
    let _ ← attempt (c.setPhase .notReady)
    pure ⟨30⟩
  | .error _ =>
    let _ ← attempt (c.setPhase .notReady)
    pure ⟨30⟩

def reconcileReady : Reconciler Action := do
  let _ ← c.reconcileSurrealdbWithMode c.name false
  match ← attempt (c.checkReady c.name) with
  | .ok true => pure ⟨120⟩
  | .ok false =>
    let _ ← attempt (c.setPhase .notReady)
    pure ⟨30⟩
  | .error _ =>
    let _ ← attempt (c.setPhase .notReady)
    pure ⟨30⟩

def reconcileNotReady : Reconciler Action := do
  let _ ← c.reconcileSurrealdbWithMode c.name false
  match ← attempt (c.checkReady c.name) with
  | .ok true =>
    let _ ← attempt (c.setPhase .ready)
    pure ⟨60⟩
  | .ok false => pure ⟨30⟩
  | .error _ => pure ⟨30⟩

def reconcileError : Reconciler Action := do
  let _ ← attempt (c.reconcileSurrealdbWithMode c.name false)
  pure ⟨45⟩

/-- `Cluster::reconcile`. -/
def reconcile : Reconciler Action :=
  match c.phase with
  | .new => c.reconcileNew
  | .preparing => c.reconcilePreparing
  | .inCreation => c.reconcileInCreation
  | .inProgress => c.reconcileInProgress
  | .ready => c.reconcileReady
  | .notReady => c.reconcileNotReady
  | .error => c.reconcileError

/-- If every request is answered, the credentials are found that are there. -/
theorem completes_bootstrapCredentials {srv : Server}
    {http : HttpRequest → Store → HttpOutcome → Store → Prop} {s s' : Store} {name : String}
    {sec : Secret} {cred : String × String} {x : Except Error (String × String)}
    (hname : c.spec.rootSecret.bind SecretReference.name = some name)
    (hsec : s.secrets ⟨c.ns, name⟩ = some sec) (hcred : sec.credentials = some cred)
    (h : Completes (Answers srv http) c.bootstrapCredentials.run s x s') :
    x = .ok cred ∧ s' = s := by
  rw [bootstrapCredentials] at h
  rw [hname] at h
  obtain ⟨y, t, hok, hrest⟩ := (completes_except_bind ..).mp h
  obtain ⟨rfl, rfl⟩ := (completes_ofExcept ..).mp hok
  obtain ⟨y, t, hget, hrest⟩ := (completes_except_bind ..).mp hrest
  obtain ⟨rfl, rfl⟩ := (completes_answered (.getSecret ⟨c.ns, name⟩)).mp hget
  simp only [answer, lookup, hsec, Except.mapError] at hrest
  rw [hcred] at hrest
  exact hrest

end Cluster

end SdbController
