import SdbController.Crd
import SdbController.Service

/-!
# The User reconciler

`User::reconcile` and what it calls. `New` and `Error` provision. A User without a password in its
spec draws a new one in every invocation that gets that far, before the request to SurrealDB and
before the Secret, which is only ever created.
-/

namespace SdbController

open Interaction Program

/-- `UserSpec::effective_username`. -/
def UserSpec.effectiveUsername (spec : UserSpec) (name : String) : String := spec.username.getD name

namespace User

open Reconciler

variable (libs : Externals) (client : Client) (u : User)

def setPhaseMsg (phase : UserPhase) (message : Option String) : Reconciler Unit :=
  call (.mergeUserStatus u.key phase message)

def secretName : String := u.spec.secretName.getD (u.name ++ "-credentials")

/-- The Secret that `ensure_secret` creates. -/
def secret (password : String) : Secret :=
  { metadata := { name := u.secretName, ns := u.ns, ownerReferences := [u.ownerRef] }
    type := "Opaque"
    data := [("password", password.toUTF8)] }

def ensureSecret (password : String) : Reconciler String := do
  createIfAbsent (.createSecret (u.secret password))
  pure u.secretName

/-- The ConfigMap that `ensure_configmap` creates. -/
def configMap (username clusterNs clusterName : String) : ConfigMap :=
  { metadata := { name := u.name ++ "-config", ns := u.ns, ownerReferences := [u.ownerRef] }
    data := [("url", "http://" ++ clusterName ++ "-surrealdb." ++ clusterNs ++
        ".svc.cluster.local:8000"), ("username", username)] }

def ensureConfigmap (username clusterNs clusterName : String) : Reconciler String := do
  createIfAbsent (.createConfigMap (u.configMap username clusterNs clusterName))
  pure (u.name ++ "-config")

def getRootCredentialsForCluster (clusterNs clusterName : String) :
    Reconciler (String × String) := do
  let cluster ← call (.getCluster ⟨clusterNs, clusterName⟩)
  let secName ← okOr ((Cluster.spec cluster).rootSecret.bind SecretReference.name)
    .missingRootCredentials
  let sec ← call (.getSecret ⟨clusterNs, secName⟩)
  let user ← okOr (((Secret.data sec).lookup "user").map fromUtf8OrDefault) .missingRootCredentials
  let pass ← okOr (((Secret.data sec).lookup "password").map fromUtf8OrDefault)
    .missingRootCredentials
  pure (user, pass)

def provisionUser (clusterNs clusterName nsName dbName username password user pass : String) :
    Reconciler Unit :=
  sendSql libs client clusterNs clusterName user pass
    (.defineDatabaseUser nsName dbName username password)

/-- The password of one invocation: that of the spec, or a new one. -/
def choosePassword : Reconciler String :=
  match u.spec.password with
  | some password => pure password
  | none => do
    let d ← draw 20
    pure d.password

/-- The namespace of the referenced Cluster. -/
def clusterNs : String := u.spec.clusterRef.ns.getD u.ns

/-- The namespace of the referenced Database. -/
def dbNs : String := u.spec.databaseRef.ns.getD u.ns

def username : String := u.spec.effectiveUsername u.name

/-- The second half of the branch for `New` and `Error`: what is published in the cluster. -/
def publish (password : String) : Reconciler Action := do
  match ← attempt (u.ensureSecret password) with
  | .error e =>
    let _ ← attempt (u.setPhaseMsg .error (some ("secret failed: " ++ e.display)))
    pure ⟨20⟩
  | .ok _ =>
    match ← attempt (u.ensureConfigmap u.username u.clusterNs u.spec.clusterRef.name) with
    | .error e =>
      let _ ← attempt (u.setPhaseMsg .error (some ("configmap failed: " ++ e.display)))
      pure ⟨20⟩
    | .ok _ =>
      let _ ← attempt (u.setPhaseMsg .ready none)
      pure ⟨120⟩

/-- The branch for `New` and `Error`. -/
def provision : Reconciler Action := do
  let db ← call (.getDatabase ⟨u.dbNs, u.spec.databaseRef.name⟩)
  let surrealNs := (Database.spec db).dbNamespace.getD u.dbNs
  let surrealDb := (Database.spec db).dbName.getD (Database.name db)
  let (rootUser, rootPass) ←
    getRootCredentialsForCluster u.clusterNs u.spec.clusterRef.name
  let password ← u.choosePassword
  match ← attempt (provisionUser libs client u.clusterNs u.spec.clusterRef.name surrealNs surrealDb
      u.username password rootUser rootPass) with
  | .error e =>
    let _ ← attempt (u.setPhaseMsg .error (some ("provision failed: " ++ e.display)))
    pure ⟨20⟩
  | .ok () => u.publish password

/-- `User::reconcile`. -/
def reconcile : Reconciler Action :=
  match u.phase with
  | .new | .error => u.provision libs client
  | .ready => pure ⟨180⟩

end User

end SdbController
