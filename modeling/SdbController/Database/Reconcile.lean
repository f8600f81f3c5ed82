import SdbController.Crd
import SdbController.Service

/-!
# The Database reconciler

`Database::reconcile` and what it calls. The receiver `d` is the snapshot an invocation starts from;
the Cluster it refers to is read afresh.

Only `New` and `InProgress` provision, and nothing stores `InProgress`. `Error` waits for nothing.
-/

namespace SdbController

open Interaction Program

namespace Database

open Reconciler

variable (libs : Externals) (client : Client) (d : Database)

def setPhaseMsg (phase : DbPhase) (message : Option String) : Reconciler Unit :=
  call (.mergeDatabaseStatus d.key phase message)

def getRootCredentials (clusterNs clusterName : String) : Reconciler (String × String) := do
  let cluster ← call (.getCluster ⟨clusterNs, clusterName⟩)
  let secName ← okOr ((Cluster.spec cluster).rootSecret.bind SecretReference.name)
    .missingRootCredentials
  let sec ← call (.getSecret ⟨clusterNs, secName⟩)
  let user ← okOr (((Secret.data sec).lookup "user").map fromUtf8OrDefault) .missingRootCredentials
  let pass ← okOr (((Secret.data sec).lookup "password").map fromUtf8OrDefault)
    .missingRootCredentials
  pure (user, pass)

def ensureSurrealNamespace (clusterNs clusterName nsName user pass : String) : Reconciler Unit :=
  sendSql libs client clusterNs clusterName user pass (.defineNamespace nsName)

def ensureSurrealDatabase (clusterNs clusterName nsName dbName user pass : String) :
    Reconciler Unit :=
  sendSql libs client clusterNs clusterName user pass (.defineDatabase nsName dbName)

/-- The namespace of the referenced Cluster. -/
def clusterNs : String := d.spec.clusterRef.ns.getD d.ns

/-- The namespace that is defined. -/
def surrealNs : String := d.spec.dbNamespace.getD d.ns

/-- The database that is defined. -/
def surrealDb : String := d.spec.dbName.getD d.name

/-- The branch for `New` and `InProgress`. -/
def provision : Reconciler Action := do
  let (user, pass) ← getRootCredentials d.clusterNs d.spec.clusterRef.name
  match ← attempt (ensureSurrealNamespace libs client d.clusterNs d.spec.clusterRef.name d.surrealNs
      user pass) with
  | .error e =>
    let _ ← attempt (d.setPhaseMsg .error (some ("namespace define failed: " ++ e.display)))
    pure ⟨20⟩
  | .ok () =>
    match ← attempt (ensureSurrealDatabase libs client d.clusterNs d.spec.clusterRef.name
        d.surrealNs d.surrealDb user pass) with
    | .error e =>
      let _ ← attempt (d.setPhaseMsg .error (some ("database define failed: " ++ e.display)))
      pure ⟨20⟩
    | .ok () =>
      let _ ← attempt (d.setPhaseMsg .ready none)
      pure ⟨60⟩

/-- `Database::reconcile`. -/
def reconcile : Reconciler Action :=
  match d.phase with
  | .new | .inProgress => d.provision libs client
  | .ready => pure ⟨120⟩
  | .error => pure ⟨30⟩

end Database

end SdbController
