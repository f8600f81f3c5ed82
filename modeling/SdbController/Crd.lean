import SdbController.Kubernetes.Object

/-!
# The custom resources

`Cluster`, `Database` and `User` with their specs and statuses, as `kube` derives them. A stored
resource always has a name, a namespace and a uid, so they are plain fields here and the source's
`namespace().unwrap()` cannot fail.

A status that was never written is absent, and so is its phase; every reconciler reads both as
`New`.
-/

namespace SdbController

/-! ### Cluster -/

structure Spec where
  replicas : Option UInt8 := none
  surrealdbImage : Option String := none
  rootSecret : Option SecretReference := none
  tikvSecretRef : Option SecretKeySelector := none
  tidbCluster : Option TidbClusterSpec := none
deriving DecidableEq, Repr

/-- The phase of `Cluster`. -/
inductive Phase
  | new
  | preparing
  | inCreation
  | notReady
  | inProgress
  | ready
  | error
deriving DecidableEq, Repr

/-- Nothing sets one, but a status that has one keeps it. -/
structure TidbClusterRef where
  name : String
  ns : Option String
deriving DecidableEq, Repr

/-- The status object of `Cluster`. -/
structure Status where
  phase : Option Phase
  tidbClusterRef : Option TidbClusterRef := none
deriving DecidableEq, Repr

structure Cluster where
  name : String
  ns : String
  uid : String
  spec : Spec
  status : Option Status := none
deriving DecidableEq, Repr

namespace Cluster

def key (c : Cluster) : ObjectKey := ⟨c.ns, c.name⟩

/-- The phase the reconciler acts on. -/
def phase (c : Cluster) : Phase := (c.status.bind Status.phase).getD .new

/-- `Resource::kind` and `Resource::api_version` of the derived resource. -/
def kind : String := "Cluster"

def apiVersion : String := "surrealdb.aexol.com/v1alpha1"

/-- `controller_owner_ref` with `controller` set to true. -/
def ownerRef (c : Cluster) : OwnerReference :=
  ⟨apiVersion, kind, c.name, c.uid, some true⟩

end Cluster

/-! ### Database -/

structure ClusterRef where
  name : String
  ns : Option String := none
deriving DecidableEq, Repr

structure DbSpec where
  clusterRef : ClusterRef
  dbNamespace : Option String := none
  dbName : Option String := none
deriving DecidableEq, Repr

inductive DbPhase
  | new
  | inProgress
  | ready
  | error
deriving DecidableEq, Repr

structure DbStatus where
  phase : Option DbPhase
  message : Option String := none
deriving DecidableEq, Repr

structure Database where
  name : String
  ns : String
  spec : DbSpec
  status : Option DbStatus := none
deriving DecidableEq, Repr

namespace Database

def key (d : Database) : ObjectKey := ⟨d.ns, d.name⟩

def phase (d : Database) : DbPhase := (d.status.bind DbStatus.phase).getD .new

end Database

/-! ### User -/

structure DatabaseRef where
  name : String
  ns : Option String := none
deriving DecidableEq, Repr

structure UserSpec where
  clusterRef : ClusterRef
  databaseRef : DatabaseRef
  username : Option String := none
  password : Option String := none
  secretName : Option String := none
deriving DecidableEq, Repr

inductive UserPhase
  | new
  | ready
  | error
deriving DecidableEq, Repr

structure UserStatus where
  phase : Option UserPhase
  message : Option String := none
deriving DecidableEq, Repr

structure User where
  name : String
  ns : String
  uid : String
  spec : UserSpec
  status : Option UserStatus := none
deriving DecidableEq, Repr

namespace User

def key (u : User) : ObjectKey := ⟨u.ns, u.name⟩

def phase (u : User) : UserPhase := (u.status.bind UserStatus.phase).getD .new

def ownerRef (u : User) : OwnerReference :=
  ⟨"surrealdb.aexol.com/v1alpha1", "User", u.name, u.uid, some true⟩

end User

end SdbController
