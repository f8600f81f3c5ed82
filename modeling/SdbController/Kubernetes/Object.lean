import Mathlib.Data.List.Basic

/-!
# Kubernetes objects

The part of the Kubernetes object model that the controllers build, read or compare. An object
carries exactly the fields the source sets; every other field is left at its default there and
left out here. Maps (`BTreeMap`) are association lists in key order.

Stored objects differ from built ones in two places. A Secret is stored with its `stringData`
encoded into `data`, and a Deployment is stored next to the pods it keeps available, each of which
remembers the template it was started from. Namespaces are called `ns`, as the source's locals are.
-/

namespace SdbController

/-- Namespace and name: what identifies an object among those of its kind. -/
structure ObjectKey where
  ns : String
  name : String
deriving DecidableEq, Repr

structure OwnerReference where
  apiVersion : String
  kind : String
  name : String
  uid : String
  controller : Option Bool
deriving DecidableEq, Repr

/-- A `BTreeMap<String, String>` of labels, in key order. -/
abbrev Labels : Type := List (String × String)

structure ObjectMeta where
  name : String
  ns : String
  labels : Labels := []
  ownerReferences : List OwnerReference := []
deriving DecidableEq, Repr

def ObjectMeta.key (m : ObjectMeta) : ObjectKey := ⟨m.ns, m.name⟩

/-! ### Secrets and ConfigMaps -/

structure Secret where
  metadata : ObjectMeta
  type : String
  data : List (String × ByteArray) := []
  stringData : List (String × String) := []

/-- What the API server stores: the strings of `stringData`, encoded, take precedence in `data`. -/
def Secret.stored (s : Secret) : Secret :=
  { s with data := s.stringData.map (fun e => (e.1, e.2.toUTF8)) ++ s.data, stringData := [] }

structure ConfigMap where
  metadata : ObjectMeta
  data : List (String × String)
deriving DecidableEq, Repr

/-! ### Workloads -/

structure SecretReference where
  name : Option String
  ns : Option String
deriving DecidableEq, Repr

structure SecretKeySelector where
  key : String
  name : String
  optional : Option Bool
deriving DecidableEq, Repr

structure EnvVar where
  name : String
  value : Option String := none
  valueFrom : Option SecretKeySelector := none
deriving DecidableEq, Repr

structure ContainerPort where
  containerPort : ℕ
  name : String
  protocol : String
deriving DecidableEq, Repr

/-- An HTTP probe. -/
structure Probe where
  path : String
  port : ℕ
  scheme : String
  initialDelaySeconds : ℕ
  periodSeconds : ℕ
deriving DecidableEq, Repr

structure Container where
  name : String
  image : String
  args : List String
  env : List EnvVar
  ports : List ContainerPort
  readinessProbe : Probe
  livenessProbe : Probe
deriving DecidableEq, Repr

/-- A pod template with its labels and containers. -/
structure PodTemplate where
  labels : Labels
  containers : List Container
deriving DecidableEq, Repr

structure Deployment where
  metadata : ObjectMeta
  replicas : ℕ
  matchLabels : Labels
  template : PodTemplate
deriving DecidableEq, Repr

structure ServicePort where
  name : String
  port : ℕ
  targetPort : ℕ
  protocol : String
deriving DecidableEq, Repr

structure Service where
  metadata : ObjectMeta
  selector : Labels
  ports : List ServicePort
  type : String
deriving DecidableEq, Repr

/-- A stored Deployment: the object last applied, and the template of each of its available pods.
A pod keeps the template it was started from until it is replaced. -/
structure LiveDeployment where
  object : Deployment
  pods : List PodTemplate := []
deriving DecidableEq, Repr

/-- `status.availableReplicas`: the available pods of every template. The field is absent while
there are none. -/
def LiveDeployment.availableReplicas (d : LiveDeployment) : Option ℕ :=
  if d.pods = [] then none else some d.pods.length

theorem LiveDeployment.availableReplicas_pos {d : LiveDeployment} :
    0 < d.availableReplicas.getD 0 ↔ d.pods ≠ [] := by
  rw [availableReplicas]
  by_cases hd : d.pods = []
  · simp [hd]
  · rw [if_neg hd, Option.getD_some, List.length_pos_iff]

/-! ### TidbClusters -/

structure Condition where
  type : String
  status : String
deriving DecidableEq, Repr

/-- The spec of a TidbCluster. The controller hands it through unread, so its content is opaque. -/
structure TidbClusterSpec where
  manifest : String
deriving DecidableEq, Repr

structure TidbClusterStatus where
  conditions : Option (List Condition)
deriving DecidableEq, Repr

structure TidbCluster where
  metadata : ObjectMeta
  spec : TidbClusterSpec
  status : Option TidbClusterStatus := none
deriving DecidableEq, Repr

end SdbController
