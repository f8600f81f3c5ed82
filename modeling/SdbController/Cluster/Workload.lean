import SdbController.Crd

/-!
# What a Cluster deploys

The builders of `cluster/crd.rs`. One Cluster has one Deployment and one Service, both called
`<name>-surrealdb`, and the Deployment comes in two modes: in creation mode the server is open so
that the root user can be defined, in normal mode it authenticates.
-/

namespace SdbController

namespace Cluster

variable (c : Cluster)

/-- `labels`, in key order. -/
def labels (suffix : String) : Labels :=
  [("app.kubernetes.io/name", "surrealdb"), ("surrealdb.aexol.com/cluster", c.name)] ++
    if suffix = "" then [] else [("surrealdb.aexol.com/name", suffix)]

def buildSurrealService (name : String) : Service :=
  let svcName := name ++ "-surrealdb"
  { metadata := { name := svcName, ns := c.ns, labels := c.labels svcName,
                  ownerReferences := [c.ownerRef] }
    selector := c.labels svcName
    ports := [{ name := "http", port := 8000, targetPort := 8000, protocol := "TCP" }]
    type := "ClusterIP" }

def envNormal : List EnvVar :=
  [{ name := "SURREAL_AUTH", value := some "true" },
   { name := "SURREAL_PATH"
     valueFrom := c.spec.tikvSecretRef
     value := c.spec.tidbCluster.map fun _ => "tikv://" ++ c.name ++ "-pd:2379" }]

/-- The environment of the open server in which the root user is created. -/
def envCreation : List EnvVar :=
  c.envNormal.filter (fun e => e.name ≠ "SURREAL_AUTH") ++
    [{ name := "SURREAL_UNAUTHENTICATED", value := some "true" }]

def buildSurrealDeployment (name : String) (creationMode : Bool) : Deployment :=
  let deployName := name ++ "-surrealdb"
  let httpProbe : Probe :=
    { path := "/health", port := 8000, scheme := "HTTP", initialDelaySeconds := 5,
      periodSeconds := 10 }
  let container : Container :=
    { name := "surrealdb"
      image := c.spec.surrealdbImage.getD "surrealdb/surrealdb:latest"
      args := ["start", "--bind", "0.0.0.0:8000"]
      env := if creationMode then c.envCreation else c.envNormal
      ports := [{ containerPort := 8000, name := "http", protocol := "TCP" }]
      readinessProbe := httpProbe
      livenessProbe := httpProbe }
  { metadata := { name := deployName, ns := c.ns, labels := c.labels deployName,
                  ownerReferences := [c.ownerRef] }
    replicas := (c.spec.replicas.map UInt8.toNat).getD 1
    matchLabels := c.labels deployName
    template := { labels := c.labels deployName, containers := [container] } }

/-- Where the Deployment and the Service are. -/
def workloadKey : ObjectKey := ⟨c.ns, c.name ++ "-surrealdb"⟩

@[simp] theorem buildSurrealDeployment_key (m : Bool) :
    (c.buildSurrealDeployment c.name m).metadata.key = c.workloadKey := rfl

@[simp] theorem buildSurrealService_key :
    (c.buildSurrealService c.name).metadata.key = c.workloadKey := rfl

end Cluster

/-! ### Reading the mode off a workload -/

/-- The environment of the containers of a pod template. -/
def PodTemplate.env (t : PodTemplate) : List EnvVar := t.containers.flatMap Container.env

/-- `SURREAL_AUTH=true` and no `SURREAL_UNAUTHENTICATED`. -/
def PodTemplate.Authenticated (t : PodTemplate) : Prop :=
  (∃ e ∈ t.env, e.name = "SURREAL_AUTH" ∧ e.value = some "true") ∧
    ∀ e ∈ t.env, e.name ≠ "SURREAL_UNAUTHENTICATED"

instance : DecidablePred PodTemplate.Authenticated := fun _ => inferInstanceAs (Decidable (_ ∧ _))

/-- `SURREAL_UNAUTHENTICATED=true`. -/
def PodTemplate.Unauthenticated (t : PodTemplate) : Prop :=
  ∃ e ∈ t.env, e.name = "SURREAL_UNAUTHENTICATED" ∧ e.value = some "true"

/-- A Deployment in normal mode. -/
def Deployment.Authenticated (d : Deployment) : Prop := d.template.Authenticated

instance : DecidablePred Deployment.Authenticated := fun d =>
  inferInstanceAs (Decidable d.template.Authenticated)

@[simp] theorem Cluster.authenticated_build (c : Cluster) (name : String) (m : Bool) :
    (c.buildSurrealDeployment name m).Authenticated ↔ m = false := by
  cases m <;>
    simp [Deployment.Authenticated, PodTemplate.Authenticated, PodTemplate.env,
      Cluster.buildSurrealDeployment, Cluster.envCreation, Cluster.envNormal]

@[simp] theorem Cluster.unauthenticated_build (c : Cluster) (name : String) (m : Bool) :
    (c.buildSurrealDeployment name m).template.Unauthenticated ↔ m = true := by
  cases m <;>
    simp [PodTemplate.Unauthenticated, PodTemplate.env, Cluster.buildSurrealDeployment,
      Cluster.envCreation, Cluster.envNormal]

end SdbController
