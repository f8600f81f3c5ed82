import Mathlib.Data.Bool.AllAny
import SdbController.Cluster.Lifecycle
import SdbController.Kubernetes.Validation

/-!
# Which Clusters can be deployed

The names and labels of the Deployment and the Service are made from the name of the Cluster, which
may be any subdomain. Nothing checks that the result is one that Kubernetes takes, nor that the two
backends are not both configured. `Cluster.Deployable` says that both objects are accepted, rule by
rule.

## Main results

* `built_objects` — which Clusters meet which rule
* `deployable_iff` — which Clusters meet them all
* `dotted_service_rejected` — a Cluster whose Service is rejected
-/

namespace SdbController

open Kubernetes

/-! ### The rules -/

/-- The values of all labels of a Deployment. -/
def Deployment.labelValues (d : Deployment) : List String :=
  (d.metadata.labels ++ d.matchLabels ++ d.template.labels).map Prod.snd

/-- The values of all labels of a Service. -/
def Service.labelValues (s : Service) : List String :=
  (s.metadata.labels ++ s.selector).map Prod.snd

/-- At least one of `value` and `valueFrom` is set. -/
def EnvVar.SetsSome (e : EnvVar) : Prop := e.value.isSome ∨ e.valueFrom.isSome

/-- Exactly one of `value` and `valueFrom` is set. -/
def EnvVar.SetsOne (e : EnvVar) : Prop := e.value.isSome ↔ ¬ e.valueFrom.isSome

namespace Cluster

variable (c : Cluster)

/-- Kubernetes accepts what is built for the Cluster. -/
structure Deployable (creationMode : Bool) : Prop where
  deploymentName : IsDnsSubdomain (c.buildSurrealDeployment c.name creationMode).metadata.name
  serviceName : IsDns1035Label (c.buildSurrealService c.name).metadata.name
  deploymentLabels : ∀ v ∈ (c.buildSurrealDeployment c.name creationMode).labelValues,
    IsLabelValue v
  serviceLabels : ∀ v ∈ (c.buildSurrealService c.name).labelValues, IsLabelValue v
  deploymentSelector : (c.buildSurrealDeployment c.name creationMode).matchLabels ⊆
    (c.buildSurrealDeployment c.name creationMode).template.labels
  serviceSelector : (c.buildSurrealService c.name).selector ⊆
    (c.buildSurrealDeployment c.name creationMode).template.labels
  envNames : ((c.buildSurrealDeployment c.name creationMode).template.env.map EnvVar.name).Nodup
  envValues : ∀ e ∈ (c.buildSurrealDeployment c.name creationMode).template.env, e.SetsOne

/-- A name that a Service can be named after, with the suffix. -/
def NamesService : Prop :=
  c.name.length ≤ 53 ∧ '.' ∉ c.name.toList ∧ c.name.toList.head?.any Char.isLower

/-! ### Names and labels -/

theorem suffix_isDns : (∀ ch ∈ "-surrealdb".toList, isDnsChar ch) ∧
    "-surrealdb".toList ≠ [] ∧ "-surrealdb".toList.getLast? ≠ some '-' :=
  ⟨List.all_iff_forall_prop.mp (by decide), by decide, by decide⟩

variable {c}

/-- The name of both objects. -/
theorem isDnsSubdomain_workload (hname : IsDnsSubdomain c.name) :
    IsDnsSubdomain (c.name ++ "-surrealdb") ↔ c.name.length ≤ 243 := by
  rw [hname.append_iff suffix_isDns.1 suffix_isDns.2, show "-surrealdb".length = 10 from rfl]
  omega

theorem isLabelValue_workload (hname : IsDnsSubdomain c.name) :
    IsLabelValue (c.name ++ "-surrealdb") ↔ c.name.length ≤ 53 := by
  have hlength : (c.name ++ "-surrealdb").length = c.name.length + 10 := String.length_append _ _
  constructor
  · intro h
    have := h.length
    omega
  · intro h
    rw [((isDnsSubdomain_workload hname).mpr (by omega)).isLabelValue_iff]
    omega

theorem isDns1035Label_workload (hname : IsDnsSubdomain c.name) :
    IsDns1035Label (c.name ++ "-surrealdb") ↔ c.NamesService := by
  have hlength : (c.name ++ "-surrealdb").length = c.name.length + 10 := String.length_append _ _
  have hdot : '.' ∉ (c.name ++ "-surrealdb").toList ↔ '.' ∉ c.name.toList := by
    simp
  have hhead : (c.name ++ "-surrealdb").toList.head? = c.name.toList.head? := by
    obtain ⟨ch, hch, -⟩ := hname.head
    rw [String.toList_append, List.head?_append, hch]
    rfl
  constructor
  · intro h
    have hsub : IsDnsSubdomain (c.name ++ "-surrealdb") :=
      (isDnsSubdomain_workload hname).mpr (by have := h.length; omega)
    obtain ⟨hlen, hd, hletter⟩ := hsub.isDns1035Label_iff.mp h
    exact ⟨by omega, hdot.mp hd, by rwa [← hhead]⟩
  · rintro ⟨hlen, hd, hletter⟩
    have hsub : IsDnsSubdomain (c.name ++ "-surrealdb") :=
      (isDnsSubdomain_workload hname).mpr (by omega)
    exact hsub.isDns1035Label_iff.mpr ⟨by omega, hdot.mpr hd, by rwa [hhead]⟩

/-- Of the three labels, the one with the name of the workload is the longest. -/
theorem isLabelValue_labels (hname : IsDnsSubdomain c.name) :
    (∀ v ∈ (c.labels (c.name ++ "-surrealdb")).map Prod.snd, IsLabelValue v) ↔
      c.name.length ≤ 53 := by
  have hsuffix : c.name ++ "-surrealdb" ≠ "" := by simp
  rw [labels, if_neg hsuffix]
  constructor
  · intro h
    exact (isLabelValue_workload hname).mp (h _ (by simp))
  · intro hlength v hv
    obtain rfl | rfl | rfl : v = "surrealdb" ∨ v = c.name ∨ v = c.name ++ "-surrealdb" := by
      simpa using hv
    · have hsubdomain : IsDnsSubdomain "surrealdb" :=
        ⟨by decide, List.all_iff_forall_prop.mp (by decide), by decide⟩
      exact hsubdomain.isLabelValue_iff.mpr (by decide)
    · exact hname.isLabelValue_iff.mpr (by omega)
    · exact (isLabelValue_workload hname).mpr hlength

theorem isLabelValue_deployment (hname : IsDnsSubdomain c.name) (m : Bool) :
    (∀ v ∈ (c.buildSurrealDeployment c.name m).labelValues, IsLabelValue v) ↔
      c.name.length ≤ 53 := by
  rw [← isLabelValue_labels hname]
  simp only [Deployment.labelValues, buildSurrealDeployment, List.map_append, List.mem_append,
    or_self]

theorem isLabelValue_service (hname : IsDnsSubdomain c.name) :
    (∀ v ∈ (c.buildSurrealService c.name).labelValues, IsLabelValue v) ↔ c.name.length ≤ 53 := by
  rw [← isLabelValue_labels hname]
  simp only [Service.labelValues, buildSurrealService, List.map_append, List.mem_append, or_self]

/-! ### The environment -/

/-- The environment of the container. -/
theorem env_build (m : Bool) : (c.buildSurrealDeployment c.name m).template.env =
    if m then c.envCreation else c.envNormal := by
  simp [PodTemplate.env, buildSurrealDeployment]

/-- The variables are fixed, but for the path, and have different names. -/
theorem envNames_nodup (m : Bool) :
    ((c.buildSurrealDeployment c.name m).template.env.map EnvVar.name).Nodup := by
  rw [env_build]
  cases m <;> simp [envCreation, envNormal]

/-- The variable with the address of the backend. -/
def pathVar (c : Cluster) : EnvVar :=
  { name := "SURREAL_PATH"
    valueFrom := c.spec.tikvSecretRef
    value := c.spec.tidbCluster.map fun _ => "tikv://" ++ c.name ++ "-pd:2379" }

/-- Every other variable has a value. -/
theorem eq_pathVar_or_setsOne {m : Bool} {e : EnvVar}
    (he : e ∈ (c.buildSurrealDeployment c.name m).template.env) : e = c.pathVar ∨ e.SetsOne := by
  rw [env_build] at he
  cases m with
  | false =>
    obtain rfl | rfl : e = { name := "SURREAL_AUTH", value := some "true" } ∨ e = c.pathVar := by
      simpa [envNormal, pathVar] using he
    · exact .inr (by simp [EnvVar.SetsOne])
    · exact .inl rfl
  | true =>
    obtain rfl | rfl :
        e = c.pathVar ∨ e = { name := "SURREAL_UNAUTHENTICATED", value := some "true" } := by
      simpa [envCreation, envNormal, pathVar] using he
    · exact .inl rfl
    · exact .inr (by simp [EnvVar.SetsOne])

theorem pathVar_mem (c : Cluster) (m : Bool) :
    c.pathVar ∈ (c.buildSurrealDeployment c.name m).template.env := by
  rw [env_build]
  cases m <;> simp [envCreation, envNormal, pathVar]

theorem pathVar_setsOne_iff (c : Cluster) :
    c.pathVar.SetsOne ↔ (c.spec.tidbCluster.isSome ↔ ¬ c.spec.tikvSecretRef.isSome) := by
  rw [EnvVar.SetsOne, pathVar]
  dsimp only
  rw [Option.isSome_map]

theorem configured_iff (c : Cluster) : c.tikvBackendConfigured = .ok () ↔
    c.spec.tidbCluster.isSome ∨ c.spec.tikvSecretRef.isSome := by
  rw [tikvBackendConfigured]
  split
  · next h => exact iff_of_true rfl h
  · next h => exact iff_of_false (by simp) h

/-! ### The objects -/

/-- **Which Clusters meet which rule.** Selectors and names of variables are in order for all, and
every variable is set; it is set once unless both backends are configured. The rest depends on the
name of the Cluster. -/
theorem built_objects (c : Cluster) (m : Bool) (hname : IsDnsSubdomain c.name)
    (hspec : c.tikvBackendConfigured = .ok ()) :
    (IsDnsSubdomain (c.buildSurrealDeployment c.name m).metadata.name ↔ c.name.length ≤ 243) ∧
    (IsDns1035Label (c.buildSurrealService c.name).metadata.name ↔ c.NamesService) ∧
    ((∀ v ∈ (c.buildSurrealDeployment c.name m).labelValues, IsLabelValue v) ↔
      c.name.length ≤ 53) ∧
    ((∀ v ∈ (c.buildSurrealService c.name).labelValues, IsLabelValue v) ↔ c.name.length ≤ 53) ∧
    (c.buildSurrealDeployment c.name m).matchLabels ⊆
      (c.buildSurrealDeployment c.name m).template.labels ∧
    (c.buildSurrealService c.name).selector ⊆
      (c.buildSurrealDeployment c.name m).template.labels ∧
    ((c.buildSurrealDeployment c.name m).template.env.map EnvVar.name).Nodup ∧
    ∀ e ∈ (c.buildSurrealDeployment c.name m).template.env, e.SetsSome ∧
      (¬ (c.spec.tidbCluster.isSome ∧ c.spec.tikvSecretRef.isSome) → e.SetsOne) := by
  refine ⟨isDnsSubdomain_workload hname, isDns1035Label_workload hname,
    isLabelValue_deployment hname m, isLabelValue_service hname, List.Subset.refl _,
    List.Subset.refl _, envNames_nodup m, fun e he => ?_⟩
  have hbackend := (configured_iff c).mp hspec
  rcases eq_pathVar_or_setsOne he with rfl | hone
  · refine ⟨?_, fun hboth => (pathVar_setsOne_iff c).mpr ?_⟩
    · rw [EnvVar.SetsSome, pathVar]
      dsimp only
      rwa [Option.isSome_map]
    · exact ⟨fun h h' => hboth ⟨h, h'⟩, fun h => hbackend.resolve_right h⟩
  · refine ⟨?_, fun _ => hone⟩
    by_cases hvalue : e.value.isSome
    · exact .inl hvalue
    · exact .inr (not_not.mp fun h => hvalue (hone.mpr h))

/-- **Which Clusters meet them all.** -/
theorem deployable_iff {m : Bool} (hname : IsDnsSubdomain c.name) :
    c.Deployable m ↔
      c.NamesService ∧ (c.spec.tidbCluster.isSome ↔ ¬ c.spec.tikvSecretRef.isSome) := by
  constructor
  · intro h
    exact ⟨(isDns1035Label_workload hname).mp h.serviceName,
      (pathVar_setsOne_iff c).mp (h.envValues _ (c.pathVar_mem m))⟩
  · rintro ⟨hservice, hbackend⟩
    have hlength : c.name.length ≤ 53 := hservice.1
    refine ⟨(isDnsSubdomain_workload hname).mpr (by omega),
      (isDns1035Label_workload hname).mpr hservice, (isLabelValue_deployment hname m).mpr hlength,
      (isLabelValue_service hname).mpr hlength, List.Subset.refl _, List.Subset.refl _,
      envNames_nodup m, fun e he => ?_⟩
    rcases eq_pathVar_or_setsOne he with rfl | hone
    · exact (pathVar_setsOne_iff c).mpr hbackend
    · exact hone

theorem built_objects_sample :
    IsDns1035Label (sampleCluster.buildSurrealService sampleCluster.name).metadata.name ↔
      sampleCluster.NamesService :=
  (built_objects sampleCluster false
    ⟨by decide, List.all_iff_forall_prop.mp (by decide), by decide⟩ rfl).2.1

/-- The Service of a Cluster whose name has a dot is not accepted. -/
theorem dotted_service_rejected :
    ¬ ∀ (c : Cluster) (m : Bool), IsDnsSubdomain c.name → c.tikvBackendConfigured = .ok () →
      c.Deployable m := by
  intro h
  have hvalid := h { sampleCluster with name := "db.shop" } false
    ⟨by decide, List.all_iff_forall_prop.mp (by decide), by decide⟩ rfl
  exact absurd (hvalid.serviceName.chars '.' (by decide)) (by decide)

end Cluster

end SdbController
