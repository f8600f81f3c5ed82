import Mathlib.Data.List.Forall2
import SdbController.Json.Schema

/-!
# The generated CRD

`crdgen` prints the definition of the Cluster resource. Its schema is derived from the Rust types,
and those say nothing about the configuration of a TiDB component, without which the API server
would store the Cluster. `crdgen` therefore sets the `config` of each component, and the `proxy` of
TiFlash, to a schema that preserves what it does not know.

The schema is taken as it is derived. The members that all resources have, such as `metadata`, are
not pruned, and are left out of the documents here.

## Main results

* `crdgen_preserves` — configurations are stored as they are given, and everything else as before
* `crdgen_panics_iff` — when there is nothing to generate
-/

namespace SdbController

open Json Schema Document

/-- One version of a definition. -/
structure CrdVersion where
  name : String
  schema : Option (Option Schema)

/-- The components of a TidbCluster with their configurations. -/
def fixComponents (props : List (String × Schema)) : List (String × Schema) :=
  let config (v : Schema) : Schema := v.insertProperty "config" unknown
  let proxy (v : Schema) : Schema := v.insertProperty "proxy" unknown
  let props := modifyEntry "pd" config props
  let props := modifyEntry "pdms" (·.modifyItem config) props
  let props := modifyEntry "pump" config props
  let props := modifyEntry "ticdc" config props
  let props := modifyEntry "tidb" config props
  let props := modifyEntry "tiflash" (proxy ∘ config) props
  let props := modifyEntry "tikv" config props
  modifyEntry "tiproxy" config props

/-- The schema of a version. Without the properties of `tidbCluster` there is a panic. -/
def fixSchema (s : Schema) : Option Schema := do
  let props ← s.properties
  let spec ← props.lookup "spec"
  let specProps ← spec.properties
  let tidbCluster ← specProps.lookup "tidbCluster"
  let _ ← tidbCluster.properties
  pure (s.modifyProperty "spec" fun spec => spec.modifyProperty "tidbCluster" fun tidbCluster =>
    { tidbCluster with properties := tidbCluster.properties.map fixComponents })

def fixVersion (v : CrdVersion) : Option CrdVersion := do
  let schema ← v.schema
  let s ← schema
  let s' ← fixSchema s
  pure { v with schema := some (some s') }

/-- The loop of `main` over the versions of the Cluster definition. -/
def crdgen (versions : List CrdVersion) : Option (List CrdVersion) := versions.mapM fixVersion

/-! ### The paths -/

/-- Below a component. -/
def component (name : String) (path : List Step) : List Step :=
  .member "spec" :: .member "tidbCluster" :: .member name :: path

/-- Where there are configurations. -/
def configPaths : List (List Step) :=
  [component "pd" [.member "config"], component "pdms" [.items, .member "config"],
    component "pump" [.member "config"], component "ticdc" [.member "config"],
    component "tidb" [.member "config"], component "tiflash" [.member "config"],
    component "tiflash" [.member "proxy"], component "tikv" [.member "config"],
    component "tiproxy" [.member "config"]]

theorem configPaths_apart : configPaths.Pairwise Apart := by decide

theorem relax_component (s : Schema) (name : String) (step : Step) (path : List Step) :
    s.relax (component name (step :: path)) = s.modifyProperty "spec" fun spec =>
      spec.modifyProperty "tidbCluster" fun tidbCluster =>
        tidbCluster.modifyProperty name (Schema.relax (step :: path)) := rfl

/-- The paths below one of the other, taken together. -/
theorem modify_tidbCluster (s : Schema) (f g : Schema → Schema) :
    (s.modifyProperty "spec" (·.modifyProperty "tidbCluster" f)).modifyProperty "spec"
        (·.modifyProperty "tidbCluster" g) =
      s.modifyProperty "spec" (·.modifyProperty "tidbCluster" (g ∘ f)) := by
  rw [modifyProperty_modifyProperty]
  refine congrArg (s.modifyProperty "spec") (funext fun spec => ?_)
  exact modifyProperty_modifyProperty g

/-- What `crdgen` does to a schema. -/
theorem fixSchema_eq_some {s s' : Schema} (h : fixSchema s = some s') :
    s' = s.relaxAll configPaths := by
  have hfix : s' = s.modifyProperty "spec" (·.modifyProperty "tidbCluster" fun tidbCluster =>
      { tidbCluster with properties := tidbCluster.properties.map fixComponents }) := by
    rw [fixSchema] at h
    simp only [Option.bind_eq_bind, Option.bind_eq_some_iff] at h
    obtain ⟨_, _, _, _, _, _, _, _, _, _, hs'⟩ := h
    exact (Option.some.inj hs').symm
  rw [hfix, Schema.relaxAll, configPaths]
  simp only [List.foldl_cons, List.foldl_nil, relax_component, modify_tidbCluster]
  refine congrArg (s.modifyProperty "spec") (funext fun spec => ?_)
  refine congrArg (spec.modifyProperty "tidbCluster") (funext fun tidbCluster => ?_)
  obtain ⟨_ | props, _, _, _, _⟩ := tidbCluster
  · rfl
  · rw [Option.map_some, fixComponents]
    -- the two properties of TiFlash are set at once
    dsimp only
    rw [← modifyEntry_modifyEntry]
    rfl

/-- There is a schema with the properties of `tidbCluster`. -/
def CrdVersion.Specifies (v : CrdVersion) : Prop :=
  ∃ s spec tidbCluster props, v.schema = some (some s) ∧ s.property "spec" = some spec ∧
    spec.property "tidbCluster" = some tidbCluster ∧ tidbCluster.properties = some props

theorem fixSchema_isSome_iff {s : Schema} :
    (fixSchema s).isSome ↔ ∃ spec tidbCluster props, s.property "spec" = some spec ∧
      spec.property "tidbCluster" = some tidbCluster ∧ tidbCluster.properties = some props := by
  simp only [fixSchema, Option.bind_eq_bind, Option.isSome_iff_exists, Option.bind_eq_some_iff,
    property]
  constructor
  · rintro ⟨_, props, hprops, spec, hspec, specProps, hspecProps, tidbCluster, htidb, ps, hps, -⟩
    exact ⟨spec, tidbCluster, ps, ⟨props, hprops, hspec⟩, ⟨specProps, hspecProps, htidb⟩, hps⟩
  · rintro ⟨spec, tidbCluster, ps, ⟨props, hprops, hspec⟩, ⟨specProps, hspecProps, htidb⟩, hps⟩
    exact ⟨_, props, hprops, spec, hspec, specProps, hspecProps, tidbCluster, htidb, ps, hps, rfl⟩

theorem fixVersion_eq_some {v v' : CrdVersion} (h : fixVersion v = some v') :
    ∃ s, v.schema = some (some s) ∧
      v' = { v with schema := some (some (s.relaxAll configPaths)) } := by
  rw [fixVersion] at h
  simp only [Option.bind_eq_bind, Option.bind_eq_some_iff] at h
  obtain ⟨_, hschema, s, rfl, s', hs', hv'⟩ := h
  obtain rfl := fixSchema_eq_some hs'
  exact ⟨s, hschema, (Option.some.inj hv').symm⟩

theorem fixVersion_isSome_iff {v : CrdVersion} : (fixVersion v).isSome ↔ v.Specifies := by
  constructor
  · intro h
    obtain ⟨v', hv'⟩ := Option.isSome_iff_exists.mp h
    rw [fixVersion] at hv'
    simp only [Option.bind_eq_bind, Option.bind_eq_some_iff] at hv'
    obtain ⟨_, hschema, s, rfl, s', hs', -⟩ := hv'
    obtain ⟨spec, tidbCluster, props, hprops⟩ :=
      fixSchema_isSome_iff.mp (Option.isSome_iff_exists.mpr ⟨s', hs'⟩)
    exact ⟨s, spec, tidbCluster, props, hschema, hprops⟩
  · rintro ⟨s, spec, tidbCluster, props, hschema, hprops⟩
    obtain ⟨s', hs'⟩ := Option.isSome_iff_exists.mp
      (fixSchema_isSome_iff.mpr ⟨spec, tidbCluster, props, hprops⟩)
    rw [fixVersion, hschema]
    simp [hs']

/-- What is generated has the versions of the definition, each of them fixed. -/
theorem crdgen_eq_some_iff {versions versions' : List CrdVersion} :
    crdgen versions = some versions' ↔
      List.Forall₂ (fun v v' => fixVersion v = some v') versions versions' := by
  rw [crdgen]
  induction versions generalizing versions' with
  | nil => simp
  | cons v versions ih =>
    simp only [List.mapM_cons, Option.bind_eq_bind, Option.bind_eq_some_iff, ih,
      List.forall₂_cons_left_iff]
    constructor
    · rintro ⟨v', hv, versions'', hrest, h⟩
      exact ⟨v', versions'', hv, hrest, (Option.some.inj h).symm⟩
    · rintro ⟨v', versions'', hv, hrest, rfl⟩
      exact ⟨v', hv, versions'', hrest, rfl⟩

/-- There is nothing to generate exactly if a version is not specified far enough. -/
theorem crdgen_panics_iff {versions : List CrdVersion} :
    crdgen versions = none ↔ ∃ v ∈ versions, ¬ v.Specifies := by
  simp only [← fixVersion_isSome_iff, Option.not_isSome_iff_eq_none]
  rw [crdgen]
  induction versions with
  | nil => simp
  | cons v versions ih =>
    rw [List.mapM_cons]
    cases hv : fixVersion v with
    | none => simp [hv]
    | some v' => cases hvs : versions.mapM fixVersion <;> simpa [hv, hvs] using ih

/-! ### What is stored -/

/-- A document is stored under `s'` with the configurations that it has, and otherwise as it is
under `s`. -/
structure StoredAs (s s' : Schema) (d : Document) : Prop where
  configurations : ∀ path ∈ configPaths, Reaches path s →
    (∀ config ∈ values path d, ∀ items, config ≠ arr items) →
    values path (prune (some s') d) = values path d
  rest : forgetAll configPaths (prune (some s') d) = forgetAll configPaths (prune (some s) d)

theorem storedAs (s : Schema) (d : Document) : StoredAs s (s.relaxAll configPaths) d where
  configurations path hpath hreach hconfig := by
    rw [values_prune (relaxed_relaxAll configPaths_apart hpath hreach)]
    exact (List.map_congr_left fun config h => prune_unknown (hconfig config h)).trans
      (List.map_id _)
  rest := forgetAll_prune_relaxAll configPaths s d

/-- **What is generated stores every configuration as it is given, and the rest as before.** -/
theorem crdgen_preserves {versions versions' : List CrdVersion}
    (h : crdgen versions = some versions') :
    List.Forall₂ (fun v v' => v'.name = v.name ∧ ∃ s s', v.schema = some (some s) ∧
      v'.schema = some (some s') ∧ ∀ d, StoredAs s s' d) versions versions' := by
  refine (crdgen_eq_some_iff.mp h).imp fun v v' hv => ?_
  obtain ⟨s, hschema, rfl⟩ := fixVersion_eq_some hv
  exact ⟨rfl, s, _, hschema, rfl, storedAs s⟩

/-- A definition in which `pd` is an object, and `pdms` a list of which nothing is said. -/
def pdOnly : CrdVersion where
  name := "v1beta1"
  schema :=
    let pd : Schema := { properties := some [("replicas", {})] }
    let tidbCluster : Schema := { properties := some [("pd", pd), ("pdms", {})] }
    let spec : Schema := { properties := some [("tidbCluster", tidbCluster)] }
    some (some { properties := some [("spec", spec)] })

theorem crdgen_preserves_pdOnly : ∃ versions', crdgen [pdOnly] = some versions' ∧
    List.Forall₂ (fun v v' => v'.name = v.name ∧ ∃ s s', v.schema = some (some s) ∧
      v'.schema = some (some s') ∧ ∀ d, StoredAs s s' d) [pdOnly] versions' :=
  ⟨_, rfl, crdgen_preserves rfl⟩

end SdbController
