import SdbController.Cluster.Reconcile
import SdbController.Json.Document

/-!
# Recording the root Secret

A Cluster without a root Secret gets one from the controller, and the controller means to write the
reference to it into the stored spec. It does so with a JSON Patch `replace`, whose target must
exist. A `None` is not serialised, so in a Cluster that was never given the field the target is
missing, the patch is refused and `ensure_root_secret` fails. This module is about the stored
Clusters as the documents they are, since a `Spec` cannot tell an absent member from a `null`.

## Main results

* `answersDocuments_simulated` — on documents that serialise a `Spec`, the server of this module is
  the server `⟨false⟩` of `answer`
* `ensureRootSecret_recorded_iff` — the reference is recorded if and only if the document spells
  out a `null`
-/

namespace SdbController

open Interaction Program Reconciler Json

/-! ### What is serialised -/

/-- A member with `skip_serializing_if = "Option::is_none"`. -/
def field (name : String) (v : Option Document) : List (String × Document) :=
  (v.map (name, ·)).toList

def SecretReference.json (r : SecretReference) : Document :=
  .obj (field "name" (r.name.map .str) ++ field "namespace" (r.ns.map .str))

def SecretKeySelector.json (r : SecretKeySelector) : Document :=
  .obj ([("key", .str r.key), ("name", .str r.name)] ++ field "optional" (r.optional.map .bool))

/-- The members of a spec in front of `rootSecret`. -/
def Spec.front (spec : Spec) : List (String × Document) :=
  field "replicas" (spec.replicas.map fun n => .num n.toNat) ++
    field "surrealdbImage" (spec.surrealdbImage.map .str)

/-- The members of a spec behind `rootSecret`. The spec of a TidbCluster comes serialised. -/
def Spec.back (tidb : TidbClusterSpec → Document) (spec : Spec) : List (String × Document) :=
  field "tikvSecretRef" (spec.tikvSecretRef.map SecretKeySelector.json) ++
    field "tidbCluster" (spec.tidbCluster.map tidb)

def Spec.json (tidb : TidbClusterSpec → Document) (spec : Spec) : Document :=
  .obj (spec.front ++ (field "rootSecret" (spec.rootSecret.map SecretReference.json) ++
    spec.back tidb))

/-- The path of the patch. -/
def rootSecretPath : List String := pointer "/spec/rootSecret"

theorem rootSecretPath_eq : rootSecretPath = ["spec", "rootSecret"] := by decide

/-! ### The server -/

/-- What the API server holds, the Clusters as the documents they are stored as. -/
structure Documents where
  clusters : ObjectKey → Option Document
  secrets : ObjectKey → Option Secret

namespace Documents

/-- What a path leads to in a stored Cluster. -/
def read (s : Documents) (k : ObjectKey) (path : List String) : Option Document :=
  (s.clusters k).bind (Document.get path)

def createSecret (s : Documents) (x : Secret) : Except KubeError Unit × Documents :=
  match createIn s.secrets x.metadata.key x.stored with
  | some m => (.ok (), { s with secrets := m })
  | none => (.error (.alreadyExists "already exists"), s)

@[simp] theorem createSecret_clusters (s : Documents) (x : Secret) :
    (s.createSecret x).2.clusters = s.clusters := by
  rw [createSecret]
  cases createIn s.secrets x.metadata.key x.stored <;> rfl

/-- A create leaves a Secret behind, and an old one as it was. -/
theorem createSecret_secrets (s : Documents) (x : Secret) :
    (s.createSecret x).2.secrets x.metadata.key =
      some ((s.secrets x.metadata.key).getD x.stored) := by
  rw [createSecret, createIn]
  cases hx : s.secrets x.metadata.key with
  | none => exact Function.update_self ..
  | some old => exact hx

/-- The patch of `persist_root_secret_ref`. -/
def replaceRootSecret (s : Documents) (k : ObjectKey) (r : SecretReference) :
    Except KubeError Unit × Documents :=
  match s.clusters k with
  | none => (.error (.notFound "not found"), s)
  | some doc =>
    match Document.replace rootSecretPath r.json doc with
    | some doc' => (.ok (), { s with clusters := Function.update s.clusters k (some doc') })
    | none => (.error (.api 422 "the patch does not apply"), s)

@[simp] theorem replaceRootSecret_secrets (s : Documents) (k : ObjectKey) (r : SecretReference) :
    (s.replaceRootSecret k r).2.secrets = s.secrets := by
  rw [replaceRootSecret]
  cases s.clusters k with
  | none => rfl
  | some doc => cases h : Document.replace rootSecretPath r.json doc <;> simp only [h]

end Documents

/-- The API server accepts what is well formed and patches as RFC 6902 says. It answers the requests
of `ensure_root_secret`, and no others. -/
def AnswersDocuments : (q : Call) → Documents → Reply q → Documents → Prop
  | .api (.createSecret x), s, r, s' => (r, s') = s.createSecret x
  | .api (.replaceRootSecret k ref), s, r, s' => (r, s') = s.replaceRootSecret k ref
  | .draw _, s, _, s' => s' = s
  | _, _, _, _ => False

/-! ### Documents that serialise a spec -/

section Serialised

variable {tidb : TidbClusterSpec → Document}

theorem Spec.lookup_front (spec : Spec) : spec.front.lookup "rootSecret" = none := by
  rw [front]
  cases spec.replicas <;> cases spec.surrealdbImage <;> rfl

theorem Spec.lookup_back (spec : Spec) : (spec.back tidb).lookup "rootSecret" = none := by
  rw [back]
  cases spec.tikvSecretRef <;> cases spec.tidbCluster <;> rfl

/-- The patch on a serialised spec: it needs a reference to be there. -/
theorem Spec.replace_json (spec : Spec) (r : SecretReference) :
    Document.replace ["rootSecret"] r.json (spec.json tidb) =
      if spec.rootSecret.isSome then some ({ spec with rootSecret := some r }.json tidb)
      else none := by
  rw [Document.replace, json, Document.child, List.lookup_append, List.lookup_append,
    spec.lookup_front, spec.lookup_back]
  cases hroot : spec.rootSecret with
  | none => rfl
  | some old =>
    refine congrArg some (congrArg Document.obj ?_)
    rw [setMember_append spec.lookup_front]
    rfl

theorem replace_of_child {doc : Document} {spec : Spec} (r : SecretReference)
    (hdoc : doc.child "spec" = some (spec.json tidb)) :
    Document.replace rootSecretPath r.json doc = if spec.rootSecret.isSome then
      some (doc.setChild "spec" ({ spec with rootSecret := some r }.json tidb)) else none := by
  rw [rootSecretPath_eq, Document.replace, hdoc, Option.bind_some, spec.replace_json]
  cases spec.rootSecret <;> rfl

/-- The documents serialise the Clusters of a store, as far as their specs go. -/
structure Serialises (tidb : TidbClusterSpec → Document) (d : Documents) (s : Store) : Prop where
  secrets : d.secrets = s.secrets
  absent : ∀ k, s.clusters k = none → d.clusters k = none
  present : ∀ k c, s.clusters k = some c →
    ∃ doc, d.clusters k = some doc ∧ doc.child "spec" = some (c.spec.json tidb)

/-- Writing the reference keeps documents and store together. -/
theorem Serialises.replaced {d : Documents} {s : Store} (hs : Serialises tidb d s) {k : ObjectKey}
    {c : Cluster} {doc : Document} {r : SecretReference}
    (hspec : doc.child "spec" = some (c.spec.json tidb)) {audit : List Call} :
    Serialises tidb
      { d with
          clusters := Function.update d.clusters k
            (some (doc.setChild "spec" ({ c.spec with rootSecret := some r }.json tidb))) }
      { s with
          clusters := Function.update s.clusters k (some (c.setRootSecret r))
          audit := audit } := by
  refine ⟨hs.secrets, fun k' hk' => ?_, fun k' c' hc' => ?_⟩
  · dsimp only at hk' ⊢
    rcases eq_or_ne k' k with rfl | hne
    · rw [Function.update_self] at hk'
      cases hk'
    · rw [Function.update_of_ne hne] at hk' ⊢
      exact hs.absent k' hk'
  · dsimp only at hc' ⊢
    rcases eq_or_ne k' k with rfl | hne
    · rw [Function.update_self] at hc'
      obtain rfl := Option.some.inj hc'
      refine ⟨_, Function.update_self .., Document.child_setChild ?_⟩
      rw [hspec]
      rfl
    · rw [Function.update_of_ne hne] at hc'
      obtain ⟨doc', hdoc', hspec'⟩ := hs.present k' c' hc'
      exact ⟨doc', (Function.update_of_ne hne ..).trans hdoc', hspec'⟩

theorem Serialises.createSecret {d : Documents} {s : Store} (hs : Serialises tidb d s)
    (x : Secret) :
    (d.createSecret x).1 = (answer ⟨false⟩ (.createSecret x) s).1 ∧
      Serialises tidb (d.createSecret x).2 (answer ⟨false⟩ (.createSecret x) s).2 := by
  rw [Documents.createSecret, answer, hs.secrets]
  cases createIn s.secrets x.metadata.key x.stored with
  | none => exact ⟨rfl, hs⟩
  | some m => exact ⟨rfl, rfl, hs.absent, hs.present⟩

theorem Serialises.replaceRootSecret {d : Documents} {s : Store} (hs : Serialises tidb d s)
    (k : ObjectKey) (r : SecretReference) :
    (d.replaceRootSecret k r).1 = (answer ⟨false⟩ (.replaceRootSecret k r) s).1 ∧
      Serialises tidb (d.replaceRootSecret k r).2
        (answer ⟨false⟩ (.replaceRootSecret k r) s).2 := by
  rw [Documents.replaceRootSecret, answer]
  cases hk : s.clusters k with
  | none =>
    rw [hs.absent k hk]
    exact ⟨rfl, hs⟩
  | some c =>
    obtain ⟨doc, hdoc, hspec⟩ := hs.present k c hk
    simp only [hdoc, replace_of_child r hspec]
    cases c.spec.rootSecret with
    | none => exact ⟨rfl, hs⟩
    | some old => exact ⟨rfl, hs.replaced hspec⟩

/-- **The server of this module is the server that refuses to replace what is missing**, as long as
the documents are serialised specs. -/
theorem answersDocuments_simulated {http : HttpRequest → Store → HttpOutcome → Store → Prop}
    {q : Call} {d d' : Documents} {s : Store} {r : Reply q} (hs : Serialises tidb d s)
    (h : AnswersDocuments q d r d') :
    ∃ s', Answers ⟨false⟩ http q s r s' ∧ Serialises tidb d' s' := by
  cases q with
  | http q => exact h.elim
  | draw n => exact ⟨s, rfl, h ▸ hs⟩
  | api q =>
    cases q with
    | createSecret x =>
      obtain ⟨rfl, rfl⟩ : r = (d.createSecret x).1 ∧ d' = (d.createSecret x).2 :=
        Prod.ext_iff.mp h
      obtain ⟨hr, hs'⟩ := hs.createSecret x
      exact ⟨_, Prod.ext hr rfl, hs'⟩
    | replaceRootSecret k ref =>
      obtain ⟨rfl, rfl⟩ : r = (d.replaceRootSecret k ref).1 ∧ d' = (d.replaceRootSecret k ref).2 :=
        Prod.ext_iff.mp h
      obtain ⟨hr, hs'⟩ := hs.replaceRootSecret k ref
      exact ⟨_, Prod.ext hr rfl, hs'⟩
    | _ => exact h.elim

end Serialised

/-! ### Runs -/

namespace Cluster

/-- The reference that `ensure_root_secret` is to record. -/
def rootSecretRef (c : Cluster) : SecretReference := ⟨some c.rootSecretName, some c.ns⟩

variable {c : Cluster} {s s' : Documents}

theorem completes_createSecret {sec : Secret} {x : Except Error Unit} :
    Completes AnswersDocuments (createIfAbsent (.createSecret sec)).run s x s' ↔
      x = .ok () ∧ s' = (s.createSecret sec).2 := by
  have hanswer : (s.createSecret sec).1 = .ok () ∨
      (s.createSecret sec).1 = .error (.alreadyExists "already exists") := by
    rw [Documents.createSecret]
    cases createIn s.secrets sec.metadata.key sec.stored with
    | none => exact .inr rfl
    | some m => exact .inl rfl
  rw [completes_createIfAbsent]
  constructor
  · rintro (⟨o, h, rfl⟩ | ⟨e, h, rfl⟩)
    · exact ⟨rfl, (Prod.ext_iff.mp h).2⟩
    · obtain ⟨he, hs'⟩ := Prod.ext_iff.mp h
      rcases hanswer with ha | ha
      · cases he.trans ha
      · obtain rfl := Except.error.inj (he.trans ha)
        exact ⟨rfl, hs'⟩
  · rintro ⟨rfl, rfl⟩
    rcases hanswer with ha | ha
    · exact .inl ⟨(), Prod.ext ha.symm rfl, rfl⟩
    · exact .inr ⟨_, Prod.ext ha.symm rfl, rfl⟩

theorem completes_persistRootSecretRef (hroot : c.spec.rootSecret = none) {x : Except Error Unit} :
    Completes AnswersDocuments (c.persistRootSecretRef c.rootSecretName).run s x s' ↔
      x = (s.replaceRootSecret c.key c.rootSecretRef).1.mapError .kubeError ∧
        s' = (s.replaceRootSecret c.key c.rootSecretRef).2 := by
  rw [persistRootSecretRef, hroot]
  refine (completes_call_api (.replaceRootSecret c.key c.rootSecretRef)).trans ?_
  constructor
  · rintro ⟨r, hr, rfl⟩
    obtain ⟨rfl, rfl⟩ := Prod.ext_iff.mp hr
    exact ⟨rfl, rfl⟩
  · rintro ⟨rfl, rfl⟩
    exact ⟨_, rfl, rfl⟩

/-- A run for a Cluster without a root Secret: the Secret is there, and then comes the patch. -/
theorem completes_ensureRootSecret (hroot : c.spec.rootSecret = none)
    {x : Except Error SecretReference} :
    Completes AnswersDocuments c.ensureRootSecret.run s x s' ↔
      ∃ d : Draws (secureSamples 32), ∃ t, t = (s.createSecret (c.rootSecret d.password)).2 ∧
        s' = (t.replaceRootSecret c.key c.rootSecretRef).2 ∧
        x = ((t.replaceRootSecret c.key c.rootSecretRef).1.mapError .kubeError).map
          fun _ => c.rootSecretRef := by
  rw [ensureRootSecret, hroot]
  constructor
  · intro h
    obtain ⟨y, t, hdraw, hrest⟩ := (completes_except_bind ..).mp h
    obtain ⟨d, rfl, rfl⟩ := (completes_draw _).mp hdraw
    obtain ⟨y, t, hcreate, hrest⟩ := (completes_except_bind ..).mp hrest
    obtain ⟨rfl, rfl⟩ := completes_createSecret.mp hcreate
    obtain ⟨y, u, hpersist, hrest⟩ := (completes_except_bind ..).mp hrest
    obtain ⟨hy, rfl⟩ := (completes_persistRootSecretRef hroot).mp hpersist
    refine ⟨d, _, rfl, ?_⟩
    rw [← hy]
    cases y with
    | ok o => exact ⟨hrest.2, hrest.1⟩
    | error e => exact ⟨hrest.2, hrest.1⟩
  · rintro ⟨d, t, ht, rfl, rfl⟩
    refine (completes_except_bind ..).mpr ⟨_, s, (completes_draw _).mpr ⟨d, rfl, rfl⟩, ?_⟩
    refine (completes_except_bind ..).mpr ⟨_, t, completes_createSecret.mpr ⟨rfl, ht⟩, ?_⟩
    refine (completes_except_bind ..).mpr
      ⟨_, _, (completes_persistRootSecretRef hroot).mpr ⟨rfl, rfl⟩, ?_⟩
    generalize (t.replaceRootSecret c.key c.rootSecretRef).1 = r
    cases r with
    | ok o => exact ⟨rfl, rfl⟩
    | error e => exact ⟨rfl, rfl⟩

/-- What is asked of `ensure_root_secret`: it returns `Ok`, the reference is in the stored spec, the
other fields are as before, and there is a Secret, an earlier one untouched. -/
structure Recorded (c : Cluster) (s : Documents) (x : Except Error SecretReference)
    (s' : Documents) : Prop where
  ok : ∃ r, x = .ok r
  reference : s'.read c.key rootSecretPath = some c.rootSecretRef.json
  others : ∀ member path, member ≠ "rootSecret" →
    s'.read c.key ("spec" :: member :: path) = s.read c.key ("spec" :: member :: path)
  secret : ∃ sec, s'.secrets ⟨c.ns, c.rootSecretName⟩ = some sec ∧
    ∀ old, s.secrets ⟨c.ns, c.rootSecretName⟩ = some old → sec = old

variable {doc : Document} {x : Except Error SecretReference}

/-- With a target, the patch applies and all is as it should be. -/
theorem recorded_of_isSome (hroot : c.spec.rootSecret = none) (hdoc : s.clusters c.key = some doc)
    (htarget : (Document.get rootSecretPath doc).isSome)
    (h : Completes AnswersDocuments c.ensureRootSecret.run s x s') : Recorded c s x s' := by
  obtain ⟨d, t, rfl, rfl, rfl⟩ := (completes_ensureRootSecret hroot).mp h
  have hsec := s.createSecret_secrets (c.rootSecret d.password)
  have hdoc' : (s.createSecret (c.rootSecret d.password)).2.clusters c.key = some doc := by
    rw [Documents.createSecret_clusters, hdoc]
  generalize (s.createSecret (c.rootSecret d.password)).2 = t at hsec hdoc' ⊢
  obtain ⟨doc', hreplace⟩ := Option.isSome_iff_exists.mp <|
    (Document.replace_isSome_iff (v := c.rootSecretRef.json)).mpr htarget
  have hpatch : t.replaceRootSecret c.key c.rootSecretRef =
      (.ok (), { t with clusters := Function.update t.clusters c.key (some doc') }) := by
    simp only [Documents.replaceRootSecret, hdoc', hreplace]
  have hread : ∀ path, (t.replaceRootSecret c.key c.rootSecretRef).2.read c.key path =
      Document.get path doc' := by
    intro path
    rw [hpatch, Documents.read]
    dsimp only
    rw [Function.update_self, Option.bind_some]
  refine ⟨⟨c.rootSecretRef, by rw [hpatch]; rfl⟩, ?_, fun member path hne => ?_, ?_⟩
  · rw [hread]
    exact Document.get_replace hreplace
  · rw [rootSecretPath_eq] at hreplace
    rw [hread, Documents.read, hdoc, Option.bind_some]
    exact Document.get_replace_of_ne ["spec"] hne hreplace
  · refine ⟨_, (congrFun (t.replaceRootSecret_secrets ..) _).trans hsec, fun old hold => ?_⟩
    rw [show s.secrets (c.rootSecret d.password).metadata.key = some old from hold]
    rfl

/-- Without one, the patch is refused, and `ensure_root_secret` fails. -/
theorem refused_of_absent (hroot : c.spec.rootSecret = none) (hdoc : s.clusters c.key = some doc)
    (htarget : Document.get rootSecretPath doc = none)
    (h : Completes AnswersDocuments c.ensureRootSecret.run s x s') :
    x = .error (.kubeError (.api 422 "the patch does not apply")) ∧ s'.clusters = s.clusters := by
  obtain ⟨d, t, rfl, rfl, rfl⟩ := (completes_ensureRootSecret hroot).mp h
  have hreplace : Document.replace rootSecretPath c.rootSecretRef.json doc = none := by
    rw [← Option.not_isSome_iff_eq_none, Document.replace_isSome_iff, htarget]
    exact Bool.false_ne_true
  have hpatch : ∀ t : Documents, t.clusters = s.clusters →
      t.replaceRootSecret c.key c.rootSecretRef =
        (.error (.api 422 "the patch does not apply"), t) := by
    intro t ht
    simp only [Documents.replaceRootSecret, ht, hdoc, hreplace]
  rw [hpatch _ (s.createSecret_clusters _)]
  exact ⟨rfl, s.createSecret_clusters _⟩

/-- Every run has an end. -/
theorem exists_completes_ensureRootSecret (hroot : c.spec.rootSecret = none) (s : Documents) :
    ∃ x s', Completes AnswersDocuments c.ensureRootSecret.run s x s' :=
  ⟨_, _, (completes_ensureRootSecret hroot).mpr ⟨default, _, rfl, rfl, rfl⟩⟩

/-- **When the root credentials are recorded.** Every run for a Cluster without a root Secret comes
to an end. It ends as it should if and only if the stored document spells out a `null`. -/
theorem ensureRootSecret_recorded_iff (hroot : c.spec.rootSecret = none)
    (hdoc : s.clusters c.key = some doc) (hread : Document.optional rootSecretPath doc = none) :
    (∃ x s', Completes AnswersDocuments c.ensureRootSecret.run s x s') ∧
      ((∀ x s', Completes AnswersDocuments c.ensureRootSecret.run s x s' → Recorded c s x s') ↔
        Document.get rootSecretPath doc = some .null) := by
  have hruns := exists_completes_ensureRootSecret hroot s
  refine ⟨hruns, fun hall => ?_, fun hnull x s' h => ?_⟩
  · refine (Document.optional_eq_none.mp hread).resolve_left fun hnone => ?_
    obtain ⟨x, s', h⟩ := hruns
    obtain ⟨rfl, -⟩ := refused_of_absent hroot hdoc hnone h
    obtain ⟨r, hr⟩ := (hall _ s' h).ok
    cases hr
  · exact recorded_of_isSome hroot hdoc (by rw [hnull]; rfl) h

/-! ### Two documents of one Cluster -/

/-- A Cluster without a root Secret. -/
def plainCluster : Cluster :=
  { name := "app", ns := "default", uid := "1"
    spec := { tikvSecretRef := some ⟨"pd", "tikv", none⟩ } }

/-- A store with a document of that Cluster and with the Secrets given. -/
def plainDocuments (spec : Document) (secrets : ObjectKey → Option Secret) : Documents where
  clusters k := if k = plainCluster.key then some (.obj [("spec", spec)]) else none
  secrets := secrets

/-- The spec as a user may write it out, with a `null`. -/
def nullSpec : Document :=
  .obj [("replicas", .num 3), ("rootSecret", .null), ("tikvSecretRef", SecretKeySelector.json
    ⟨"pd", "tikv", none⟩)]

theorem ensureRootSecret_recorded_iff_null :
    (∃ x s', Completes AnswersDocuments plainCluster.ensureRootSecret.run
      (plainDocuments nullSpec fun _ => none) x s') ∧
      ((∀ x s', Completes AnswersDocuments plainCluster.ensureRootSecret.run
          (plainDocuments nullSpec fun _ => none) x s' →
        Recorded plainCluster (plainDocuments nullSpec fun _ => none) x s') ↔
        Document.get rootSecretPath (.obj [("spec", nullSpec)]) = some .null) :=
  ensureRootSecret_recorded_iff rfl rfl rfl

/-- As the source serialises the spec, the field is missing, and the reference is not recorded. -/
theorem serialised_reference_refused :
    ¬ ∀ x s', Completes AnswersDocuments plainCluster.ensureRootSecret.run
        (plainDocuments (plainCluster.spec.json fun _ => .null) fun _ => none) x s' →
      Recorded plainCluster
        (plainDocuments (plainCluster.spec.json fun _ => .null) fun _ => none) x s' := by
  intro hall
  obtain ⟨x, s', h⟩ := exists_completes_ensureRootSecret (c := plainCluster) rfl
    (plainDocuments (plainCluster.spec.json fun _ => .null) fun _ => none)
  obtain ⟨rfl, -⟩ := refused_of_absent rfl rfl rfl h
  obtain ⟨r, hr⟩ := (hall _ s' h).ok
  cases hr

end Cluster

end SdbController
