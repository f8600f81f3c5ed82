import SdbController.Json.Validation
import SdbController.Serde

/-!
# The published definitions

The definitions of the custom resources are generated from the types that the controllers read them
with, and are published with the schemas that the API server validates and prunes documents by. If
one admitted a document that the controllers cannot read, every list of the resources would fail.
The schemas are transcribed here from `crd.yaml`, without descriptions and titles, which say nothing
of documents. That of a TidbCluster is a parameter, as is what reads one. Nothing is assumed of
them: the definitions of `crd.yaml` preserve what is not known below `tiflash.config`, where a text
would be admitted that the generated type cannot read.

## Main results

* `crd_admits` — which admitted documents can be read, and that what is pruned is not read
* `crd_stores` — what is written is admitted, is kept, and is read back
-/

namespace SdbController

open Json Schema Decoder Document

/-! ### The schemas -/

def text : Schema := { other := [("type", .str "string")] }

def textOrNull : Schema := { other := [("nullable", .bool true), ("type", .str "string")] }

def flag : Schema := { other := [("type", .str "boolean")] }

/-- An object with the given members, some of which have to be there. -/
def record (properties : List (String × Schema)) (required : List String) : Schema where
  properties := some properties
  other := [("required", .arr (required.map .str)), ("type", .str "object")]

def orNull (s : Schema) : Schema := { s with other := ("nullable", .bool true) :: s.other }

/-- One of several words, or `null`. -/
def wordOrNull (words : List String) : Schema where
  other := [("enum", .arr (words.map .str ++ [.null])), ("nullable", .bool true),
    ("type", .str "string")]

def replicasSchema : Schema where
  other := [("format", .str "uint8"), ("maximum", .num 255), ("minimum", .num 0),
    ("nullable", .bool true), ("type", .str "integer")]

def secretReferenceSchema : Schema := orNull (record [("name", text), ("namespace", text)] [])

def secretKeySelectorSchema : Schema :=
  orNull (record [("key", text), ("name", text), ("optional", flag)] ["key", "name"])

def specSchema (tidb : Schema) : Schema :=
  record [("replicas", replicasSchema), ("rootSecret", secretReferenceSchema),
    ("surrealdbImage", textOrNull), ("tidbCluster", tidb),
    ("tikvSecretRef", secretKeySelectorSchema)] []

/-- A reference by name and perhaps namespace. -/
def refSchema : Schema := record [("name", text), ("namespace", textOrNull)] ["name"]

def statusSchema : Schema :=
  orNull (record [("phase", wordOrNull ["New", "Preparing", "InCreation", "NotReady", "InProgress",
    "Ready", "Error"]), ("tidbClusterRef", orNull refSchema)] [])

def dbSpecSchema : Schema :=
  record [("clusterRef", refSchema), ("dbName", textOrNull), ("dbNamespace", textOrNull)]
    ["clusterRef"]

def dbStatusSchema : Schema :=
  orNull (record [("message", textOrNull),
    ("phase", wordOrNull ["New", "InProgress", "Ready", "Error"])] [])

def userSpecSchema : Schema :=
  record [("clusterRef", refSchema), ("databaseRef", refSchema), ("password", textOrNull),
    ("secretName", textOrNull), ("username", textOrNull)] ["clusterRef", "databaseRef"]

def userStatusSchema : Schema :=
  orNull (record [("message", textOrNull), ("phase", wordOrNull ["New", "Ready", "Error"])] [])

def resourceSchema (spec status : Schema) : Schema :=
  record [("spec", spec), ("status", status)] ["spec"]

def clusterSchema (tidb : Schema) : Schema := resourceSchema (specSchema tidb) statusSchema

def databaseSchema : Schema := resourceSchema dbSpecSchema dbStatusSchema

def userSchema : Schema := resourceSchema userSpecSchema userStatusSchema

/-! ### What is admitted can be read -/

theorem suits_text : Suits text string := suits_string rfl

theorem suits_textOrNull : Suits textOrNull string := suits_string rfl

theorem suits_flag : Suits flag boolean := suits_boolean rfl

/-- A reference, which may be `null` besides. -/
theorem suits_ref {α : Type} {s : Schema} (hasDefault : Bool) (make : String → Option String → α)
    (ht : s.keyword "type" = some (.str "object")) (hname : s.property "name" = some text)
    (hns : s.property "namespace" = some textOrNull) (hreq : s.requires "name") :
    Suits s (readRef hasDefault make) := by
  refine suits_derived ht (fun h => ?_) fun h => ?_
  · obtain ⟨name, hname⟩ := suits_text.required "name" hname rfl hreq h
    obtain ⟨ns, hns⟩ := suits_textOrNull.defaulted "namespace" hns h
    exact ⟨make name ns, by simp [hname, hns]⟩
  · rw [suits_text.required_prune hname h, suits_textOrNull.defaulted_prune hns h]

theorem suits_clusterRef : Suits refSchema ClusterRef.read :=
  suits_ref true ClusterRef.mk rfl rfl rfl rfl

theorem suits_databaseRef : Suits refSchema DatabaseRef.read :=
  suits_ref true DatabaseRef.mk rfl rfl rfl rfl

theorem suits_tidbClusterRef : Suits (orNull refSchema) TidbClusterRef.read :=
  suits_ref false TidbClusterRef.mk rfl rfl rfl rfl

theorem suits_secretReference : Suits secretReferenceSchema SecretReference.read := by
  refine suits_object rfl (fun h => ?_) fun h => ?_
  · obtain ⟨name, hname⟩ := suits_text.defaulted "name" rfl h
    obtain ⟨ns, hns⟩ := suits_text.defaulted "namespace" rfl h
    exact ⟨⟨name, ns⟩, by simp [hname, hns]⟩
  · rw [suits_text.defaulted_prune rfl h, suits_text.defaulted_prune rfl h]

theorem suits_secretKeySelector : Suits secretKeySelectorSchema SecretKeySelector.read := by
  refine suits_object rfl (fun h => ?_) fun h => ?_
  · obtain ⟨key, hkey⟩ := suits_text.defaulted "key" rfl h
    obtain ⟨name, hname⟩ := suits_text.defaulted "name" rfl h
    obtain ⟨isOptional, hoptional⟩ := suits_flag.defaulted "optional" rfl h
    exact ⟨⟨key.getD "", name.getD "", isOptional⟩, by simp [orEmpty, hkey, hname, hoptional]⟩
  · rw [orEmpty, orEmpty, suits_text.defaulted_prune rfl h, suits_text.defaulted_prune rfl h,
      suits_flag.defaulted_prune rfl h]
    rfl

/-- The value under a path, if there is one, is as it should be. -/
def Wherever (path : List String) (good : Document → Prop) (doc : Document) : Prop :=
  ∀ v, Document.optional path doc = some v → good v

/-- A spec can be read if and only if the TidbCluster in it can. -/
theorem suitsIf_spec (tidbSchema : Schema) (tidb : Decoder TidbClusterSpec) :
    SuitsIf (specSchema tidbSchema) (Spec.read tidb)
      (Wherever ["tidbCluster"] fun v => ∃ t, tidb v = some t)
      (Wherever ["tidbCluster"] fun v => tidb (prune (some tidbSchema) v) = tidb v) := by
  have hreplicas : Suits replicasSchema uint8 := suits_uint8 rfl rfl rfl
  have htidb := suitsIf_self tidbSchema tidb
  have hwherever (good : Document → Prop) (ms : List (String × Document)) :
      Wherever ["tidbCluster"] good (.obj ms) ↔
        ∀ v, ms.lookup "tidbCluster" = some v → v ≠ null → good v := by
    rw [Wherever, Document.optional, Document.get, Document.child]
    cases ms.lookup "tidbCluster" with
    | none => simp
    | some v => cases v <;> simp [Document.get]
  refine suitsIf_derived rfl (fun {ms} h => ?_) fun {ms} h hk => ?_
  · obtain ⟨replicas, hreplicas⟩ := hreplicas.defaulted "replicas" rfl h
    obtain ⟨image, himage⟩ := suits_textOrNull.defaulted "surrealdbImage" rfl h
    obtain ⟨root, hroot⟩ := suits_secretReference.defaulted "rootSecret" rfl h
    obtain ⟨tikv, htikv⟩ := suits_secretKeySelector.defaulted "tikvSecretRef" rfl h
    rw [hwherever, ← htidb.defaulted_iff "tidbCluster" rfl h]
    simp only [hreplicas, himage, hroot, htikv, Option.bind_eq_bind, Option.bind_some,
      Option.bind_eq_some_iff]
    constructor
    · rintro ⟨_, o, ho, -⟩
      exact ⟨o, ho⟩
    · rintro ⟨o, ho⟩
      exact ⟨_, o, ho, rfl⟩
  · rw [hreplicas.defaulted_prune rfl h, suits_textOrNull.defaulted_prune rfl h,
      suits_secretReference.defaulted_prune rfl h, suits_secretKeySelector.defaulted_prune rfl h,
      htidb.defaulted_prune rfl h ((hwherever _ ms).mp hk)]

/-- The words that a schema admits besides `null` are those that are listed. -/
theorem any_same_wordOrNull {words : List String} {t : String}
    (h : (words.map str ++ [null]).any (·.same (str t))) : t ∈ words := by
  obtain ⟨x, hx, hsame⟩ := List.any_eq_true.mp h
  obtain rfl := same_str hsame
  simpa using hx

theorem suits_phase {α : Type} (all : List α) (name : α → String) :
    Suits (wordOrNull (all.map name)) (word (all.map fun p => (name p, p))) := by
  refine suits_word rfl rfl fun t ht => ?_
  obtain ⟨p, hp, rfl⟩ := List.mem_map.mp (any_same_wordOrNull ht)
  exact List.lookup_isSome_iff.mpr ⟨(name p, p), List.mem_map.mpr ⟨p, hp, rfl⟩, by simp⟩

theorem suits_status : Suits statusSchema Status.read := by
  have hphases : Suits (wordOrNull ["New", "Preparing", "InCreation", "NotReady", "InProgress",
    "Ready", "Error"]) Phase.read := suits_phase Phase.all Phase.name
  refine suits_derived rfl (fun h => ?_) fun h => ?_
  · obtain ⟨phase, hphase⟩ := hphases.defaulted "phase" rfl h
    obtain ⟨ref, href⟩ := suits_tidbClusterRef.defaulted "tidbClusterRef" rfl h
    exact ⟨⟨phase, ref⟩, by simp [hphase, href]⟩
  · rw [hphases.defaulted_prune rfl h, suits_tidbClusterRef.defaulted_prune rfl h]

theorem suits_dbSpec : Suits dbSpecSchema DbSpec.read := by
  refine suits_derived rfl (fun h => ?_) fun h => ?_
  · obtain ⟨ref, href⟩ := suits_clusterRef.required "clusterRef" rfl rfl rfl h
    obtain ⟨ns, hns⟩ := suits_textOrNull.defaulted "dbNamespace" rfl h
    obtain ⟨name, hname⟩ := suits_textOrNull.defaulted "dbName" rfl h
    exact ⟨⟨ref, ns, name⟩, by simp [href, hns, hname]⟩
  · rw [suits_clusterRef.required_prune rfl h, suits_textOrNull.defaulted_prune rfl h,
      suits_textOrNull.defaulted_prune rfl h]

/-- A status with a message. -/
theorem suits_messageStatus {π σ : Type} {s phases : Schema} {read : Decoder π}
    (make : Option π → Option String → σ) (ht : s.keyword "type" = some (.str "object"))
    (hphases : Suits phases read) (hphase : s.property "phase" = some phases)
    (hmessage : s.property "message" = some textOrNull) :
    Suits s (readMessageStatus read make) := by
  refine suits_derived ht (fun h => ?_) fun h => ?_
  · obtain ⟨phase, hphase⟩ := hphases.defaulted "phase" hphase h
    obtain ⟨message, hmessage⟩ := suits_textOrNull.defaulted "message" hmessage h
    exact ⟨make phase message, by simp [hphase, hmessage]⟩
  · rw [hphases.defaulted_prune hphase h, suits_textOrNull.defaulted_prune hmessage h]

theorem suits_dbStatus : Suits dbStatusSchema DbStatus.read :=
  suits_messageStatus DbStatus.mk rfl (suits_phase DbPhase.all DbPhase.name) rfl rfl

theorem suits_userSpec : Suits userSpecSchema UserSpec.read := by
  refine suits_derived rfl (fun h => ?_) fun h => ?_
  · obtain ⟨cluster, hcluster⟩ := suits_clusterRef.required "clusterRef" rfl rfl rfl h
    obtain ⟨database, hdatabase⟩ := suits_databaseRef.required "databaseRef" rfl rfl rfl h
    obtain ⟨username, husername⟩ := suits_textOrNull.defaulted "username" rfl h
    obtain ⟨password, hpassword⟩ := suits_textOrNull.defaulted "password" rfl h
    obtain ⟨secret, hsecret⟩ := suits_textOrNull.defaulted "secretName" rfl h
    exact ⟨⟨cluster, database, username, password, secret⟩, by
      simp [hcluster, hdatabase, husername, hpassword, hsecret]⟩
  · rw [suits_clusterRef.required_prune rfl h, suits_databaseRef.required_prune rfl h,
      suits_textOrNull.defaulted_prune rfl h, suits_textOrNull.defaulted_prune rfl h,
      suits_textOrNull.defaulted_prune rfl h]

theorem suits_userStatus : Suits userStatusSchema UserStatus.read :=
  suits_messageStatus UserStatus.mk rfl (suits_phase UserPhase.all UserPhase.name) rfl rfl

/-! ### Resources -/

/-- The members that all resources have, and that no schema is asked about. -/
def metaFields : List String := ["apiVersion", "kind", "metadata"]

/-- The members of a resource without what is not specified. -/
def pruneRoot (s : Schema) : List (String × Document) → List (String × Document)
  | [] => []
  | m :: ms =>
    if m.1 ∈ metaFields then m :: pruneRoot s ms
    else pruneMembers (some s) [m] ++ pruneRoot s ms

def pruneResource (s : Schema) : Document → Document
  | .obj ms => .obj (pruneRoot s ms)
  | d => prune (some s) d

/-- The API server has given the resource a name, a namespace and a uid. -/
def Identified (doc : Document) : Prop :=
  ∃ ms id, doc = .obj ms ∧ required "metadata" Identity.read (ms.lookup ·) = some id

/-- A schema that a resource is published with, and what it is read with. Of the documents that are
admitted those can be read that are `readable`, and those that are `kept` are read as they were
before they were pruned. -/
structure Publishes {ρ : Type} (s : Schema) (read : Decoder ρ) (readable kept : Document → Prop) :
    Prop where
  reads : ∀ {doc}, Identified doc → s.admits doc → ((∃ x, read doc = some x) ↔ readable doc)
  keeps : ∀ {doc}, s.admits doc → kept doc → read (pruneResource s doc) = read doc

section Resources

variable {s : Schema} {ms : List (String × Document)} {name : String}

theorem lookup_pruneRoot_meta (hname : name ∈ metaFields) :
    (pruneRoot s ms).lookup name = ms.lookup name := by
  induction ms with
  | nil => rfl
  | cons m ms ih =>
    rw [pruneRoot]
    by_cases hm : m.1 ∈ metaFields
    · rw [if_pos hm, List.lookup_cons, List.lookup_cons, ih]
    · have hne : name ≠ m.1 := fun heq => hm (heq ▸ hname)
      have hpruned : (pruneMembers (some s) [m]).lookup name = none := by
        rw [lookup_pruneMembers, List.lookup_cons, beq_false_of_ne hne]
        rfl
      rw [if_neg hm, List.lookup_append, hpruned, Option.none_or, ih, List.lookup_cons,
        beq_false_of_ne hne]

theorem lookup_pruneRoot (hname : name ∉ metaFields) :
    (pruneRoot s ms).lookup name = (pruneMembers (some s) ms).lookup name := by
  induction ms with
  | nil => rfl
  | cons m ms ih =>
    rw [pruneRoot]
    by_cases hm : m.1 ∈ metaFields
    · have hne : name ≠ m.1 := fun heq => hname (heq ▸ hm)
      rw [if_pos hm, List.lookup_cons, beq_false_of_ne hne, ih, lookup_pruneMembers,
        lookup_pruneMembers, List.lookup_cons, beq_false_of_ne hne]
    · rw [if_neg hm, List.lookup_append, ih, lookup_pruneMembers, lookup_pruneMembers,
        lookup_pruneMembers, List.lookup_cons, List.lookup_cons]
      by_cases hne : name = m.1
      · rw [beq_iff_eq.mpr hne]
        -- what is dropped is dropped wherever it stands
        cases fateOf (some s) name with
        | drop => cases ms.lookup name <;> rfl
        | keep | prune => rfl
      · rw [beq_false_of_ne hne]
        rfl

/-- A resource is published with the schemas of its spec and of its status. -/
theorem publishes_resource {α β ρ : Type} {specSchema statusSchema : Schema} {spec : Decoder α}
    {status : Decoder β} {make : Identity → α → Option β → ρ} {readable kept : Document → Prop}
    (hspec : SuitsIf specSchema spec readable kept) (hnull : specSchema.admits .null = false)
    (hstatus : Suits statusSchema status) :
    Publishes (resourceSchema specSchema statusSchema) (readResource spec status make)
      (fun doc => ∀ v, doc.child "spec" = some v → readable v)
      (fun doc => ∀ v, doc.child "spec" = some v → kept v) where
  reads := by
    rintro _ ⟨ms, id, rfl, hid⟩ h
    have hreads := hspec.required_iff "spec" rfl hnull rfl h
    obtain ⟨b, hb⟩ := hstatus.defaulted "status" rfl h
    refine ⟨fun ⟨x, hx⟩ => ?_, fun hreadable => ?_⟩
    · obtain ⟨_, _, a, _, heq, _, ha, -⟩ := readResource_eq_some.mp hx
      obtain rfl := Document.obj.inj heq
      exact hreads.mp ⟨a, ha⟩
    · obtain ⟨a, ha⟩ := hreads.mpr hreadable
      exact ⟨make id a b, readResource_eq_some.mpr ⟨ms, id, a, b, rfl, hid, ha, hb, rfl⟩⟩
  keeps {doc} h hkept := by
    cases doc with
    | obj ms =>
      have hid : required "metadata" Identity.read
          ((pruneRoot (resourceSchema specSchema statusSchema) ms).lookup ·) =
            required "metadata" Identity.read (ms.lookup ·) :=
        required_congr (lookup_pruneRoot_meta (by decide))
      have ha : required "spec" spec
          ((pruneRoot (resourceSchema specSchema statusSchema) ms).lookup ·) =
            required "spec" spec (ms.lookup ·) :=
        (required_congr (lookup_pruneRoot (by decide))).trans (hspec.required_prune rfl h hkept)
      have hb : defaulted "status" status
          ((pruneRoot (resourceSchema specSchema statusSchema) ms).lookup ·) =
            defaulted "status" status (ms.lookup ·) :=
        (defaulted_congr (lookup_pruneRoot (by decide))).trans (hstatus.defaulted_prune rfl h)
      rw [pruneResource, readResource, object, hid, ha, hb, object]
    | _ => rfl

theorem Publishes.congr {ρ : Type} {read : Decoder ρ}
    {readable kept readable' kept' : Document → Prop} (h : Publishes s read readable kept)
    (hreadable : ∀ doc, readable doc ↔ readable' doc) (hkept : ∀ doc, kept' doc → kept doc) :
    Publishes s read readable' kept' :=
  ⟨fun hid hdoc => (h.reads hid hdoc).trans (hreadable _), fun hdoc hk => h.keeps hdoc (hkept _ hk)⟩

/-- Where a TidbCluster is specified. -/
def tidbClusterPath : List String := ["spec", "tidbCluster"]

theorem wherever_tidbClusterPath {good : Document → Prop} {doc : Document} :
    Wherever tidbClusterPath good doc ↔
      ∀ v, doc.child "spec" = some v → Wherever ["tidbCluster"] good v := by
  rw [Wherever, tidbClusterPath, Document.optional, Document.get]
  cases doc.child "spec" with
  | none => simp
  | some spec =>
    rw [Option.bind_some]
    simp only [Option.some.injEq, forall_eq']
    rfl

end Resources

/-- **What the published definitions admit** can be read, except for a Cluster with a TidbCluster
that cannot, and what is pruned by them is not read. -/
theorem crd_admits (tidbSchema : Schema) (tidb : Decoder TidbClusterSpec) :
    Publishes (clusterSchema tidbSchema) (Cluster.read tidb)
        (Wherever tidbClusterPath fun v => ∃ t, tidb v = some t)
        (Wherever tidbClusterPath fun v => tidb (prune (some tidbSchema) v) = tidb v) ∧
      Publishes databaseSchema Database.read (fun _ => True) (fun _ => True) ∧
      Publishes userSchema User.read (fun _ => True) (fun _ => True) := by
  refine ⟨?_, ?_, ?_⟩
  · exact (publishes_resource (suitsIf_spec tidbSchema tidb) rfl suits_status).congr
      (fun _ => wherever_tidbClusterPath.symm) fun _ => wherever_tidbClusterPath.mp
  · exact (publishes_resource suits_dbSpec rfl suits_dbStatus).congr (by simp) (by simp)
  · exact (publishes_resource suits_userSpec rfl suits_userStatus).congr (by simp) (by simp)

-- replicas beyond eight bits are not admitted
example : (specSchema {}).admits (.obj [("replicas", .num 256)]) = false := by decide

/-! ### What is written -/

def refJson (name : String) (ns : Option String) : Document :=
  .obj ([("name", .str name)] ++ field "namespace" (ns.map .str))

def ClusterRef.json (r : ClusterRef) : Document := refJson r.name r.ns

def DatabaseRef.json (r : DatabaseRef) : Document := refJson r.name r.ns

/-- The namespace is not left out. -/
def TidbClusterRef.json (r : TidbClusterRef) : Document :=
  .obj ([("name", .str r.name)] ++ [("namespace", (r.ns.map .str).getD .null)])

def Status.json (st : Status) : Document :=
  .obj ([("phase", (st.phase.map fun p => str p.name).getD .null)] ++
    field "tidbClusterRef" (st.tidbClusterRef.map TidbClusterRef.json))

def DbSpec.json (spec : DbSpec) : Document :=
  .obj ([("clusterRef", spec.clusterRef.json)] ++
    (field "dbNamespace" (spec.dbNamespace.map .str) ++ field "dbName" (spec.dbName.map .str)))

def DbStatus.json (st : DbStatus) : Document :=
  .obj ([("phase", (st.phase.map fun p => str p.name).getD .null)] ++
    field "message" (st.message.map .str))

def UserSpec.json (spec : UserSpec) : Document :=
  .obj ([("clusterRef", spec.clusterRef.json)] ++ ([("databaseRef", spec.databaseRef.json)] ++
    (field "username" (spec.username.map .str) ++ (field "password" (spec.password.map .str) ++
      field "secretName" (spec.secretName.map .str)))))

def UserStatus.json (st : UserStatus) : Document :=
  .obj ([("phase", (st.phase.map fun p => str p.name).getD .null)] ++
    field "message" (st.message.map .str))

theorem stores_text : Stores text str string := stores_string rfl rfl

theorem stores_textOrNull : Stores textOrNull str string := stores_string rfl rfl

theorem stores_flag : Stores flag bool boolean := stores_boolean rfl rfl

theorem stores_ref {α : Type} {make : String → Option String → α} {name : α → String}
    {ns : α → Option String} (hmake : ∀ a, make (name a) (ns a) = a) :
    Stores refSchema (fun a => refJson (name a) (ns a)) (readRef true make) := by
  refine fun a => stored_derived rfl rfl ?_ ?_ ?_
  · cases ns a <;> rfl
  · exact (stores_text.fits "name" rfl (name a)).append
      (stores_textOrNull.fits_option "namespace" rfl (ns a))
  · refine Eq.trans ?_ (congrArg some (hmake a))
    cases ns a <;> rfl

theorem stores_clusterRef : Stores refSchema ClusterRef.json ClusterRef.read :=
  stores_ref fun _ => rfl

theorem stores_databaseRef : Stores refSchema DatabaseRef.json DatabaseRef.read :=
  stores_ref fun _ => rfl

theorem stores_tidbClusterRef :
    Stores (orNull refSchema) TidbClusterRef.json TidbClusterRef.read := by
  intro r
  rw [TidbClusterRef.read, readRef]
  refine stored_derived rfl rfl rfl ?_ ?_
  · exact (stores_text.fits "name" rfl r.name).append
      (stores_textOrNull.fits_null "namespace" rfl rfl r.ns)
  · obtain ⟨name, _ | ns⟩ := r <;> rfl

theorem stores_secretReference :
    Stores secretReferenceSchema SecretReference.json SecretReference.read := by
  refine fun r => stored_object rfl rfl rfl ?_ r.read_json
  exact (stores_text.fits_option "name" rfl r.name).append
    (stores_text.fits_option "namespace" rfl r.ns)

theorem stores_secretKeySelector :
    Stores secretKeySelectorSchema SecretKeySelector.json SecretKeySelector.read := by
  refine fun r => stored_object rfl rfl ?_ ?_ ?_
  · cases r.optional <;> rfl
  · exact ((stores_text.fits "key" rfl r.key).append (stores_text.fits "name" rfl r.name)).append
      (stores_flag.fits_option "optional" rfl r.optional)
  · obtain ⟨key, name, _ | isOptional⟩ := r <;> rfl

theorem lookup_field (name name' : String) (v : Option Document) :
    (field name v).lookup name' = if name' = name then v else none := by
  cases v with
  | none => simp [field]
  | some d =>
    rw [field, Option.map_some, Option.toList_some, List.lookup_cons]
    by_cases hname : name' = name
    · simp [hname]
    · simp [hname, beq_false_of_ne hname]

/-- The members that a spec is written with. -/
def Spec.members (tidbJson : TidbClusterSpec → Document) (spec : Spec) :
    List (String × Document) :=
  spec.front ++ (field "rootSecret" (spec.rootSecret.map SecretReference.json) ++
    spec.back tidbJson)

/-- A spec is stored if and only if the TidbCluster in it is. -/
theorem stored_spec_iff {tidbSchema : Schema} {tidbJson : TidbClusterSpec → Document}
    {tidb : Decoder TidbClusterSpec} {spec : Spec} :
    Stored (specSchema tidbSchema) (Spec.json tidbJson) (Spec.read tidb) spec ↔
      ∀ t, spec.tidbCluster = some t → Stored tidbSchema tidbJson tidb t := by
  have hreplicas : Stores replicasSchema (fun n => .num n.toNat) uint8 :=
    stores_uint8 rfl rfl rfl rfl
  have htidb : (spec.members tidbJson).lookup "tidbCluster" = spec.tidbCluster.map tidbJson := by
    simp [Spec.members, Spec.front, Spec.back, List.lookup_append, lookup_field]
  refine ⟨fun h t ht => ?_, fun h => stored_derived rfl rfl rfl ?_ ?_⟩
  · have hmembers : Stored (specSchema tidbSchema) (fun spec => .obj (spec.members tidbJson))
        (Spec.read tidb) spec := h
    have hread : Spec.read tidb (.obj (spec.members tidbJson)) = some spec := h.reads
    rw [Spec.read, derived] at hread
    simp only [Option.bind_eq_bind, Option.bind_eq_some_iff] at hread
    obtain ⟨_, -, _, -, _, -, _, -, o, ho, heq⟩ := hread
    have hspec : spec.tidbCluster = o := by rw [← Option.some.inj heq]
    obtain rfl : o = some t := hspec.symm.trans ht
    rw [ht] at htidb
    exact hmembers.member rfl htidb ho
  · exact ((hreplicas.fits_option "replicas" rfl spec.replicas).append
      (stores_textOrNull.fits_option "surrealdbImage" rfl spec.surrealdbImage)).append
        ((stores_secretReference.fits_option "rootSecret" rfl spec.rootSecret).append
          ((stores_secretKeySelector.fits_option "tikvSecretRef" rfl spec.tikvSecretRef).append
            (Stored.fits_option h "tidbCluster" rfl)))
  · simp only [Spec.front, Spec.back]
    rw [hreplicas.defaulted (o := spec.replicas) (by simp [List.lookup_append, lookup_field]),
      stores_textOrNull.defaulted (o := spec.surrealdbImage)
        (by simp [List.lookup_append, lookup_field]),
      stores_secretReference.defaulted (o := spec.rootSecret)
        (by simp [List.lookup_append, lookup_field]),
      stores_secretKeySelector.defaulted (o := spec.tikvSecretRef)
        (by simp [List.lookup_append, lookup_field]),
      Stored.defaulted (o := spec.tidbCluster) h (by simp [List.lookup_append, lookup_field])]
    rfl

theorem stores_phase {α : Type} (all : List α) (name : α → String)
    (hname : ∀ p, (all.map fun p => (name p, p)).lookup (name p) = some p) :
    Stores (wordOrNull (all.map name)) (fun p => str (name p))
      (word (all.map fun p => (name p, p))) := by
  refine stores_word rfl rfl fun p => ⟨?_, hname p⟩
  obtain ⟨l₁, l₂, hall, -⟩ := List.lookup_eq_some_iff.mp (hname p)
  have hmem : name p ∈ all.map name := by
    have hpair : (name p, p) ∈ all.map fun p => (name p, p) := by
      rw [hall]
      simp
    obtain ⟨q, hq, heq⟩ := List.mem_map.mp hpair
    exact List.mem_map.mpr ⟨q, hq, congrArg Prod.fst heq⟩
  exact List.any_eq_true.mpr ⟨str (name p), by simpa using hmem, beq_self_eq_true _⟩

theorem stores_status : Stores statusSchema Status.json Status.read := by
  have hphases : Stores (wordOrNull ["New", "Preparing", "InCreation", "NotReady", "InProgress",
      "Ready", "Error"]) (fun p => str p.name) Phase.read :=
    stores_phase Phase.all Phase.name Phase.read_name
  refine fun st => stored_derived rfl rfl rfl ?_ ?_
  · exact (hphases.fits_null "phase" rfl rfl st.phase).append
      (stores_tidbClusterRef.fits_option "tidbClusterRef" rfl st.tidbClusterRef)
  · rw [hphases.defaulted_null (o := st.phase) (by rfl),
      stores_tidbClusterRef.defaulted (o := st.tidbClusterRef)
        (by simp [List.lookup_cons, lookup_field])]
    rfl

theorem stores_dbSpec : Stores dbSpecSchema DbSpec.json DbSpec.read := by
  refine fun spec => stored_derived rfl rfl rfl ?_ ?_
  · exact (stores_clusterRef.fits "clusterRef" rfl spec.clusterRef).append
      ((stores_textOrNull.fits_option "dbNamespace" rfl spec.dbNamespace).append
        (stores_textOrNull.fits_option "dbName" rfl spec.dbName))
  · rw [stores_clusterRef.required (a := spec.clusterRef) (by rfl),
      stores_textOrNull.defaulted (o := spec.dbNamespace)
        (by simp [List.lookup_append, List.lookup_cons, lookup_field]),
      stores_textOrNull.defaulted (o := spec.dbName)
        (by simp [List.lookup_append, List.lookup_cons, lookup_field])]
    rfl

/-- A status with a message. -/
theorem stores_messageStatus {π σ : Type} {s phases : Schema} {read : Decoder π}
    {spell : π → String} {make : Option π → Option String → σ} {phase : σ → Option π}
    {message : σ → Option String}
    (ht : s.keyword "type" = some (str "object")) (henum : s.keyword "enum" = none)
    (hmembers : ∀ ms, s.permitsMembers (obj ms))
    (hphases : Stores phases (fun p => str (spell p)) read)
    (hphase : s.property "phase" = some phases) (hnull : phases.admits null)
    (hmessage : s.property "message" = some textOrNull)
    (hmake : ∀ st, make (phase st) (message st) = st) :
    Stores s (fun st => .obj ([("phase", ((phase st).map fun p => str (spell p)).getD .null)] ++
      field "message" ((message st).map .str))) (readMessageStatus read make) := by
  refine fun st => stored_derived ht henum (hmembers _) ?_ ?_
  · exact (hphases.fits_null "phase" hphase hnull (phase st)).append
      (stores_textOrNull.fits_option "message" hmessage (message st))
  · rw [hphases.defaulted_null (o := phase st) (by rfl),
      stores_textOrNull.defaulted (o := message st) (by simp [List.lookup_cons, lookup_field])]
    exact congrArg some (hmake st)

theorem stores_dbStatus : Stores dbStatusSchema DbStatus.json DbStatus.read :=
  stores_messageStatus rfl rfl (fun _ => rfl)
    (stores_phase DbPhase.all DbPhase.name DbPhase.read_name) rfl rfl rfl fun _ => rfl

theorem stores_userSpec : Stores userSpecSchema UserSpec.json UserSpec.read := by
  refine fun spec => stored_derived rfl rfl rfl ?_ ?_
  · exact (stores_clusterRef.fits "clusterRef" rfl spec.clusterRef).append
      ((stores_databaseRef.fits "databaseRef" rfl spec.databaseRef).append
        ((stores_textOrNull.fits_option "username" rfl spec.username).append
          ((stores_textOrNull.fits_option "password" rfl spec.password).append
            (stores_textOrNull.fits_option "secretName" rfl spec.secretName))))
  · rw [stores_clusterRef.required (a := spec.clusterRef) (by rfl),
      stores_databaseRef.required (a := spec.databaseRef) (by rfl),
      stores_textOrNull.defaulted (o := spec.username)
        (by simp [List.lookup_append, List.lookup_cons, lookup_field]),
      stores_textOrNull.defaulted (o := spec.password)
        (by simp [List.lookup_append, List.lookup_cons, lookup_field]),
      stores_textOrNull.defaulted (o := spec.secretName)
        (by simp [List.lookup_append, List.lookup_cons, lookup_field])]
    rfl

theorem stores_userStatus : Stores userStatusSchema UserStatus.json UserStatus.read :=
  stores_messageStatus rfl rfl (fun _ => rfl)
    (stores_phase UserPhase.all UserPhase.name UserPhase.read_name) rfl rfl rfl fun _ => rfl

/-- **What is written** is admitted by the published definitions, is kept by them, and is read back,
if of the spec of a Cluster this holds of the TidbCluster in it. -/
theorem crd_stores (tidbSchema : Schema) (tidbJson : TidbClusterSpec → Document)
    (tidb : Decoder TidbClusterSpec) :
    (∀ spec, Stored (specSchema tidbSchema) (Spec.json tidbJson) (Spec.read tidb) spec ↔
        ∀ t, spec.tidbCluster = some t → Stored tidbSchema tidbJson tidb t) ∧
      Stores statusSchema Status.json Status.read ∧ Stores dbSpecSchema DbSpec.json DbSpec.read ∧
      Stores dbStatusSchema DbStatus.json DbStatus.read ∧
      Stores userSpecSchema UserSpec.json UserSpec.read ∧
      Stores userStatusSchema UserStatus.json UserStatus.read :=
  ⟨fun _ => stored_spec_iff, stores_status, stores_dbSpec, stores_dbStatus, stores_userSpec,
    stores_userStatus⟩

end SdbController
