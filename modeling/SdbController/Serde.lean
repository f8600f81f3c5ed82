import SdbController.Cluster.RootSecret
import SdbController.Json.Decoder
import SdbController.StatusMessage

/-!
# What `serde` derives

How the controllers read the documents of the custom resources, member by member. An `Option` may be
missing or `null`, everything else has to be there, and members that no field is named after are
ignored. A resource as it is stored is an object; what is below its spec and its status is read as
derived. The spec of a TidbCluster is read by generated code, which is a parameter here.

A patch leads to a document that is read as the resource with the patch in it.

## Main results

* `Cluster.read_merge`, `Database.read_merge`, `User.read_merge` — the patch of a status
* `Cluster.read_replace` — the patch of `spec.rootSecret`
-/

namespace SdbController

open Interaction Json Decoder

/-! ### What is read -/

def SecretReference.read : Decoder SecretReference :=
  object fun m => do
    let name ← defaulted "name" string m
    let ns ← defaulted "namespace" string m
    pure ⟨name, ns⟩

def SecretKeySelector.read : Decoder SecretKeySelector :=
  object fun m => do
    let key ← orEmpty "key" m
    let name ← orEmpty "name" m
    let isOptional ← defaulted "optional" boolean m
    pure ⟨key, name, isOptional⟩

def Spec.fields : Fields :=
  [("replicas", true), ("surrealdbImage", true), ("rootSecret", true), ("tikvSecretRef", true),
    ("tidbCluster", true)]

def Spec.read (tidb : Decoder TidbClusterSpec) : Decoder Spec :=
  derived fields fun m => do
    let replicas ← defaulted "replicas" uint8 m
    let surrealdbImage ← defaulted "surrealdbImage" string m
    let rootSecret ← defaulted "rootSecret" SecretReference.read m
    let tikvSecretRef ← defaulted "tikvSecretRef" SecretKeySelector.read m
    let tidbCluster ← defaulted "tidbCluster" tidb m
    pure ⟨replicas, surrealdbImage, rootSecret, tikvSecretRef, tidbCluster⟩

def Phase.name : Phase → String
  | new => "New"
  | preparing => "Preparing"
  | inCreation => "InCreation"
  | notReady => "NotReady"
  | inProgress => "InProgress"
  | ready => "Ready"
  | error => "Error"

def Phase.all : List Phase :=
  [.new, .preparing, .inCreation, .notReady, .inProgress, .ready, .error]

def DbPhase.all : List DbPhase := [.new, .inProgress, .ready, .error]

def UserPhase.all : List UserPhase := [.new, .ready, .error]

def Phase.read : Decoder Phase := word (Phase.all.map fun p => (p.name, p))

def DbPhase.read : Decoder DbPhase := word (DbPhase.all.map fun p => (p.name, p))

def UserPhase.read : Decoder UserPhase := word (UserPhase.all.map fun p => (p.name, p))

/-- A reference by name and perhaps namespace, which has a default or not. -/
def readRef {α : Type} (hasDefault : Bool) (make : String → Option String → α) : Decoder α :=
  derived [("name", false), ("namespace", hasDefault)] fun m => do
    let name ← required "name" string m
    let ns ← defaulted "namespace" string m
    pure (make name ns)

def ClusterRef.read : Decoder ClusterRef := readRef true ClusterRef.mk

def DatabaseRef.read : Decoder DatabaseRef := readRef true DatabaseRef.mk

def TidbClusterRef.read : Decoder TidbClusterRef := readRef false TidbClusterRef.mk

def Status.read : Decoder Status :=
  derived [("phase", true), ("tidbClusterRef", true)] fun m => do
    let phase ← defaulted "phase" Phase.read m
    let ref ← defaulted "tidbClusterRef" TidbClusterRef.read m
    pure ⟨phase, ref⟩

/-- Name, namespace and uid, which a stored resource has. -/
structure Identity where
  name : String
  ns : String
  uid : String

def Identity.read : Decoder Identity :=
  object fun m => do
    let name ← required "name" string m
    let ns ← required "namespace" string m
    let uid ← required "uid" string m
    pure ⟨name, ns, uid⟩

/-- A resource: its metadata, its spec, and perhaps a status. -/
def readResource {α β ρ : Type} (spec : Decoder α) (status : Decoder β)
    (make : Identity → α → Option β → ρ) : Decoder ρ :=
  object fun m => do
    let id ← required "metadata" Identity.read m
    let spec ← required "spec" spec m
    let status ← defaulted "status" status m
    pure (make id spec status)

def Cluster.read (tidb : Decoder TidbClusterSpec) : Decoder Cluster :=
  readResource (Spec.read tidb) Status.read fun id spec status =>
    ⟨id.name, id.ns, id.uid, spec, status⟩

def DbSpec.fields : Fields := [("clusterRef", false), ("dbNamespace", true), ("dbName", true)]

def DbSpec.read : Decoder DbSpec :=
  derived fields fun m => do
    let clusterRef ← required "clusterRef" ClusterRef.read m
    let dbNamespace ← defaulted "dbNamespace" string m
    let dbName ← defaulted "dbName" string m
    pure ⟨clusterRef, dbNamespace, dbName⟩

/-- A status with a phase and a message. -/
def readMessageStatus {π σ : Type} (phase : Decoder π) (make : Option π → Option String → σ) :
    Decoder σ :=
  derived [("phase", true), ("message", true)] fun m => do
    let phase ← defaulted "phase" phase m
    let message ← defaulted "message" string m
    pure (make phase message)

def DbStatus.read : Decoder DbStatus := readMessageStatus DbPhase.read DbStatus.mk

def Database.read : Decoder Database :=
  readResource DbSpec.read DbStatus.read fun id spec status => ⟨id.name, id.ns, spec, status⟩

def UserSpec.fields : Fields :=
  [("clusterRef", false), ("databaseRef", false), ("username", true), ("password", true),
    ("secretName", true)]

def UserSpec.read : Decoder UserSpec :=
  derived fields fun m => do
    let clusterRef ← required "clusterRef" ClusterRef.read m
    let databaseRef ← required "databaseRef" DatabaseRef.read m
    let username ← defaulted "username" string m
    let password ← defaulted "password" string m
    let secretName ← defaulted "secretName" string m
    pure ⟨clusterRef, databaseRef, username, password, secretName⟩

def UserStatus.read : Decoder UserStatus := readMessageStatus UserPhase.read UserStatus.mk

def User.read : Decoder User :=
  readResource UserSpec.read UserStatus.read fun id spec status =>
    ⟨id.name, id.ns, id.uid, spec, status⟩

@[simp] theorem Phase.read_name (phase : Phase) : Phase.read (.str phase.name) = some phase := by
  cases phase <;> rfl

@[simp] theorem DbPhase.read_name (phase : DbPhase) :
    DbPhase.read (.str phase.name) = some phase := by
  cases phase <;> rfl

@[simp] theorem UserPhase.read_name (phase : UserPhase) :
    UserPhase.read (.str phase.name) = some phase := by
  cases phase <;> rfl

/-- What is read of a resource, by the members of its document. -/
theorem readResource_eq_some {α β ρ : Type} {spec : Decoder α} {status : Decoder β}
    {make : Identity → α → Option β → ρ} {doc : Document} {x : ρ} :
    readResource spec status make doc = some x ↔ ∃ ms id a b, doc = .obj ms ∧
      required "metadata" Identity.read (ms.lookup ·) = some id ∧
      required "spec" spec (ms.lookup ·) = some a ∧
      defaulted "status" status (ms.lookup ·) = some b ∧ make id a b = x := by
  constructor
  · intro h
    obtain ⟨ms, rfl, hms⟩ := object_eq_some h
    simp only [Option.bind_eq_bind, Option.bind_eq_some_iff] at hms
    obtain ⟨id, hid, a, ha, b, hb, hx⟩ := hms
    exact ⟨ms, id, a, b, rfl, hid, ha, hb, Option.some.inj hx⟩
  · rintro ⟨ms, id, a, b, rfl, hid, ha, hb, rfl⟩
    simp [readResource, object, hid, ha, hb]

/-! ### What a status patch changes -/

/-- The members of a document before and after the patch of its status. -/
structure PatchedMembers (phase : String) (message : Option String)
    (ms ms' : List (String × Document)) : Prop where
  others : ∀ name, name ≠ "status" → ms'.lookup name = ms.lookup name
  status : ∃ l, ms'.lookup "status" = some (.obj l) ∧ l.lookup "phase" = some (.str phase) ∧
    l.lookup "message" = (message.map Document.str <|>
      (Document.members (ms.lookup "status")).lookup "message") ∧
    ∀ name, name ≠ "phase" → name ≠ "message" →
      l.lookup name = (Document.members (ms.lookup "status")).lookup name

/-- A status is an object, if it is there at all. -/
def StatusObject (doc : Document) : Prop :=
  ∃ ms, doc = .obj ms ∧ ∀ st, ms.lookup "status" = some st → st = .null ∨ ∃ l, st = .obj l

/-- A document that a resource is read from. -/
structure IsResource {α : Type} (read : Decoder α) (doc : Document) : Prop where
  status : StatusObject doc
  reads : ∃ a, read doc = some a

theorem exists_merge_statusPatch (phase : String) (message : Option String)
    (ms : List (String × Document)) :
    ∃ ms', (Document.obj ms).merge (statusPatch phase message) = .obj ms' ∧
      PatchedMembers phase message ms ms' := by
  let patch := ("phase", Document.str phase) ::
    (message.map fun m => ("message", Document.str m)).toList
  have hnames : (patch.map Prod.fst).Nodup := by
    cases message <;> simp [patch]
  have hlookup (name : String) :
      (Document.mergeMembers (Document.members (ms.lookup "status")) patch).lookup name =
        Document.mergeMember ((Document.members (ms.lookup "status")).lookup name)
          (patch.lookup name) := Document.lookup_mergeMembers hnames _ name
  refine ⟨_, rfl, fun name hname => ?_, _, ?_, hlookup "phase", ?_, fun name hphase hmessage => ?_⟩
  · rw [Document.lookup_mergeMembers (by simp), List.lookup_cons, beq_false_of_ne hname]
    rfl
  · rw [Document.lookup_mergeMembers (by simp), List.lookup_cons_self]
    rfl
  · rw [hlookup]
    cases message <;> rfl
  · have hpatch : patch.lookup name = none := by
      cases message <;>
        simp [patch, List.lookup_cons, beq_false_of_ne hphase, beq_false_of_ne hmessage]
    rw [hlookup, hpatch]
    rfl

section Patch

variable {phase : String} {message : Option String} {ms ms' : List (String × Document)}

/-- What is read of a status that is an object is read of its members. -/
theorem read_status {α : Type} {fields : Fields} {read : Members → Option α} {o : Option α}
    (hobj : StatusObject (.obj ms))
    (h : defaulted "status" (derived fields read) (ms.lookup ·) = some o) :
    (o = none ∧ Document.members (ms.lookup "status") = []) ∨
      ∃ a, o = some a ∧ read ((Document.members (ms.lookup "status")).lookup ·) = some a := by
  obtain ⟨_, heq, hstatus⟩ := hobj
  obtain rfl := Document.obj.inj heq
  rw [defaulted] at h
  cases hst : ms.lookup "status" with
  | none =>
    rw [hst] at h
    exact .inl ⟨(Option.some.inj h).symm, rfl⟩
  | some st =>
    rw [hst] at h
    rcases hstatus st hst with rfl | ⟨l, rfl⟩
    · exact .inl ⟨(Option.some.inj h).symm, rfl⟩
    · obtain ⟨a, ha, rfl⟩ := Option.map_eq_some_iff.mp h
      exact .inr ⟨a, rfl, ha⟩

/-- The status is an object after the patch. -/
theorem PatchedMembers.statusObject (h : PatchedMembers phase message ms ms') :
    StatusObject (.obj ms') := by
  obtain ⟨l, hl, -⟩ := h.status
  exact ⟨ms', rfl, fun st hst => .inr ⟨l, Option.some.inj (hst.symm.trans hl)⟩⟩

/-- A resource is read with the status that is read after the patch. -/
theorem PatchedMembers.read {α β ρ : Type} {spec : Decoder α} {status : Decoder β}
    {make : Identity → α → Option β → ρ} (h : PatchedMembers phase message ms ms') {id : Identity}
    {a : α} {b : β} (hid : required "metadata" Identity.read (ms.lookup ·) = some id)
    (ha : required "spec" spec (ms.lookup ·) = some a)
    (hb : defaulted "status" status (ms'.lookup ·) = some (some b)) :
    readResource spec status make (.obj ms') = some (make id a (some b)) :=
  readResource_eq_some.mpr ⟨ms', id, a, some b, rfl,
    (required_congr (h.others _ (by decide))).trans hid,
    (required_congr (h.others _ (by decide))).trans ha, hb, rfl⟩

/-- A status with a message is read with the new phase, and with the old message if there is no new
one. -/
theorem PatchedMembers.readMessageStatus {π σ : Type} {read : Decoder π}
    {make : Option π → Option String → σ} (h : PatchedMembers phase message ms ms') {p : π}
    (hp : read (.str phase) = some p) {status : Option σ} (hobj : StatusObject (.obj ms))
    (hstatus : defaulted "status" (readMessageStatus read make) (ms.lookup ·) = some status) :
    ∃ old, (status = none ∧ old = none ∨ ∃ p₀, status = some (make p₀ old)) ∧
      defaulted "status" (SdbController.readMessageStatus read make) (ms'.lookup ·) =
        some (some (make (some p) (message <|> old))) := by
  obtain ⟨l, hl, hphase, hmessage, -⟩ := h.status
  obtain ⟨old, hold, hread⟩ : ∃ old,
      (status = none ∧ old = none ∨ ∃ p₀, status = some (make p₀ old)) ∧
      defaulted "message" string ((Document.members (ms.lookup "status")).lookup ·) = some old := by
    rcases read_status hobj hstatus with ⟨rfl, hempty⟩ | ⟨a, rfl, ha⟩
    · exact ⟨none, .inl ⟨rfl, rfl⟩, by rw [hempty]; rfl⟩
    · simp only [Option.bind_eq_bind, Option.bind_eq_some_iff] at ha
      obtain ⟨p₀, -, old, hold, ha⟩ := ha
      exact ⟨old, .inr ⟨p₀, (Option.some.inj ha).symm ▸ rfl⟩, hold⟩
  have hphase' : defaulted "phase" read (l.lookup ·) = some (some p) := by
    rw [defaulted, hphase]
    exact congrArg (Option.map some) hp
  have hmessage' : defaulted "message" string (l.lookup ·) = some (message <|> old) := by
    rw [defaulted, hmessage]
    cases message with
    | none => exact hread
    | some m => rfl
  refine ⟨old, hold, ?_⟩
  rw [defaulted, hl]
  simp [SdbController.readMessageStatus, nullable, derived, hphase', hmessage']

end Patch

section Reads

variable {tidb : Decoder TidbClusterSpec} {doc : Document}

theorem StatusObject.merge (h : StatusObject doc) (phase : String) (message : Option String) :
    StatusObject (doc.merge (statusPatch phase message)) := by
  obtain ⟨ms, rfl, -⟩ := h
  obtain ⟨ms', heq, hpatched⟩ := exists_merge_statusPatch phase message ms
  exact heq ▸ hpatched.statusObject

theorem Cluster.read_merge {c : Cluster} (hobj : StatusObject doc)
    (h : Cluster.read tidb doc = some c) (phase : Phase) :
    Cluster.read tidb (doc.merge (statusPatch phase.name none)) = some (c.mergeStatus phase) := by
  obtain ⟨ms, id, spec, status, rfl, hid, hspec, hstatus, rfl⟩ := readResource_eq_some.mp h
  obtain ⟨ms', heq, hpatched⟩ := exists_merge_statusPatch phase.name none ms
  obtain ⟨l, hl, hphase, -, hrest⟩ := hpatched.status
  -- a reference that was read is still there
  have href : defaulted "tidbClusterRef" TidbClusterRef.read (l.lookup ·) =
      some (status.bind Status.tidbClusterRef) := by
    rw [defaulted_congr (hrest "tidbClusterRef" (by decide) (by decide))]
    rcases read_status hobj hstatus with ⟨rfl, hempty⟩ | ⟨a, rfl, ha⟩
    · rw [hempty]
      rfl
    · simp only [Option.bind_eq_bind, Option.bind_eq_some_iff] at ha
      obtain ⟨_, -, r, hr, ha⟩ := ha
      obtain rfl := Option.some.inj ha
      exact hr
  have hphase' : defaulted "phase" Phase.read (l.lookup ·) = some (some phase) := by
    rw [defaulted, hphase]
    exact congrArg (Option.map some) (Phase.read_name phase)
  have hstatus' : defaulted "status" Status.read (ms'.lookup ·) =
      some (some ⟨some phase, status.bind Status.tidbClusterRef⟩) := by
    rw [defaulted, hl]
    simp [Status.read, nullable, derived, hphase', href]
  rw [heq]
  exact hpatched.read hid hspec hstatus'

theorem Database.read_merge {d : Database} (hobj : StatusObject doc)
    (h : Database.read doc = some d) (phase : DbPhase) (message : Option String) :
    Database.read (doc.merge (statusPatch phase.name message)) =
      some (d.mergeStatus phase message) := by
  obtain ⟨ms, id, spec, status, rfl, hid, hspec, hstatus, rfl⟩ := readResource_eq_some.mp h
  obtain ⟨ms', heq, hpatched⟩ := exists_merge_statusPatch phase.name message ms
  obtain ⟨old, hold, hstatus'⟩ := hpatched.readMessageStatus (DbPhase.read_name phase) hobj hstatus
  rw [heq]
  refine (hpatched.read hid hspec hstatus').trans ?_
  rcases hold with ⟨rfl, rfl⟩ | ⟨p₀, rfl⟩ <;> rfl

theorem User.read_merge {u : User} (hobj : StatusObject doc) (h : User.read doc = some u)
    (phase : UserPhase) (message : Option String) :
    User.read (doc.merge (statusPatch phase.name message)) =
      some (u.mergeStatus phase message) := by
  obtain ⟨ms, id, spec, status, rfl, hid, hspec, hstatus, rfl⟩ := readResource_eq_some.mp h
  obtain ⟨ms', heq, hpatched⟩ := exists_merge_statusPatch phase.name message ms
  obtain ⟨old, hold, hstatus'⟩ :=
    hpatched.readMessageStatus (UserPhase.read_name phase) hobj hstatus
  rw [heq]
  refine (hpatched.read hid hspec hstatus').trans ?_
  rcases hold with ⟨rfl, rfl⟩ | ⟨p₀, rfl⟩ <;> rfl

theorem SecretReference.read_json (r : SecretReference) : SecretReference.read r.json = some r := by
  obtain ⟨_ | name, _ | ns⟩ := r <;> rfl

/-- A patch of `spec.rootSecret` applies to a spec that is an object, and writes one member. -/
theorem replace_rootSecret {r : SecretReference} {ms : List (String × Document)} {doc' : Document}
    (h : Document.replace rootSecretPath r.json (.obj ms) = some doc') :
    ∃ l, ms.lookup "spec" = some (.obj l) ∧ (l.lookup "rootSecret").isSome ∧
      doc' = .obj (setMember "spec" (.obj (setMember "rootSecret" r.json l)) ms) := by
  rw [rootSecretPath_eq] at h
  obtain ⟨spec, new, hspec, hnew, rfl⟩ := Document.replace_cons h
  obtain ⟨before, after, hbefore, hafter, rfl⟩ := Document.replace_cons hnew
  obtain rfl : r.json = after := Option.some.inj hafter
  cases spec with
  | arr items =>
    rw [Document.child, position_eq_none (c := 'r') (by decide) (by decide)] at hbefore
    cases hbefore
  | obj l =>
    refine ⟨l, hspec, ?_, rfl⟩
    rw [show l.lookup "rootSecret" = some before from hbefore]
    rfl
  | _ => cases hbefore

theorem StatusObject.replace {r : SecretReference} {doc' : Document} (h : StatusObject doc)
    (hreplace : Document.replace rootSecretPath r.json doc = some doc') : StatusObject doc' := by
  obtain ⟨ms, rfl, hstatus⟩ := h
  obtain ⟨l, -, -, rfl⟩ := replace_rootSecret hreplace
  refine ⟨_, rfl, fun st hst => hstatus st ?_⟩
  rwa [lookup_setMember_of_ne (by decide)] at hst

/-- The reference is read as it was written, and all else as before. -/
theorem Cluster.read_replace {c : Cluster} (h : Cluster.read tidb doc = some c)
    {r : SecretReference} {doc' : Document}
    (hreplace : Document.replace rootSecretPath r.json doc = some doc') :
    Cluster.read tidb doc' = some (c.setRootSecret r) := by
  obtain ⟨ms, id, spec, status, rfl, hid, hspec, hstatus, rfl⟩ := readResource_eq_some.mp h
  obtain ⟨l, hold, hbefore, rfl⟩ := replace_rootSecret hreplace
  rw [required, hold, Option.bind_some, Spec.read, derived] at hspec
  have hbeside (name : String) (hname : name ≠ "rootSecret") :
      (setMember "rootSecret" r.json l).lookup name = l.lookup name :=
    lookup_setMember_of_ne hname _ _
  have hroot : (setMember "rootSecret" r.json l).lookup "rootSecret" = some r.json :=
    lookup_setMember_self hbefore
  simp only [Option.bind_eq_bind, Option.bind_eq_some_iff] at hspec
  obtain ⟨replicas, hreplicas, image, himage, _, -, tikv, htikv, tidbCluster, htidb, hl⟩ := hspec
  obtain rfl := Option.some.inj hl
  have hroot' : defaulted "rootSecret" SecretReference.read
      ((setMember "rootSecret" r.json l).lookup ·) = some (some r) := by
    rw [defaulted, hroot]
    exact congrArg (Option.map some) r.read_json
  have hspec' : Spec.read tidb (.obj (setMember "rootSecret" r.json l)) =
      some ⟨replicas, image, some r, tikv, tidbCluster⟩ := by
    rw [← defaulted_congr (hbeside _ (by decide))] at hreplicas himage htikv htidb
    simp [Spec.read, derived, hreplicas, himage, hroot', htikv, htidb]
  refine readResource_eq_some.mpr ⟨_, id, _, status, rfl, ?_, ?_, ?_, rfl⟩
  · exact (required_congr (lookup_setMember_of_ne (by decide) _ _)).trans hid
  · rw [required, lookup_setMember_self (by rw [hold]; rfl)]
    exact hspec'
  · exact (defaulted_congr (lookup_setMember_of_ne (by decide) _ _)).trans hstatus

end Reads

end SdbController
