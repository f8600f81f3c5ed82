import SdbController.Fleet
import SdbController.Interaction.Refinement
import SdbController.Serde

/-!
# The resources as documents

What the API server stores of a custom resource is a document. The controllers read it, and change
it with patches, of which they get to see the result. A `DocumentStore` holds the documents, and
`DocumentStore.read` is the store that the controllers see in it. The API server replaces what is
there, as RFC 6902 says; a member that is spelled out as `null` is there, though it reads as absent.

## Main results

* `documents_refine` — a run of all controllers on documents is a run on what they read
-/

namespace SdbController

open Interaction Json Decoder

/-! ### The server -/

/-- The custom resources as the documents they are stored as. All else is in `rest`. -/
structure DocumentStore where
  clusters : ObjectKey → Option Document := fun _ => none
  databases : ObjectKey → Option Document := fun _ => none
  users : ObjectKey → Option Document := fun _ => none
  rest : Store := {}

/-- An answer that is no resource. -/
def undecodable : KubeError := .other "Error deserializing response"

/-- What the client makes of a document in an answer. -/
def decoded {α : Type} (read : Decoder α) (doc : Document) : Except KubeError α :=
  (read doc).elim (.error undecodable) .ok

def fetch {α : Type} (read : Decoder α) (m : ObjectKey → Option Document) (k : ObjectKey) :
    Except KubeError α :=
  (m k).elim (.error (.notFound "not found")) (decoded read)

namespace DocumentStore

variable (tidb : Decoder TidbClusterSpec)

/-- The store that the controllers see. -/
def read (d : DocumentStore) : Store :=
  { d.rest with
    clusters := fun k => (d.clusters k).bind (Cluster.read tidb)
    databases := fun k => (d.databases k).bind Database.read
    users := fun k => (d.users k).bind User.read }

/-- Every document is a resource. -/
structure Valid (d : DocumentStore) : Prop where
  clusters : ∀ {k doc}, d.clusters k = some doc → IsResource (Cluster.read tidb) doc
  databases : ∀ {k doc}, d.databases k = some doc → IsResource Database.read doc
  users : ∀ {k doc}, d.users k = some doc → IsResource User.read doc

def log (d : DocumentStore) (q : Call) : DocumentStore := { d with rest := d.rest.log q }

def putCluster (d : DocumentStore) (k : ObjectKey) (doc : Document) : DocumentStore :=
  { d with clusters := Function.update d.clusters k (some doc) }

def putDatabase (d : DocumentStore) (k : ObjectKey) (doc : Document) : DocumentStore :=
  { d with databases := Function.update d.databases k (some doc) }

def putUser (d : DocumentStore) (k : ObjectKey) (doc : Document) : DocumentStore :=
  { d with users := Function.update d.users k (some doc) }

/-- The working API server. A patch is answered with the document that it leads to. -/
def answer : (q : ApiRequest) → DocumentStore → Except KubeError q.Object × DocumentStore
  | .getCluster k, d => (fetch (Cluster.read tidb) d.clusters k, d)
  | .getDatabase k, d => (fetch Database.read d.databases k, d)
  | .replaceRootSecret k r, d =>
    match d.clusters k with
    | none => (.error (.notFound "not found"), d)
    | some doc =>
      match Document.replace rootSecretPath r.json doc with
      | none => (.error (.api 422 "the patch does not apply"), d)
      | some doc' => ((decoded (Cluster.read tidb) doc').map fun _ => (),
          (d.putCluster k doc').log (.api (.replaceRootSecret k r)))
  | .mergeClusterStatus k phase, d =>
    match d.clusters k with
    | none => (.error (.notFound "not found"), d)
    | some doc =>
      let doc' := doc.merge (statusPatch phase.name none)
      ((decoded (Cluster.read tidb) doc').map fun _ => (),
        (d.putCluster k doc').log (.api (.mergeClusterStatus k phase)))
  | .mergeDatabaseStatus k phase message, d =>
    match d.databases k with
    | none => (.error (.notFound "not found"), d)
    | some doc =>
      let doc' := doc.merge (statusPatch phase.name message)
      ((decoded Database.read doc').map fun _ => (),
        (d.putDatabase k doc').log (.api (.mergeDatabaseStatus k phase message)))
  | .mergeUserStatus k phase message, d =>
    match d.users k with
    | none => (.error (.notFound "not found"), d)
    | some doc =>
      let doc' := doc.merge (statusPatch phase.name message)
      ((decoded User.read doc').map fun _ => (),
        (d.putUser k doc').log (.api (.mergeUserStatus k phase message)))
  | q, d =>
    let a := SdbController.answer ⟨true⟩ q d.rest
    (a.1, { d with rest := a.2 })

/-- The calls as the controllers meet them. -/
def Serves : (q : Call) → DocumentStore → Reply q → DocumentStore → Prop
  | .api q, d, r, d' =>
    (r, d') = d.answer tidb q ∨
      ∃ e : KubeError, e.IsFault ∧ r = .error e ∧ (d' = d ∨ d' = (d.answer tidb q).2)
  | .http q, d, r, d' => d' = d.log (.http q) ∨ (¬ HttpOutcome.IsSuccess r ∧ d' = d)
  | .draw _, d, _, d' => d' = d

/-! ### The server as it is seen -/

section Seen

variable {tidb} {d d' : DocumentStore} {k : ObjectKey} {doc : Document}

@[simp] theorem read_log (q : Call) : (d.log q).read tidb = (d.read tidb).log q := rfl

theorem read_update {α : Type} (read : Decoder α) (m : ObjectKey → Option Document) (k : ObjectKey)
    (doc : Document) :
    (fun k' => (Function.update m k (some doc) k').bind read) =
      Function.update (fun k' => (m k').bind read) k (read doc) := by
  funext k'
  rcases eq_or_ne k' k with rfl | hne
  · rw [Function.update_self, Function.update_self, Option.bind_some]
  · rw [Function.update_of_ne hne, Function.update_of_ne hne]

@[simp] theorem read_putCluster : (d.putCluster k doc).read tidb = { d.read tidb with
    clusters := Function.update (d.read tidb).clusters k (Cluster.read tidb doc) } := by
  rw [read, putCluster, read_update]
  rfl

@[simp] theorem read_putDatabase : (d.putDatabase k doc).read tidb = { d.read tidb with
    databases := Function.update (d.read tidb).databases k (Database.read doc) } := by
  rw [read, putDatabase, read_update]
  rfl

@[simp] theorem read_putUser : (d.putUser k doc).read tidb = { d.read tidb with
    users := Function.update (d.read tidb).users k (User.read doc) } := by
  rw [read, putUser, read_update]
  rfl

theorem isResource_update {α : Type} {read : Decoder α} {m : ObjectKey → Option Document}
    (hm : ∀ {k doc}, m k = some doc → IsResource read doc) (hdoc : IsResource read doc)
    {k' : ObjectKey} {doc' : Document} (h : Function.update m k (some doc) k' = some doc') :
    IsResource read doc' := by
  rcases eq_or_ne k' k with rfl | hne
  · rw [Function.update_self] at h
    exact Option.some.inj h ▸ hdoc
  · rw [Function.update_of_ne hne] at h
    exact hm h

theorem Valid.putCluster (hd : d.Valid tidb) (hdoc : IsResource (Cluster.read tidb) doc) :
    (d.putCluster k doc).Valid tidb :=
  ⟨isResource_update hd.clusters hdoc, hd.databases, hd.users⟩

theorem Valid.putDatabase (hd : d.Valid tidb) (hdoc : IsResource Database.read doc) :
    (d.putDatabase k doc).Valid tidb :=
  ⟨hd.clusters, isResource_update hd.databases hdoc, hd.users⟩

theorem Valid.putUser (hd : d.Valid tidb) (hdoc : IsResource User.read doc) :
    (d.putUser k doc).Valid tidb :=
  ⟨hd.clusters, hd.databases, isResource_update hd.users hdoc⟩

theorem Valid.log (hd : d.Valid tidb) (q : Call) : (d.log q).Valid tidb :=
  ⟨hd.clusters, hd.databases, hd.users⟩

/-- What is fetched is what is seen. -/
theorem fetch_eq {α : Type} {read : Decoder α} {m : ObjectKey → Option Document}
    (hm : ∀ {k doc}, m k = some doc → IsResource read doc) (k : ObjectKey) :
    fetch read m k = lookup (fun k => (m k).bind read) k := by
  rw [fetch, lookup]
  cases hk : m k with
  | none => rfl
  | some doc =>
    obtain ⟨a, ha⟩ := (hm hk).reads
    rw [Option.bind_some, ha, Option.elim_some, decoded, ha]
    rfl

/-- An answer on documents, and the answer on what is read. -/
structure Agrees (tidb : Decoder TidbClusterSpec) (q : ApiRequest) (d : DocumentStore)
    (a : Except KubeError q.Object × DocumentStore) : Prop where
  valid : a.2.Valid tidb
  seen : (a.1, a.2.read tidb) = SdbController.answer ⟨true⟩ q (d.read tidb) ∨
    ∃ e : KubeError, e.IsFault ∧ a = (.error e, d)

/-- A merge patch is seen as the write that it means for what is read. -/
theorem merge_seen {α : Type} {read : Decoder α} {o : Option Document} {patch : Document → Document}
    (put : Document → DocumentStore) {write : α → Store}
    {a : Except KubeError Unit × DocumentStore} (hd : d.Valid tidb)
    (ho : ∀ {doc}, o = some doc → IsResource read doc)
    (ha : a = o.elim (.error (.notFound "not found"), d) fun doc =>
      ((decoded read (patch doc)).map fun _ => (), put (patch doc)))
    (hput : ∀ {doc x}, StatusObject doc → read doc = some x → ∃ x', read (patch doc) = some x' ∧
      (put (patch doc)).Valid tidb ∧ (put (patch doc)).read tidb = write x) :
    a.2.Valid tidb ∧ (a.1, a.2.read tidb) = patched (d.read tidb) ((o.bind read).map write) := by
  subst ha
  cases o with
  | none => exact ⟨hd, rfl⟩
  | some doc =>
    obtain ⟨hobj, x, hx⟩ := ho rfl
    obtain ⟨x', hnew, hvalid, hwrite⟩ := hput hobj hx
    refine ⟨hvalid, ?_⟩
    simp only [Option.elim_some, Option.bind_some, hx, decoded, hnew, hwrite]
    rfl

theorem agrees_answer (hd : d.Valid tidb) (q : ApiRequest) : Agrees tidb q d (d.answer tidb q) := by
  have rest {s : Store} {q : ApiRequest} (x : Except KubeError q.Object)
      (h : (x, ({ d with rest := s } : DocumentStore).read tidb) =
        SdbController.answer ⟨true⟩ q (d.read tidb)) :
      Agrees tidb q d (x, { d with rest := s }) :=
    ⟨⟨hd.clusters, hd.databases, hd.users⟩, .inl h⟩
  cases q with
  | getCluster k => exact ⟨hd, .inl (congrArg (·, _) (fetch_eq hd.clusters k))⟩
  | getDatabase k => exact ⟨hd, .inl (congrArg (·, _) (fetch_eq hd.databases k))⟩
  | getSecret k | getDeployment k | getTidbCluster k => exact rest _ rfl
  | applyDeployment x | applyService x => exact rest _ rfl
  | createSecret x =>
    refine rest _ ?_
    simp only [SdbController.answer, show (d.read tidb).secrets = d.rest.secrets from rfl]
    cases createIn d.rest.secrets x.metadata.key x.stored <;> rfl
  | createConfigMap x =>
    refine rest _ ?_
    simp only [SdbController.answer, show (d.read tidb).configMaps = d.rest.configMaps from rfl]
    cases createIn d.rest.configMaps x.metadata.key x <;> rfl
  | createTidbCluster x =>
    refine rest _ ?_
    simp only [SdbController.answer,
      show (d.read tidb).tidbClusters = d.rest.tidbClusters from rfl]
    cases createIn d.rest.tidbClusters x.metadata.key x <;> rfl
  | replaceRootSecret k r =>
    rw [answer]
    cases hk : d.clusters k with
    | none =>
      have hseen : (d.read tidb).clusters k = none := by simp [read, hk]
      refine ⟨hd, .inl ?_⟩
      simp only [SdbController.answer, hseen]
    | some doc =>
      obtain ⟨hobj, c, hc⟩ := hd.clusters hk
      have hseen : (d.read tidb).clusters k = some c := by simp [read, hk, hc]
      dsimp only
      cases hreplace : Document.replace rootSecretPath r.json doc with
      | none => exact ⟨hd, .inr ⟨_, ⟨rfl, rfl⟩, rfl⟩⟩
      | some doc' =>
        have hnew := Cluster.read_replace hc hreplace
        refine ⟨(hd.putCluster ⟨hobj.replace hreplace, _, hnew⟩).log _, .inl ?_⟩
        simp [SdbController.answer, hseen, decoded, hnew, Except.map]
  | mergeClusterStatus k phase =>
    have hseen := merge_seen (o := d.clusters k)
      (fun doc => (d.putCluster k doc).log (.api (.mergeClusterStatus k phase)))
      (a := d.answer tidb (.mergeClusterStatus k phase)) hd hd.clusters
      (by rw [answer]; cases d.clusters k <;> rfl) fun hobj hc =>
        have hnew := Cluster.read_merge hobj hc phase
        ⟨_, hnew, (hd.putCluster ⟨hobj.merge .., _, hnew⟩).log _, by
          rw [read_log, read_putCluster, hnew]⟩
    exact ⟨hseen.1, .inl hseen.2⟩
  | mergeDatabaseStatus k phase message =>
    have hseen := merge_seen (o := d.databases k)
      (fun doc => (d.putDatabase k doc).log (.api (.mergeDatabaseStatus k phase message)))
      (a := d.answer tidb (.mergeDatabaseStatus k phase message)) hd hd.databases
      (by rw [answer]; cases d.databases k <;> rfl) fun hobj hx =>
        have hnew := Database.read_merge hobj hx phase message
        ⟨_, hnew, (hd.putDatabase ⟨hobj.merge .., _, hnew⟩).log _, by
          rw [read_log, read_putDatabase, hnew]⟩
    exact ⟨hseen.1, .inl hseen.2⟩
  | mergeUserStatus k phase message =>
    have hseen := merge_seen (o := d.users k)
      (fun doc => (d.putUser k doc).log (.api (.mergeUserStatus k phase message)))
      (a := d.answer tidb (.mergeUserStatus k phase message)) hd hd.users
      (by rw [answer]; cases d.users k <;> rfl) fun hobj hu =>
        have hnew := User.read_merge hobj hu phase message
        ⟨_, hnew, (hd.putUser ⟨hobj.merge .., _, hnew⟩).log _, by
          rw [read_log, read_putUser, hnew]⟩
    exact ⟨hseen.1, .inl hseen.2⟩

/-- **A call on documents** is seen as a call on what is read. -/
theorem Valid.serves (hd : d.Valid tidb) {q : Call} {r : Reply q} (h : Serves tidb q d r d') :
    d'.Valid tidb ∧ SdbController.Serves ⟨true⟩ q (d.read tidb) r (d'.read tidb) := by
  cases q with
  | draw n =>
    obtain rfl : d' = d := h
    exact ⟨hd, rfl⟩
  | http q =>
    rcases h with rfl | ⟨hr, rfl⟩
    · exact ⟨hd.log _, .inl rfl⟩
    · exact ⟨hd, .inr ⟨hr, rfl⟩⟩
  | api q =>
    have ha := agrees_answer hd q
    rcases h with h | ⟨e, he, rfl, rfl | rfl⟩
    · rw [← h] at ha
      refine ⟨ha.valid, ?_⟩
      rcases ha.seen with hseen | ⟨e, he, heq⟩
      · exact .inl hseen
      · cases heq
        exact .inr ⟨e, he, rfl, .inl rfl⟩
    · exact ⟨hd, .inr ⟨e, he, rfl, .inl rfl⟩⟩
    · refine ⟨ha.valid, .inr ⟨e, he, rfl, ?_⟩⟩
      rcases ha.seen with hseen | ⟨e, -, heq⟩
      · exact .inr (congrArg Prod.snd hseen)
      · exact .inl (by rw [heq])

end Seen

end DocumentStore

/-! ### Runs -/

open DocumentStore

/-- All three controllers at work on documents that hold their finalizers, as `fleet` is on what is
read. What else may happen is what may happen there, and leaves resources. -/
def documentFleet (libs : Externals) (client : Client) (tidb : Decoder TidbClusterSpec) :
    System Resource Reply (Except Error Action) DocumentStore where
  start d := (fleet libs client ⟨true⟩).start (d.read tidb)
  serve := DocumentStore.Serves tidb
  env d d' := d'.Valid tidb ∧ FleetEnv (d.read tidb) (d'.read tidb)

/-- A configuration, with one slot for each resource. -/
abbrev DocumentRun : Type := Config Slot Resource Reply (Except Error Action) DocumentStore

/-- An invocation runs in the slot of its resource. -/
def InPlaceThere (tidb : Decoder TidbClusterSpec) (c : DocumentRun)
    (m : Move Slot Resource Reply DocumentStore) : Prop :=
  InPlace (c.seen (DocumentStore.read tidb)) (m.seen (DocumentStore.read tidb))

/-- Documents before the controllers are started for the first time. -/
structure FreshDocuments (tidb : Decoder TidbClusterSpec) (d : DocumentStore) : Prop where
  valid : d.Valid tidb
  fresh : FreshFleet (d.read tidb)

theorem documentFleet_refines (libs : Externals) (client : Client)
    (tidb : Decoder TidbClusterSpec) :
    Refines (documentFleet libs client tidb) (fleet libs client ⟨true⟩) (DocumentStore.read tidb)
      (DocumentStore.Valid tidb) where
  env _ he := he
  start _ hs := hs
  serve hd hs := hd.serves hs

/-- **What the controllers do to documents** they are seen to do to what is read. Every document is
a resource all the time. -/
theorem documents_refine {libs : Externals} {client : Client} {tidb : Decoder TidbClusterSpec}
    {c : DocumentRun} (hc : (documentFleet libs client tidb).Reachable (FreshDocuments tidb)
      (InPlaceThere tidb) c) :
    c.store.Valid tidb ∧
      (fleet libs client ⟨true⟩).Reachable FreshFleet InPlace (c.seen (DocumentStore.read tidb)) :=
  (documentFleet_refines libs client tidb).reachable (fun _ hd => ⟨hd.valid, hd.fresh⟩)
    (fun _ _ hm => hm) hc

/-! ### A run on a document -/

/-- A server that answers every call. -/
def DocumentStore.respond (tidb : Decoder TidbClusterSpec) :
    (q : Call) → DocumentStore → Reply q × DocumentStore
  | .api q, d => d.answer tidb q
  | q, d =>
    let a := SdbController.respond ⟨true⟩ (fun _ => false) q d.rest
    (a.1, { d with rest := a.2 })

theorem DocumentStore.serves_respond (tidb : Decoder TidbClusterSpec) (q : Call)
    (d : DocumentStore) : Serves tidb q d (d.respond tidb q).1 (d.respond tidb q).2 := by
  cases q with
  | api q => exact .inl rfl
  | http q => exact .inl rfl
  | draw n => rfl

/-- No spec of a TidbCluster is read. -/
def noTidb : Decoder TidbClusterSpec := fun _ => none

/-- A Cluster as it may be stored, with a label that is not the controllers' business. -/
def labelledDocument : Document :=
  .obj [("metadata", .obj [("name", .str sampleCluster.name), ("namespace", .str sampleCluster.ns),
      ("uid", .str sampleCluster.uid), ("labels", .obj [("team", .str "storage")])]),
    ("spec", sampleCluster.spec.json fun _ => .null)]

def labelledStore : DocumentStore where
  clusters := Function.update (fun _ => none) sampleCluster.key (some labelledDocument)

theorem labelledStore_clusters {k : ObjectKey} {doc : Document}
    (h : labelledStore.clusters k = some doc) : doc = labelledDocument := by
  rw [labelledStore] at h
  dsimp only at h
  rw [Function.update_apply] at h
  split at h
  · exact (Option.some.inj h).symm
  · cases h

theorem valid_labelledStore : labelledStore.Valid noTidb where
  clusters h := by
    obtain rfl := labelledStore_clusters h
    exact ⟨⟨_, rfl, fun _ hst => by cases hst⟩, sampleCluster, rfl⟩
  databases h := by cases h
  users h := by cases h

theorem freshDocuments_labelledStore : FreshDocuments noTidb labelledStore := by
  refine ⟨valid_labelledStore, ⟨fun {k c} h => ?_, rfl⟩⟩
  obtain ⟨doc, hdoc, hread⟩ := Option.bind_eq_some_iff.mp h
  rw [labelledStore] at hdoc
  dsimp only at hdoc
  rw [Function.update_apply] at hdoc
  split at hdoc
  · next hk =>
    obtain rfl := Option.some.inj hdoc
    obtain rfl : sampleCluster = c := Option.some.inj hread
    exact ⟨hk.symm, rfl⟩
  · cases hdoc

theorem documents_refine_labelled : ∃ c : DocumentRun,
    c.store = (sampleCluster.reconcile.run.eval (DocumentStore.respond noTidb) labelledStore).2 ∧
      c.store.Valid noTidb ∧ (fleet sampleExternals .kube ⟨true⟩).Reachable FreshFleet InPlace
        (c.seen (DocumentStore.read noTidb)) := by
  have h₀ : (documentFleet sampleExternals .kube noTidb).Reachable (FreshDocuments noTidb)
      (InPlaceThere noTidb) (⟨labelledStore, fun _ => none, []⟩ : DocumentRun) :=
    .init freshDocuments_labelledStore
  have hstart : (documentFleet sampleExternals .kube noTidb).start labelledStore
      (.cluster sampleCluster) sampleCluster.reconcile.run := ⟨rfl, rfl⟩
  obtain ⟨c, hc, hs, -⟩ := h₀.play (i := .cluster sampleCluster.key)
    (DocumentStore.serves_respond noTidb) (fun c m hm => by
      cases hm with
      | start => exact ⟨rfl, admitted_sampleCluster⟩
      | call | finish => trivial) rfl hstart
  exact ⟨c, hs, documents_refine hc⟩

end SdbController
