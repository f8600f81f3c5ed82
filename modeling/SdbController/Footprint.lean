import SdbController.Documents
import SdbController.Finalizers

/-!
# Where the controllers write

All three controllers as `finalizer` drives them, on the documents of the resources. They write the
phase and the message of a status, the reference to the root Secret, and their own entries among
the finalizers. Whatever else stands in a document is not their business and stays. A document that
is being deleted goes when the last finalizer is taken off.

An invocation may start from any version of its resource, however old.

## Main results

* `documents_kept` — what the controllers change in a document, and what they do not
-/

namespace SdbController

open Interaction Json Decoder

/-! ### The metadata of a document -/

def finalizersPath : List String := ["metadata", "finalizers"]

def deletionPath : List String := ["metadata", "deletionTimestamp"]

/-- The texts of an array. -/
def texts : Document → List String
  | .arr items => items.filterMap string
  | _ => []

/-- What the metadata of a document says about its lifetime. -/
def lifeOf (doc : Document) : Life where
  finalizers := ((Document.optional finalizersPath doc).map texts).getD []
  deleting := (Document.optional deletionPath doc).isSome

/-- What a JSON patch of the finalizers comes to. -/
def finalizersPatch (names : List String) : Document :=
  .obj [("metadata", .obj [("finalizers", .arr (names.map .str))])]

namespace DocumentStore

/-- The document of the resource in a slot. -/
def stored (d : DocumentStore) : Slot → Option Document
  | .cluster k => d.clusters k
  | .database k => d.databases k
  | .user k => d.users k

def put (d : DocumentStore) (i : Slot) (o : Option Document) : DocumentStore :=
  match i with
  | .cluster k => { d with clusters := Function.update d.clusters k o }
  | .database k => { d with databases := Function.update d.databases k o }
  | .user k => { d with users := Function.update d.users k o }

end DocumentStore

/-! ### The system -/

/-- What the API server holds, and the DELETEs it has accepted. -/
structure DocumentState where
  documents : DocumentStore
  accepted : List Deletion := []

/-- A call on behalf of the resource in a slot. -/
abbrev DocumentCall : Type := Slot × LifeCall Call CleanupCall

abbrev DocumentReply (q : DocumentCall) : Type := LifeReply Reply CleanupReply KubeError q.2

namespace DocumentState

variable (tidb : Decoder TidbClusterSpec)

/-- A patch of the finalizers, by what it comes to for the life of the document. -/
def patched (w : DocumentState) (i : Slot) (f : Life → Option (Option Life)) :
    Option DocumentState :=
  (w.documents.stored i).bind fun doc => (f (lifeOf doc)).map fun v =>
    { w with documents := w.documents.put i (v.map fun l =>
                doc.merge (finalizersPatch l.finalizers)) }

/-- It is applied, and the reply may be lost, or it fails. -/
def Patches (i : Slot) (f : Life → Option (Option Life)) (w : DocumentState)
    (r : Except KubeError Unit) (w' : DocumentState) : Prop :=
  w.patched i f = some w' ∨ (w' = w ∧ ∃ e, r = .error e)

/-- The calls as the controllers meet them. -/
def Serves : (q : DocumentCall) → DocumentState → DocumentReply q → DocumentState → Prop
  | (_, .apply q), w, r, w' =>
    ∃ d, DocumentStore.Serves tidb q w.documents r d ∧ w' = { w with documents := d }
  | (_, .cleanup q), w, r, w' => ∃ s, CleanupServes q ⟨w.documents.rest, w.accepted⟩ r s ∧
      w' = ⟨{ w.documents with rest := s.store }, s.accepted⟩
  | (i, .add name seen), w, r, w' => Patches i (Life.add name seen) w r w'
  | (i, .remove name n), w, r, w' => Patches i (Life.remove name n) w r w'

end DocumentState

/-- All three controllers at work on documents. What else may happen leaves resources. -/
def drivenDocuments (libs : Externals) (client : Client) (tidb : Decoder TidbClusterSpec)
    (run : String → Finalizer Reply CleanupReply KubeError Error (Option Action)) :
    System (Resource × Life) DocumentReply (Except (FinalizerError Error KubeError) (Option Action))
      DocumentState where
  start _ l p := p = (tagged l.1.slot).embed (l.1.driven libs client (run l.1.slot.finalizer) l.2)
  serve := DocumentState.Serves tidb
  env _ w' := w'.documents.Valid tidb

/-- A configuration, with one slot for each resource. -/
abbrev DrivenRun : Type :=
  Config Slot (Resource × Life) DocumentReply
    (Except (FinalizerError Error KubeError) (Option Action)) DocumentState

/-- A patch of the finalizers is about the controller's own. -/
def OwnFinalizer : DocumentCall → Prop
  | (i, .add name _) => name = i.finalizer
  | (i, .remove name _) => name = i.finalizer
  | _ => True

/-- What `finalizer` drives patches no other finalizers. -/
theorem Resource.driven_meets {libs : Externals} {client : Client}
    {run : String → Finalizer Reply CleanupReply KubeError Error (Option Action)}
    (hrun : ∀ i : Slot, Documented i.finalizer none (run i.finalizer)) (l : Resource × Life) :
    ((tagged l.1.slot).embed (l.1.driven libs client (run l.1.slot.finalizer) l.2)).Meets
      (fun _ => OwnFinalizer) (fun _ _ => True) [] := by
  have hclears : (managed libs client ⟨true⟩ l.1.slot fun _ _ => True).Clears
      (acting libs client) := clears_acting l.1.slot
  have hmeets := Managed.meets_guard (l := l) hclears (hrun l.1.slot) rfl
  refine (tagged l.1.slot).meets_embed_ret (h := []) (fun h q hq => ?_) (fun _ _ => id) hmeets
  cases q with
  | apply q | cleanup q => trivial
  | add name seen | remove name n => exact hq.1

/-! ### Patches of documents -/

/-- Neither path leads along the other. -/
def Beside (path written : List String) : Prop := ¬ written <+: path ∧ ¬ path <+: written

instance (path written : List String) : Decidable (Beside path written) :=
  inferInstanceAs (Decidable (_ ∧ _))

/-- A document that changed along the paths in `written` at most. -/
def ChangedAlong (written : List (List String)) (doc doc' : Document) : Prop :=
  ∀ path, (∀ w ∈ written, Beside path w) → Document.get path doc' = Document.get path doc

def phasePath : List String := ["status", "phase"]

def messagePath : List String := ["status", "message"]

/-- Beside a path of two members there is one that is not the first, or one below it that is not the
second. -/
theorem Beside.cases {path : List String} {a b : String} (h : Beside path [a, b]) :
    (∃ x rest, path = x :: rest ∧ x ≠ a) ∨ ∃ x rest, path = a :: x :: rest ∧ x ≠ b := by
  obtain ⟨hpath, hwritten⟩ := h
  rcases path with _ | ⟨x, _ | ⟨y, rest⟩⟩
  · exact absurd List.nil_prefix hwritten
  · refine .inl ⟨x, [], rfl, ?_⟩
    rintro rfl
    exact hwritten ⟨[b], rfl⟩
  · by_cases hx : x = a
    · subst hx
      refine .inr ⟨y, rest, rfl, ?_⟩
      rintro rfl
      exact hpath ⟨rest, rfl⟩
    · exact .inl ⟨x, _, rfl, hx⟩

/-- A path through a member that is an object, if it is there at all. -/
theorem get_member_cons {ms : List (String × Document)} {name : String}
    (h : ∀ v, ms.lookup name = some v → v = .null ∨ ∃ l, v = .obj l) (x : String)
    (rest : List String) : Document.get (name :: x :: rest) (.obj ms) =
      ((Document.members (ms.lookup name)).lookup x).bind (Document.get rest) := by
  rw [Document.get, Document.child]
  cases hv : ms.lookup name with
  | none => rfl
  | some v => rcases h v hv with rfl | ⟨l, rfl⟩ <;> rfl

section Changes

variable {doc doc' : Document} {r : SecretReference}

theorem changedAlong_replace (h : Document.replace rootSecretPath r.json doc = some doc') :
    ChangedAlong [rootSecretPath] doc doc' := by
  intro path hpath
  have hbeside := hpath _ List.mem_cons_self
  rw [rootSecretPath_eq] at h hbeside
  rcases hbeside.cases with ⟨x, rest, rfl, hx⟩ | ⟨x, rest, rfl, hx⟩
  · exact Document.get_replace_of_ne [] hx h
  · exact Document.get_replace_of_ne ["spec"] hx h

theorem changedAlong_status (h : StatusObject doc) (phase : String) (message : Option String)
    {written : List (List String)} (hphase : phasePath ∈ written)
    (hmessage : message = none ∨ messagePath ∈ written) :
    ChangedAlong written doc (doc.merge (statusPatch phase message)) := by
  obtain ⟨ms, rfl, hstatus⟩ := h
  obtain ⟨ms', heq, hothers, l, hl, -, hold, hrest⟩ := exists_merge_statusPatch phase message ms
  intro path hpath
  rw [heq]
  rcases (hpath _ hphase).cases with ⟨x, rest, rfl, hx⟩ | ⟨x, rest, rfl, hx⟩
  · rw [Document.get, Document.child, hothers x hx]
    rfl
  · have hx' : l.lookup x = (Document.members (ms.lookup "status")).lookup x := by
      by_cases hm : x = "message"
      · subst hm
        rcases hmessage with rfl | hmem
        · exact hold
        · exact absurd ⟨rest, rfl⟩ (hpath _ hmem).1
      · exact hrest x hx hm
    rw [get_member_cons hstatus, ← hx', Document.get, Document.child, hl]
    rfl

/-- What a patch of the finalizers leaves. -/
theorem exists_merge_finalizersPatch (names : List String) (ms : List (String × Document)) :
    ∃ ms' l, (Document.obj ms).merge (finalizersPatch names) = .obj ms' ∧
      (∀ name, name ≠ "metadata" → ms'.lookup name = ms.lookup name) ∧
      ms'.lookup "metadata" = some (.obj l) ∧
      l.lookup "finalizers" = some (.arr (names.map .str)) ∧
      ∀ name, name ≠ "finalizers" →
        l.lookup name = (Document.members (ms.lookup "metadata")).lookup name := by
  let patch := [("finalizers", Document.arr (names.map .str))]
  have hpatch : (patch.map Prod.fst).Nodup := List.nodup_singleton _
  refine ⟨_, Document.mergeMembers (Document.members (ms.lookup "metadata")) patch, rfl,
    fun name hname => ?_, ?_, ?_, fun name hname => ?_⟩
  · rw [Document.lookup_mergeMembers (by simp), List.lookup_cons, beq_false_of_ne hname]
    rfl
  · rw [Document.lookup_mergeMembers (by simp), List.lookup_cons_self]
    rfl
  · rw [Document.lookup_mergeMembers hpatch, List.lookup_cons_self]
    rfl
  · rw [Document.lookup_mergeMembers hpatch, List.lookup_cons, beq_false_of_ne hname]
    rfl

/-- The metadata of a resource is an object. -/
theorem exists_metadata {ms : List (String × Document)} {id : Identity}
    (h : required "metadata" Identity.read (ms.lookup ·) = some id) :
    ∃ l, ms.lookup "metadata" = some (.obj l) := by
  obtain ⟨v, hv, hread⟩ := Option.bind_eq_some_iff.mp h
  obtain ⟨l, rfl, -⟩ := object_eq_some hread
  exact ⟨l, hv⟩

variable {α β ρ : Type} {spec : Decoder α} {status : Decoder β} {make : Identity → α → Option β → ρ}

theorem changedAlong_finalizers (h : ∃ x, readResource spec status make doc = some x)
    (names : List String) :
    ChangedAlong [finalizersPath] doc (doc.merge (finalizersPatch names)) := by
  obtain ⟨x, hx⟩ := h
  obtain ⟨ms, id, a, b, rfl, hid, -, -, -⟩ := readResource_eq_some.mp hx
  obtain ⟨l₀, hl₀⟩ := exists_metadata hid
  obtain ⟨ms', l, heq, hothers, hl, -, hrest⟩ := exists_merge_finalizersPatch names ms
  intro path hpath
  rw [heq]
  rcases (hpath _ List.mem_cons_self).cases with ⟨x, rest, rfl, hx⟩ | ⟨x, rest, rfl, hx⟩
  · rw [Document.get, Document.child, hothers x hx]
    rfl
  · have hmeta (v : Document) (hv : ms.lookup "metadata" = some v) : v = .null ∨ ∃ l, v = .obj l :=
      .inr ⟨l₀, Option.some.inj (hv.symm.trans hl₀)⟩
    rw [get_member_cons hmeta, ← hrest x hx, Document.get, Document.child, hl]
    rfl

/-- A resource is read as before. -/
theorem IsResource.finalizers (h : IsResource (readResource spec status make) doc)
    (names : List String) :
    IsResource (readResource spec status make) (doc.merge (finalizersPatch names)) := by
  obtain ⟨⟨ms, rfl, hstatus⟩, x, hx⟩ := h
  obtain ⟨_, id, a, b, heq, hid, ha, hb, rfl⟩ := readResource_eq_some.mp hx
  obtain rfl := Document.obj.inj heq
  obtain ⟨l₀, hl₀⟩ := exists_metadata hid
  obtain ⟨ms', l, heq, hothers, hl, -, hrest⟩ := exists_merge_finalizersPatch names ms
  rw [heq]
  refine ⟨⟨ms', rfl, fun st hst => hstatus st ?_⟩, _, readResource_eq_some.mpr
    ⟨ms', id, a, b, rfl, ?_, ?_, ?_, rfl⟩⟩
  · rwa [hothers _ (by decide)] at hst
  · rw [required, hl₀, Option.bind_some, Identity.read, object] at hid
    rw [hl₀] at hrest
    have hsame (name : String) (hname : name ≠ "finalizers") :
        required name string (l.lookup ·) = required name string (l₀.lookup ·) :=
      required_congr (hrest name hname)
    rw [required, hl, Option.bind_some, Identity.read, object, hsame _ (by decide),
      hsame _ (by decide), hsame _ (by decide)]
    exact hid
  · exact (required_congr (hothers _ (by decide))).trans ha
  · exact (defaulted_congr (hothers _ (by decide))).trans hb

theorem finalizers_merge (h : ∃ ms, doc = .obj ms) (names : List String) :
    (lifeOf (doc.merge (finalizersPatch names))).finalizers = names := by
  obtain ⟨ms, rfl⟩ := h
  obtain ⟨ms', l, heq, -, hl, hnames, -⟩ := exists_merge_finalizersPatch names ms
  have hget : Document.get finalizersPath (.obj ms') = some (.arr (names.map .str)) := by
    rw [finalizersPath, Document.get, Document.child, hl, Option.bind_some, Document.get,
      Document.child, hnames]
    rfl
  rw [heq, lifeOf, Document.optional, hget]
  simp only [Option.map_some, Option.getD_some, texts, List.filterMap_map]
  exact (List.filterMap_congr fun _ _ => rfl).trans (List.filterMap_some ..)

end Changes

/-! ### What is kept -/

/-- The paths along which a resource is written. -/
def Slot.written : Slot → List (List String)
  | .cluster _ => [rootSecretPath, phasePath, finalizersPath]
  | .database _ => [phasePath, messagePath, finalizersPath]
  | .user _ => [phasePath, messagePath, finalizersPath]

/-- The finalizers that are not the controller's own. -/
def foreign (i : Slot) (l : Life) : List String := l.finalizers.filter (· ≠ i.finalizer)

/-- What has become of a document of the resource in a slot. -/
structure Touched (i : Slot) (doc doc' : Document) : Prop where
  along : ChangedAlong i.written doc doc'
  foreign : foreign i (lifeOf doc') = foreign i (lifeOf doc)

/-- What has become of what is stored. -/
structure KeptBut (i : Slot) (o o' : Option Document) : Prop where
  absent : o = none → o' = none
  gone : ∀ {doc}, o = some doc → o' = none → (lifeOf doc).deleting
  there : ∀ {doc doc'}, o = some doc → o' = some doc' → Touched i doc doc'

/-- The documents changed where the controllers write, and none appeared or disappeared but those
that were being deleted. -/
def Kept (d d' : DocumentStore) : Prop := ∀ i, KeptBut i (d.stored i) (d'.stored i)

theorem beside_deletionPath {i : Slot} {w : List String} (hw : w ∈ i.written) :
    Beside deletionPath w := by
  have hcluster : ∀ w ∈ [rootSecretPath, phasePath, finalizersPath], Beside deletionPath w := by
    decide
  have hothers : ∀ w ∈ [phasePath, messagePath, finalizersPath], Beside deletionPath w := by
    decide
  cases i with
  | cluster k => exact hcluster w hw
  | database k | user k => exact hothers w hw

section Kept

variable {i : Slot} {doc doc' doc'' : Document} {o o' o'' : Option Document}
  {d d' d'' : DocumentStore}

theorem Touched.refl (i : Slot) (doc : Document) : Touched i doc doc := ⟨fun _ _ => rfl, rfl⟩

theorem Touched.trans (h : Touched i doc doc') (h' : Touched i doc' doc'') : Touched i doc doc'' :=
  ⟨fun path hp => (h'.along path hp).trans (h.along path hp), h'.foreign.trans h.foreign⟩

/-- The controllers do not delete a resource. -/
theorem Touched.deleting (h : Touched i doc doc') :
    (lifeOf doc').deleting = (lifeOf doc).deleting :=
  congrArg Option.isSome (Document.optional_congr (h.along _ fun _ => beside_deletionPath))

/-- A change beside the finalizers. -/
theorem ChangedAlong.touched {written : List (List String)} (h : ChangedAlong written doc doc')
    (hsub : written ⊆ i.written) (hf : ∀ w ∈ written, Beside finalizersPath w) :
    Touched i doc doc' := by
  have hsame : (lifeOf doc').finalizers = (lifeOf doc).finalizers :=
    congrArg (fun o => (o.map texts).getD []) (Document.optional_congr (h _ hf))
  exact ⟨fun path hp => h path fun w hw => hp w (hsub hw), congrArg (List.filter _) hsame⟩

theorem KeptBut.refl (i : Slot) (o : Option Document) : KeptBut i o o := by
  refine ⟨id, fun h h' => ?_, fun h h' => ?_⟩
  · rw [h] at h'
    cases h'
  · rw [h] at h'
    exact Option.some.inj h' ▸ .refl i _

theorem KeptBut.trans (h : KeptBut i o o') (h' : KeptBut i o' o'') : KeptBut i o o'' := by
  refine ⟨fun ho => h'.absent (h.absent ho), fun {doc} ho ho'' => ?_, fun {doc doc''} ho ho'' => ?_⟩
  · cases ho' : o' with
    | none => exact h.gone ho ho'
    | some doc' => exact (h.there ho ho').deleting ▸ h'.gone ho' ho''
  · cases ho' : o' with
    | none =>
      rw [h'.absent ho'] at ho''
      cases ho''
    | some doc' => exact (h.there ho ho').trans (h'.there ho' ho'')

theorem Kept.refl (d : DocumentStore) : Kept d d := fun i => .refl i _

theorem Kept.trans (h : Kept d d') (h' : Kept d' d'') : Kept d d'' := fun i => (h i).trans (h' i)

theorem DocumentStore.stored_put (d : DocumentStore) (i j : Slot) (o : Option Document) :
    (d.put i o).stored j = if j = i then o else d.stored j := by
  cases i <;> cases j <;> simp [put, stored, Function.update_apply]

theorem kept_put (hi : d.stored i = some doc) (hgone : o = none → (lifeOf doc).deleting)
    (hthere : ∀ {doc'}, o = some doc' → Touched i doc doc') : Kept d (d.put i o) := by
  intro j
  rw [DocumentStore.stored_put]
  split
  · next hji =>
    subst hji
    rw [hi]
    refine ⟨nofun, fun h ho => ?_, fun h ho => ?_⟩ <;> obtain rfl := Option.some.inj h
    · exact hgone ho
    · exact hthere ho
  · exact .refl j _

end Kept

/-! ### One call -/

/-- The document of a resource of the kind. -/
def IsStored (tidb : Decoder TidbClusterSpec) : Slot → Document → Prop
  | .cluster _ => IsResource (Cluster.read tidb)
  | .database _ => IsResource Database.read
  | .user _ => IsResource User.read

section Calls

variable {tidb : Decoder TidbClusterSpec} {i : Slot} {doc : Document} {d d' : DocumentStore}
  {w w' : DocumentState}

theorem DocumentStore.valid_iff :
    d.Valid tidb ↔ ∀ i doc, d.stored i = some doc → IsStored tidb i doc := by
  refine ⟨fun hd i doc h => ?_, fun h => ⟨fun {k doc} => h (.cluster k) doc,
    fun {k doc} => h (.database k) doc, fun {k doc} => h (.user k) doc⟩⟩
  cases i with
  | cluster k => exact hd.clusters h
  | database k => exact hd.databases h
  | user k => exact hd.users h

theorem IsStored.isObject (h : IsStored tidb i doc) : ∃ ms, doc = .obj ms := by
  have hstatus : StatusObject doc := by
    cases i with
    | cluster k | database k | user k => exact IsResource.status h
  exact hstatus.imp fun _ hms => hms.1

theorem IsStored.finalizers (h : IsStored tidb i doc) (names : List String) :
    IsStored tidb i (doc.merge (finalizersPatch names)) := by
  cases i with
  | cluster k | database k | user k => exact IsResource.finalizers h names

theorem IsStored.touched (h : IsStored tidb i doc) {names : List String}
    (hnames : names.filter (· ≠ i.finalizer) = foreign i (lifeOf doc)) :
    Touched i doc (doc.merge (finalizersPatch names)) := by
  have halong : ChangedAlong [finalizersPath] doc (doc.merge (finalizersPatch names)) := by
    cases i with
    | cluster k | database k | user k => exact changedAlong_finalizers (IsResource.reads h) names
  refine ⟨fun path hp => halong path fun w hw => hp w ?_, ?_⟩
  · obtain rfl := List.mem_singleton.mp hw
    cases i <;> simp [Slot.written]
  · rw [foreign, finalizers_merge h.isObject, hnames]

/-- A patch of the status. -/
theorem kept_status (hi : d.stored i = some doc) (h : StatusObject doc) (phase : String)
    {message : Option String} (hmessage : message = none ∨ messagePath ∈ i.written) :
    Kept d (d.put i (some (doc.merge (statusPatch phase message)))) := by
  have hphase : phasePath ∈ i.written := by cases i <;> simp [Slot.written]
  have hf : ∀ w ∈ [phasePath, messagePath], Beside finalizersPath w := by decide
  refine kept_put hi (by rintro ⟨⟩) fun heq => ?_
  obtain rfl := Option.some.inj heq
  rcases hmessage with rfl | hmessage
  · exact (changedAlong_status h phase none (List.mem_singleton_self _) (.inl rfl)).touched
      (by simpa using hphase) fun w hw => hf w (List.mem_cons.mpr (.inl (List.mem_singleton.mp hw)))
  · have halong : ChangedAlong [phasePath, messagePath] doc
        (doc.merge (statusPatch phase message)) :=
      changedAlong_status h phase message (by simp) (.inr (by simp))
    exact halong.touched (by simp [hphase, hmessage]) hf

/-- A request of a reconciliation. -/
theorem DocumentStore.Valid.kept (hd : d.Valid tidb) (q : ApiRequest) :
    Kept d (d.answer tidb q).2 := by
  have hf : ∀ w ∈ [rootSecretPath], Beside finalizersPath w := by decide
  cases q with
  | replaceRootSecret k r =>
    rw [answer]
    cases hk : d.clusters k with
    | none => exact .refl d
    | some doc =>
      dsimp only
      cases hreplace : Document.replace rootSecretPath r.json doc with
      | none => exact .refl d
      | some doc' =>
        refine kept_put (i := .cluster k) hk (by rintro ⟨⟩) fun heq => ?_
        obtain rfl := Option.some.inj heq
        exact (changedAlong_replace hreplace).touched (by simp [Slot.written]) hf
  | mergeClusterStatus k phase =>
    rw [answer]
    cases hk : d.clusters k with
    | none => exact .refl d
    | some doc =>
      exact kept_status (i := .cluster k) hk (hd.clusters hk).status phase.name (.inl rfl)
  | mergeDatabaseStatus k phase message =>
    rw [answer]
    cases hk : d.databases k with
    | none => exact .refl d
    | some doc =>
      exact kept_status (i := .database k) hk (hd.databases hk).status phase.name
        (.inr (by simp [Slot.written]))
  | mergeUserStatus k phase message =>
    rw [answer]
    cases hk : d.users k with
    | none => exact .refl d
    | some doc =>
      exact kept_status (i := .user k) hk (hd.users hk).status phase.name
        (.inr (by simp [Slot.written]))
  | _ => exact fun i => by cases i <;> exact .refl _ _

theorem DocumentStore.Valid.kept_serves (hd : d.Valid tidb) {q : Call} {r : Reply q}
    (h : DocumentStore.Serves tidb q d r d') : Kept d d' := by
  cases q with
  | draw n => exact (show d' = d from h) ▸ .refl d
  | http q =>
    rcases h with rfl | ⟨-, rfl⟩
    · exact fun i => by cases i <;> exact .refl _ _
    · exact .refl _
  | api q =>
    rcases h with h | ⟨-, -, -, rfl | rfl⟩
    · rw [show d' = (d.answer tidb q).2 from congrArg Prod.snd h]
      exact hd.kept q
    · exact .refl _
    · exact hd.kept q

/-- A patch of the finalizers. -/
theorem DocumentState.kept_patched {f : Life → Option (Option Life)}
    (hw : w.documents.Valid tidb) (hf : ∀ {l v}, f l = some v → l.Spares i.finalizer v)
    (h : w.patched i f = some w') : w'.documents.Valid tidb ∧ Kept w.documents w'.documents := by
  obtain ⟨doc, hi, hmap⟩ := Option.bind_eq_some_iff.mp h
  obtain ⟨v, hv, rfl⟩ := Option.map_eq_some_iff.mp hmap
  have hspares := hf hv
  have hdoc := DocumentStore.valid_iff.mp hw i doc hi
  refine ⟨DocumentStore.valid_iff.mpr fun j doc' hj => ?_, kept_put hi (fun hnone => ?_) ?_⟩
  · rw [DocumentStore.stored_put] at hj
    split at hj
    · next hji =>
      obtain ⟨l, -, rfl⟩ := Option.map_eq_some_iff.mp hj
      exact hji ▸ hdoc.finalizers _
    · exact DocumentStore.valid_iff.mp hw j doc' hj
  · exact hspares.gone (Option.map_eq_none_iff.mp hnone)
  · rintro doc' hdoc'
    obtain ⟨l, hl, rfl⟩ := Option.map_eq_some_iff.mp hdoc'
    exact hdoc.touched (hspares.others hl)

/-- **One call** of a controller. -/
theorem DocumentState.kept_serves {q : DocumentCall} {r : DocumentReply q}
    (hw : w.documents.Valid tidb) (hq : OwnFinalizer q) (h : DocumentState.Serves tidb q w r w') :
    w'.documents.Valid tidb ∧ Kept w.documents w'.documents := by
  obtain ⟨i, q⟩ := q
  cases q with
  | apply q =>
    obtain ⟨d, hd, rfl⟩ := h
    exact ⟨(hw.serves hd).1, hw.kept_serves hd⟩
  | cleanup q =>
    obtain ⟨s, -, rfl⟩ := h
    exact ⟨⟨hw.clusters, hw.databases, hw.users⟩, fun j => by cases j <;> exact .refl _ _⟩
  | add name seen =>
    obtain rfl : name = i.finalizer := hq
    rcases h with h | ⟨rfl, -⟩
    · exact kept_patched hw Life.spares_add h
    · exact ⟨hw, .refl _⟩
  | remove name n =>
    obtain rfl : name = i.finalizer := hq
    rcases h with h | ⟨rfl, -⟩
    · exact kept_patched hw Life.spares_remove h
    · exact ⟨hw, .refl _⟩

end Calls

/-! ### Runs -/

/-- The assertions about a run that starts from given documents. -/
def footprint (tidb : Decoder TidbClusterSpec) (d : DocumentStore) :
    Outline (Resource × Life) DocumentReply
      (Except (FinalizerError Error KubeError) (Option Action)) DocumentState where
  store w _ := w.documents.Valid tidb ∧ Kept d w.documents
  task _ _ _ := True
  guard _ _ := OwnFinalizer

section Runs

variable {libs : Externals} {client : Client} {tidb : Decoder TidbClusterSpec}
  {run : String → Finalizer Reply CleanupReply KubeError Error (Option Action)}
  {d : DocumentStore}

theorem preserves_footprint (hrun : ∀ i : Slot, Documented i.finalizer none (run i.finalizer))
    (hd : d.Valid tidb) : (drivenDocuments libs client tidb run).Preserves (ι := Slot)
      (·.documents = d) (fun _ m => ∀ w, m ≠ .env w) (footprint tidb d) where
  init hs := by
    subst hs
    exact ⟨⟨hd, .refl _⟩, trivial⟩
  env _ hm _ := absurd rfl (hm _)
  start hc _ _ hs := ⟨hc.store, trivial, hs ▸ Resource.driven_meets hrun _⟩
  call hc _ hG _ hs := by
    have hstep := DocumentState.kept_serves hc.store.1 hG hs
    exact ⟨⟨hstep.1, hc.store.2.trans hstep.2⟩, trivial⟩
  frame _ _ _ _ _ _ := ⟨fun _ _ _ _ => trivial, fun _ => trivial⟩
  finish _ _ _ _ := trivial
  crash _ _ _ := trivial

/-- **Where the controllers write.** While nothing else happens to them, the documents change along
the paths of `Slot.written` only, none appears, and none disappears that was not being deleted. -/
theorem documents_kept (hrun : ∀ i : Slot, Documented i.finalizer none (run i.finalizer))
    (hd : d.Valid tidb) {c : DrivenRun}
    (hc : (drivenDocuments libs client tidb run).Reachable (·.documents = d)
      (fun _ m => ∀ w, m ≠ .env w) c) :
    c.store.documents.Valid tidb ∧ Kept d c.store.documents :=
  ((preserves_footprint hrun hd).sound hc).store

end Runs

/-! ### Runs on documents -/

/-- A patch of the finalizers, by an API server that works. -/
def DocumentState.answerPatch (i : Slot) (f : Life → Option (Option Life)) (w : DocumentState) :
    Except KubeError Unit × DocumentState :=
  match w.patched i f with
  | some w' => (.ok (), w')
  | none => (.error (.api 422 "the patch does not apply"), w)

/-- A server that answers every call. -/
def DocumentState.respond (tidb : Decoder TidbClusterSpec) :
    (q : DocumentCall) → DocumentState → DocumentReply q × DocumentState
  | (_, .apply q), w =>
    let a := w.documents.respond tidb q
    (a.1, { w with documents := a.2 })
  | (_, .cleanup q), w =>
    let a := answerCleanup q ⟨w.documents.rest, w.accepted⟩
    (a.1, ⟨{ w.documents with rest := a.2.store }, a.2.accepted⟩)
  | (i, .add name seen), w => w.answerPatch i (Life.add name seen)
  | (i, .remove name n), w => w.answerPatch i (Life.remove name n)

theorem DocumentState.patches_answerPatch (i : Slot) (f : Life → Option (Option Life))
    (w : DocumentState) : Patches i f w (w.answerPatch i f).1 (w.answerPatch i f).2 := by
  rw [answerPatch]
  cases hw : w.patched i f with
  | none => exact .inr ⟨rfl, _, rfl⟩
  | some w' => exact .inl hw

theorem DocumentState.serves_respond (tidb : Decoder TidbClusterSpec) (q : DocumentCall)
    (w : DocumentState) : Serves tidb q w (w.respond tidb q).1 (w.respond tidb q).2 := by
  obtain ⟨i, q⟩ := q
  cases q with
  | apply q => exact ⟨_, DocumentStore.serves_respond tidb q w.documents, rfl⟩
  | cleanup q => exact ⟨_, serves_answerCleanup q _, rfl⟩
  | add name seen => exact patches_answerPatch i _ w
  | remove name n => exact patches_answerPatch i _ w

/-- The finalizer of each controller. -/
def sampleRun (name : String) : Finalizer Reply CleanupReply KubeError Error (Option Action) :=
  finalizer name none

/-- A Database that is being deleted and that its controller holds. -/
def retiredDocument : Document :=
  .obj [("metadata", .obj [("name", .str "shop"), ("namespace", .str "prod"), ("uid", .str "7"),
      ("deletionTimestamp", .str "2025-01-01T00:00:00Z"),
      ("finalizers", .arr [.str "databases.surrealdb.aexol.com"])]),
    ("spec", .obj [("clusterRef", .obj [("name", .str "db")])])]

/-- That Database, and a Cluster with a label. -/
def retiringStore : DocumentStore :=
  { labelledStore with
    databases := Function.update (fun _ => none) ⟨"prod", "shop"⟩ (some retiredDocument) }

def retiredDatabase : Database := ⟨"shop", "prod", { clusterRef := ⟨"db", none⟩ }, none⟩

/-- The invocations that are started, with the versions they start from: the Cluster twice, first
without its finalizer, and the Database. -/
def retiringStarts : List (Resource × Life) :=
  [(.cluster sampleCluster, {}),
    (.cluster sampleCluster, ⟨["clusters.surrealdb.aexol.com"], false⟩),
    (.database retiredDatabase, ⟨["databases.surrealdb.aexol.com"], true⟩)]

/-- One invocation after the other. -/
def invoked (w : DocumentState) : List (Resource × Life) → DocumentState
  | [] => w
  | l :: starts =>
    let p := (tagged l.1.slot).embed
      (l.1.driven sampleExternals .kube (sampleRun l.1.slot.finalizer) l.2)
    invoked (p.eval (DocumentState.respond noTidb) w).2 starts

theorem valid_retiringStore : retiringStore.Valid noTidb where
  clusters := valid_labelledStore.clusters
  databases {k doc} h := by
    rw [retiringStore] at h
    dsimp only at h
    rw [Function.update_apply] at h
    split at h
    · obtain rfl := Option.some.inj h
      exact ⟨⟨_, rfl, fun _ hst => by cases hst⟩, retiredDatabase, rfl⟩
    · cases h
  users h := by cases h

/-- Invocations one after the other are a run. -/
theorem exists_invoked {init : DocumentState → Prop} (starts : List (Resource × Life))
    {c : DrivenRun} (hc : (drivenDocuments sampleExternals .kube noTidb sampleRun).Reachable init
      (fun _ m => ∀ w, m ≠ .env w) c) (hidle : ∀ i, c.running i = none) :
    ∃ c' : DrivenRun, (drivenDocuments sampleExternals .kube noTidb sampleRun).Reachable init
      (fun _ m => ∀ w, m ≠ .env w) c' ∧ c'.store = invoked c.store starts := by
  induction starts generalizing c with
  | nil => exact ⟨c, hc, rfl⟩
  | cons l starts ih =>
    obtain ⟨c', hc', hs, hrun⟩ := hc.play (i := l.1.slot) (l := l)
      (DocumentState.serves_respond noTidb) (fun _ _ hm w heq => by cases hm <;> cases heq)
      (hidle _) rfl
    obtain ⟨c'', hc'', hs'⟩ := ih hc' fun i => by rw [hrun, hidle]
    exact ⟨c'', hc'', by rw [hs', hs, invoked]⟩

/-- The Cluster is reconciled and keeps its label, and the Database goes. -/
theorem documents_kept_retired : ∃ c : DrivenRun,
    (c.store.documents.clusters sampleCluster.key).bind (Document.get phasePath) =
      some (.str "InCreation") ∧
    (c.store.documents.clusters sampleCluster.key).map lifeOf =
      some ⟨["clusters.surrealdb.aexol.com"], false⟩ ∧
    c.store.documents.databases retiredDatabase.key = none ∧
    Kept retiringStore c.store.documents := by
  have h₀ : (drivenDocuments sampleExternals .kube noTidb sampleRun).Reachable
      (·.documents = retiringStore) (fun _ m => ∀ w, m ≠ .env w)
      (⟨⟨retiringStore, []⟩, fun _ => none, []⟩ : DrivenRun) := .init rfl
  obtain ⟨c, hc, hs⟩ := exists_invoked retiringStarts h₀ fun _ => rfl
  refine ⟨c, ?_, ?_, ?_, (documents_kept (fun i => documented_finalizer i.finalizer none)
    valid_retiringStore hc).2⟩
  · rw [hs]
    rfl
  · rw [hs]
    rfl
  · rw [hs]
    rfl

end SdbController
