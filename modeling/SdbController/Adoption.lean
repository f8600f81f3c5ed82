import SdbController.Cluster.Reconcile
import SdbController.Kubernetes.Create
import SdbController.User.Reconcile

/-!
# Whose object it is

Four helpers create an object and count the answer *already exists* as success: the root Secret and
the TidbCluster of a Cluster, the Secret and the ConfigMap of a User. None of them looks at the
object that is there. The deletion helper does: it leaves alone what the Cluster does not own.

`Creates.leaves` is the whole of what a helper's `Ok` says: there is an object, the one that was
there or else the new one.

## Main results

* `Creates.leaves` — what create-or-exists leaves behind when it returns `Ok`
* `adopts_iff` — for each helper, `Ok` means an object of its own if and only if no foreign object
  was there to begin with
-/

namespace SdbController

open Interaction Program Reconciler

/-! ### Create or exists -/

namespace Creates

variable {srv : Server} {q : ApiRequest} {α : Type} {get : Store → Option α} {a : α} {s s' : Store}

/-- **What `Ok` says of create-or-exists**: the name was free and the new object is there, or it was
taken and nothing has changed. -/
theorem leaves (hq : Creates srv q get a)
    (h : Completes (Serves srv) (createIfAbsent q).run s (.ok ()) s') :
    (get s = none ∧ get s' = some a) ∨ ((get s).isSome ∧ s' = s) := by
  rcases (completes_createIfAbsent q).mp h with ⟨o, ho, -⟩ | ⟨e, he, hx⟩
  · refine hq.served ho fun e he => ?_
    cases he
  · refine hq.served he fun e' he' => ?_
    obtain rfl := Except.error.inj he'
    by_contra hcode
    rw [if_neg hcode] at hx
    cases hx

/-- Where the name is taken, create-or-exists can return `Ok` and change nothing. -/
theorem completes_taken (hq : Creates srv q get a) (h : (get s).isSome) :
    Completes (Serves srv) (createIfAbsent q).run s (.ok ()) s := by
  obtain ⟨b, hb⟩ := Option.isSome_iff_exists.mp h
  obtain ⟨text, htaken⟩ := hq.taken hb
  exact (completes_createIfAbsent q).mpr (.inr ⟨_, .inl htaken.symm, rfl⟩)

end Creates

/-! ### What `Ok` leaves behind -/

section OkLeaves

variable {β : Type} {srv : Server} {s : Store} {P : Store → Prop}

/-- Whenever `m` returns `Ok`, it leaves `P` behind. -/
def OkLeaves (srv : Server) (m : Reconciler β) (s : Store) (P : Store → Prop) : Prop :=
  ∀ b s', Completes (Serves srv) m.run s (.ok b) s' → P s'

/-- `m` can return `Ok`. -/
def CanReturn (srv : Server) (m : Reconciler β) (s : Store) : Prop :=
  ∃ b s', Completes (Serves srv) m.run s (.ok b) s'

theorem completes_ok_bind {γ : Type} (m : Reconciler β) (f : β → Reconciler γ) {x : γ}
    {s' : Store} : Completes (Serves srv) (m >>= f).run s (.ok x) s' ↔
      ∃ b t, Completes (Serves srv) m.run s (.ok b) t ∧
        Completes (Serves srv) (f b).run t (.ok x) s' := by
  rw [completes_except_bind]
  constructor
  · rintro ⟨y, t, hm, hrest⟩
    cases y with
    | ok b => exact ⟨b, t, hm, hrest⟩
    | error e => cases hrest.1
  · rintro ⟨b, t, hm, hrest⟩
    exact ⟨.ok b, t, hm, hrest⟩

theorem completes_ok_then (m : Reconciler Unit) (rest : Reconciler β) (x : β) (s' : Store) :
    Completes (Serves srv) (m >>= fun _ => rest).run s (.ok x) s' ↔
      ∃ t, Completes (Serves srv) m.run s (.ok ()) t ∧
        Completes (Serves srv) rest.run t (.ok x) s' := by
  rw [completes_ok_bind]
  exact ⟨fun ⟨_, t, h⟩ => ⟨t, h⟩, fun ⟨t, h⟩ => ⟨(), t, h⟩⟩

theorem completes_ok_call (q : ApiRequest) {o : q.Object} {s' : Store} :
    Completes (Serves srv) (Reconciler.call q).run s (.ok o) s' ↔ answer srv q s = (.ok o, s') := by
  rw [completes_call_api]
  constructor
  · rintro ⟨r, hr, hx⟩
    cases r with
    | ok o' =>
      obtain rfl := Except.ok.inj hx
      exact Serves.answered hr
    | error e => cases hx
  · exact fun h => ⟨.ok o, .inl h.symm, rfl⟩

theorem okLeaves_draw_bind (n : ℕ) (f : Draws n → Reconciler β) :
    OkLeaves srv (draw n >>= f) s P ↔ ∀ d, OkLeaves srv (f d) s P := by
  constructor
  · intro h d b s' hrun
    exact h b s' ((completes_ok_bind ..).mpr ⟨d, s, (completes_draw n).mpr ⟨d, rfl, rfl⟩, hrun⟩)
  · intro h b s' hrun
    obtain ⟨d, t, hdraw, hrest⟩ := (completes_ok_bind ..).mp hrun
    obtain ⟨d', rfl, hd⟩ := (completes_draw n).mp hdraw
    obtain rfl := Except.ok.inj hd
    exact h d b s' hrest

/-- The rule for a helper: create-or-exists, and then a rest that leaves the object alone. -/
theorem Creates.okLeaves_iff {q : ApiRequest} {α : Type} {get : Store → Option α} {a : α}
    (hq : Creates srv q get a) (own : α → Prop) (ha : own a) {m rest : Reconciler β}
    (hm : ∀ b s', Completes (Serves srv) m.run s (.ok b) s' ↔
      ∃ t, Completes (Serves srv) (createIfAbsent q).run s (.ok ()) t ∧
        Completes (Serves srv) rest.run t (.ok b) s')
    (hrest : ∀ b t t', Completes (Serves srv) rest.run t (.ok b) t' → get t' = get t) :
    OkLeaves srv m s (fun s' => ∃ b, get s' = some b ∧ own b) ↔
      (∀ b, get s = some b → own b) ∨ ¬ CanReturn srv rest s := by
  constructor
  · intro h
    refine or_iff_not_imp_right.mpr fun hcan b hb => ?_
    obtain ⟨x, s', hrun⟩ := not_not.mp hcan
    have hisSome : (get s).isSome := by rw [hb]; rfl
    obtain ⟨b', hb', hown⟩ := h x s' ((hm x s').mpr ⟨s, hq.completes_taken hisSome, hrun⟩)
    obtain rfl : b' = b := Option.some.inj ((hb'.symm.trans (hrest x s s' hrun)).trans hb)
    exact hown
  · intro h x s' hrun
    obtain ⟨t, hcreate, hrun'⟩ := (hm x s').mp hrun
    have hget := hrest x t s' hrun'
    rcases hq.leaves hcreate with ⟨-, ht⟩ | ⟨hsome, rfl⟩
    · exact ⟨a, hget.trans ht, ha⟩
    · obtain ⟨b, hb⟩ := Option.isSome_iff_exists.mp hsome
      rcases h with h | h
      · exact ⟨b, hget.trans hb, h b hb⟩
      · exact absurd ⟨x, s', hrun'⟩ h

theorem okLeaves_then_pure (m : Reconciler Unit) (b : β) :
    OkLeaves srv (m >>= fun _ => pure b) s P ↔ OkLeaves srv m s P := by
  constructor
  · exact fun h _ s' hm => h b s' ((completes_ok_then ..).mpr ⟨s', hm, rfl, rfl⟩)
  · intro h x s' hrun
    obtain ⟨t, hm, -, rfl⟩ := (completes_ok_then ..).mp hrun
    exact h () s' hm

/-- The rule for a helper that does nothing else. -/
theorem Creates.okLeaves_createIfAbsent_iff {q : ApiRequest} {α : Type} {get : Store → Option α}
    {a : α} (hq : Creates srv q get a) (own : α → Prop) (ha : own a) :
    OkLeaves srv (createIfAbsent q) s (fun s' => ∃ b, get s' = some b ∧ own b) ↔
      ∀ b, get s = some b → own b := by
  have hreturn : CanReturn srv (pure () : Reconciler Unit) s := ⟨(), s, rfl, rfl⟩
  have hkeeps : ∀ (b : Unit) (t t' : Store),
      Completes (Serves srv) (pure () : Reconciler Unit).run t (.ok b) t' → get t' = get t :=
    fun _ _ _ h => congrArg get h.2
  rw [← okLeaves_then_pure (createIfAbsent q) (),
    hq.okLeaves_iff own ha (completes_ok_then _ _) hkeeps]
  exact or_iff_left (not_not.mpr hreturn)

end OkLeaves

/-! ### Own objects -/

/-- The object refers to `r`'s resource as an owner. -/
def ObjectMeta.OwnedBy (m : ObjectMeta) (r : OwnerReference) : Prop :=
  ∃ o ∈ m.ownerReferences, o.kind = r.kind ∧ o.name = r.name ∧ o.uid = r.uid

theorem ownedBy_singleton (name ns : String) (labels : Labels) (r : OwnerReference) :
    ObjectMeta.OwnedBy ⟨name, ns, labels, [r]⟩ r := ⟨r, List.mem_singleton_self r, rfl, rfl, rfl⟩

/-- A Secret of `r`'s resource with the entries it is there for. -/
structure Secret.IsOwn (r : OwnerReference) (entries : List String) (x : Secret) : Prop where
  owned : x.metadata.OwnedBy r
  present : ∀ e ∈ entries, (x.data.lookup e).isSome

/-- A ConfigMap of `r`'s resource with the entries it is there for. -/
structure ConfigMap.IsOwn (r : OwnerReference) (entries : List String) (x : ConfigMap) : Prop where
  owned : x.metadata.OwnedBy r
  present : ∀ e ∈ entries, (x.data.lookup e).isSome

/-! ### The helpers -/

section Helpers

variable {srv : Server} {s : Store}

namespace Cluster

variable (c : Cluster)

/-- The patch with the reference is accepted. -/
def Patchable (srv : Server) (s : Store) : Prop :=
  ∃ y, s.clusters c.key = some y ∧ (y.spec.rootSecret.isSome ∨ srv.replaceMissing)

/-- What `ensure_root_secret` does once the Secret is there. -/
def recordRootSecret : Reconciler SecretReference := do
  c.persistRootSecretRef c.rootSecretName
  pure ⟨some c.rootSecretName, some c.ns⟩

variable {c}

theorem persistRootSecretRef_eq (hroot : c.spec.rootSecret = none) (name : String) :
    c.persistRootSecretRef name =
      Reconciler.call (.replaceRootSecret c.key ⟨some name, some c.ns⟩) := by
  rw [persistRootSecretRef, hroot]
  rfl

theorem answer_replaceRootSecret (c : Cluster) (r : SecretReference) (srv : Server) (s : Store) :
    (∃ s', answer srv (.replaceRootSecret c.key r) s = (.ok (), s')) ↔ c.Patchable srv s := by
  rw [answer, Patchable]
  cases s.clusters c.key with
  | none => simp
  | some y =>
    cases hroot : y.spec.rootSecret <;> cases hmissing : srv.replaceMissing <;> simp [hroot]

theorem canReturn_recordRootSecret (hroot : c.spec.rootSecret = none) :
    CanReturn srv c.recordRootSecret s ↔ c.Patchable srv s := by
  rw [recordRootSecret, persistRootSecretRef_eq hroot]
  constructor
  · rintro ⟨b, s', h⟩
    obtain ⟨o, t, hcall, -⟩ := (completes_ok_bind ..).mp h
    exact (answer_replaceRootSecret ..).mp ⟨t, (completes_ok_call _).mp hcall⟩
  · intro h
    obtain ⟨t, ht⟩ := (answer_replaceRootSecret ..).mpr h
    exact ⟨_, t, (completes_ok_bind ..).mpr ⟨(), t, (completes_ok_call _).mpr ht, rfl, rfl⟩⟩

theorem secrets_recordRootSecret (hroot : c.spec.rootSecret = none) {r : SecretReference}
    {s s' : Store} (h : Completes (Serves srv) c.recordRootSecret.run s (.ok r) s') :
    s'.secrets = s.secrets := by
  rw [recordRootSecret, persistRootSecretRef_eq hroot] at h
  obtain ⟨o, t, hcall, -, rfl⟩ := (completes_ok_bind ..).mp h
  have hans := (completes_ok_call _).mp hcall
  obtain rfl : s' = effect srv (.api _) s := (congrArg Prod.snd hans).symm
  funext k
  rcases secrets_effect srv _ s k with hk | ⟨x, hq, -⟩
  · exact hk
  · cases hq

theorem rootSecret_isOwn (password : String) :
    (c.rootSecret password).stored.IsOwn c.ownerRef ["user", "password"] := by
  refine ⟨ownedBy_singleton .., ?_⟩
  simp [rootSecret, Secret.stored, List.lookup_cons]

/-- When `Ok` means a root Secret of one's own. -/
theorem okLeaves_ensureRootSecret (hroot : c.spec.rootSecret = none) :
    OkLeaves srv c.ensureRootSecret s (fun s' => ∃ x,
        s'.secrets ⟨c.ns, c.rootSecretName⟩ = some x ∧ x.IsOwn c.ownerRef ["user", "password"]) ↔
      (∀ x, s.secrets ⟨c.ns, c.rootSecretName⟩ = some x →
        x.IsOwn c.ownerRef ["user", "password"]) ∨ ¬ c.Patchable srv s := by
  have hrun : c.ensureRootSecret = draw (secureSamples 32) >>= fun d =>
      createIfAbsent (.createSecret (c.rootSecret d.password)) >>= fun _ => c.recordRootSecret := by
    rw [ensureRootSecret, hroot]
    rfl
  rw [hrun, okLeaves_draw_bind, ← canReturn_recordRootSecret hroot]
  have key (d : Draws (secureSamples 32)) :=
    (creates_secret srv (c.rootSecret d.password)).okLeaves_iff (s := s)
      (Secret.IsOwn c.ownerRef ["user", "password"]) (rootSecret_isOwn _) (completes_ok_then _ _)
      fun b t t' h => congrFun (secrets_recordRootSecret hroot h) _
  exact ⟨fun h => (key default).mp (h default), fun h d => (key d).mpr h⟩

/-- When `Ok` means a TidbCluster of one's own. -/
theorem okLeaves_reconcileTidbCluster {spec : TidbClusterSpec}
    (hspec : c.spec.tidbCluster = some spec) (name : String) :
    OkLeaves srv (c.reconcileTidbCluster name) s (fun s' => ∃ x,
        s'.tidbClusters ⟨c.ns, name⟩ = some x ∧ x.metadata.OwnedBy c.ownerRef) ↔
      ∀ x, s.tidbClusters ⟨c.ns, name⟩ = some x → x.metadata.OwnedBy c.ownerRef := by
  rw [reconcileTidbCluster, hspec]
  exact (creates_tidbCluster srv (c.tidbClusterObject name spec)).okLeaves_createIfAbsent_iff
    (fun x => x.metadata.OwnedBy c.ownerRef) (ownedBy_singleton ..)

end Cluster

namespace User

variable (u : User)

/-- When `Ok` means a Secret of one's own. -/
theorem okLeaves_ensureSecret (password : String) :
    OkLeaves srv (u.ensureSecret password) s (fun s' => ∃ x,
        s'.secrets ⟨u.ns, u.secretName⟩ = some x ∧ x.IsOwn u.ownerRef ["password"]) ↔
      ∀ x, s.secrets ⟨u.ns, u.secretName⟩ = some x → x.IsOwn u.ownerRef ["password"] := by
  refine (okLeaves_then_pure _ u.secretName).trans ?_
  refine (creates_secret srv (u.secret password)).okLeaves_createIfAbsent_iff
    (Secret.IsOwn u.ownerRef ["password"]) ⟨ownedBy_singleton .., ?_⟩
  simp [secret, Secret.stored, List.lookup_cons]

/-- When `Ok` means a ConfigMap of one's own. -/
theorem okLeaves_ensureConfigmap (username clusterNs clusterName : String) :
    OkLeaves srv (u.ensureConfigmap username clusterNs clusterName) s (fun s' => ∃ x,
        s'.configMaps ⟨u.ns, u.name ++ "-config"⟩ = some x ∧
          x.IsOwn u.ownerRef ["username", "url"]) ↔
      ∀ x, s.configMaps ⟨u.ns, u.name ++ "-config"⟩ = some x →
        x.IsOwn u.ownerRef ["username", "url"] := by
  refine (okLeaves_then_pure _ (u.name ++ "-config")).trans ?_
  have hcreates := creates_configMap srv (u.configMap username clusterNs clusterName)
  refine hcreates.okLeaves_createIfAbsent_iff (ConfigMap.IsOwn u.ownerRef ["username", "url"])
    ⟨ownedBy_singleton .., ?_⟩
  simp [configMap, List.lookup_cons]

end User

end Helpers

/-! ### The four of them -/

/-- A call of a helper that creates something. -/
inductive Helper
  | ensureRootSecret (c : Cluster) (h : c.spec.rootSecret = none)
  | ensureSecret (u : User) (password : String)
  | ensureConfigmap (u : User) (username clusterNs clusterName : String)
  | reconcileTidbCluster (c : Cluster) (name : String) (h : c.spec.tidbCluster.isSome)

namespace Helper

/-- What the helper returns. -/
def Result : Helper → Type
  | ensureRootSecret .. => SecretReference
  | ensureSecret .. | ensureConfigmap .. => String
  | reconcileTidbCluster .. => Unit

def run : (h : Helper) → Reconciler h.Result
  | ensureRootSecret c _ => c.ensureRootSecret
  | ensureSecret u password => u.ensureSecret password
  | ensureConfigmap u username clusterNs clusterName =>
    u.ensureConfigmap username clusterNs clusterName
  | reconcileTidbCluster c name _ => c.reconcileTidbCluster name

/-- The kind of object that the helper is about. -/
def Object : Helper → Type
  | ensureRootSecret .. | ensureSecret .. => Secret
  | ensureConfigmap .. => ConfigMap
  | reconcileTidbCluster .. => TidbCluster

/-- The object of the intended kind and name. -/
def stored : (h : Helper) → Store → Option h.Object
  | ensureRootSecret c _, s => s.secrets ⟨c.ns, c.rootSecretName⟩
  | ensureSecret u _, s => s.secrets ⟨u.ns, u.secretName⟩
  | ensureConfigmap u .., s => s.configMaps ⟨u.ns, u.name ++ "-config"⟩
  | reconcileTidbCluster c name _, s => s.tidbClusters ⟨c.ns, name⟩

/-- The object is that of the resource and carries what it is there for. A TidbCluster always has
a spec. -/
def IsOwn : (h : Helper) → h.Object → Prop
  | ensureRootSecret c _, x => Secret.IsOwn c.ownerRef ["user", "password"] x
  | ensureSecret u _, x => Secret.IsOwn u.ownerRef ["password"] x
  | ensureConfigmap u .., x => ConfigMap.IsOwn u.ownerRef ["username", "url"] x
  | reconcileTidbCluster c .., x => (TidbCluster.metadata x).OwnedBy c.ownerRef

/-- Once the object is there, nothing stands in the way of `Ok`. Only `ensure_root_secret` has
something left to do, the patch. -/
def Unhindered (srv : Server) (s : Store) : Helper → Prop
  | ensureRootSecret c _ => c.Patchable srv s
  | _ => True

/-- **When *already exists* is a success only for one's own object**: there was no foreign object
to begin with, or the helper cannot return `Ok` anyway. -/
theorem adopts_iff (h : Helper) (srv : Server) (s : Store) :
    OkLeaves srv h.run s (fun s' => ∃ x, h.stored s' = some x ∧ h.IsOwn x) ↔
      (∀ x, h.stored s = some x → h.IsOwn x) ∨ ¬ h.Unhindered srv s := by
  cases h with
  | ensureRootSecret c hroot => exact Cluster.okLeaves_ensureRootSecret hroot
  | ensureSecret u password =>
    exact (u.okLeaves_ensureSecret password).trans (or_iff_left (not_not.mpr trivial)).symm
  | ensureConfigmap u username clusterNs clusterName =>
    exact (u.okLeaves_ensureConfigmap username clusterNs clusterName).trans
      (or_iff_left (not_not.mpr trivial)).symm
  | reconcileTidbCluster c name hspec =>
    obtain ⟨spec, hspec⟩ := Option.isSome_iff_exists.mp hspec
    exact (Cluster.okLeaves_reconcileTidbCluster hspec name).trans
      (or_iff_left (not_not.mpr trivial)).symm

end Helper

/-! ### Two Users with one Secret name -/

def sharingUser (name uid : String) : User :=
  { name := name, ns := "prod", uid := uid
    spec := { clusterRef := ⟨"db", none⟩, databaseRef := ⟨"app", none⟩, secretName := "shared" } }

/-- A store with the Secret of the first one. -/
def sharedStore : Store where
  secrets k := if k = ⟨"prod", "shared"⟩ then some ((sharingUser "alice" "1").secret "first").stored
    else none

/-- `ensure_secret` of the second one is content with it. -/
theorem foreign_secret_adopted :
    ¬ OkLeaves ⟨false⟩ (Helper.ensureSecret (sharingUser "bob" "2") "second").run sharedStore
      fun s' => ∃ x, (Helper.ensureSecret (sharingUser "bob" "2") "second").stored s' = some x ∧
        (Helper.ensureSecret (sharingUser "bob" "2") "second").IsOwn x := by
  intro h
  obtain ⟨o, ho, hkind, hname, huid⟩ :=
    (((sharingUser "bob" "2").okLeaves_ensureSecret "second").mp h _ rfl).owned
  obtain rfl := List.mem_singleton.mp ho
  exact absurd huid (by decide)

end SdbController
