import SdbController.Cluster.Removal
import SdbController.Fleet
import SdbController.Interaction.Custody

/-!
# Finalizers

Each controller reconciles through `finalizer`: what it applies, it applies while its finalizer is
on the resource, and a resource with the finalizer cannot go before `cleanup` has returned `Ok`.
`Managed` instantiates to the three controllers, with what each of them applies and cleans up.

A Cluster that is no longer held leaves nothing behind in its name: of the four objects a Cluster
is given there is none, none that names it among its owners, or one whose deletion is under way.
That takes other clients that do not make objects in the name of the Cluster. What a Database or a
User has had defined stays defined, as their cleanups do nothing.

## Main results

* `reconciles_in_custody` — the three controllers act on a resource only while they hold it, as long
  as other clients leave their finalizers alone
* `no_orphans` — a Cluster that is no longer held leaves nothing behind
* `deleted_cluster_goes` — and it can always be let go
-/

namespace SdbController

open Interaction Program

/-! ### The cleanups -/

/-- `Database::cleanup`. No database is dropped. -/
def Database.cleanup (_ : Database) : Cleaner (Option Action) := pure none

/-- `User::cleanup`. -/
def User.cleanup (_ : User) : Cleaner (Option Action) := pure none

/-- The name of the finalizer. -/
def Slot.finalizer : Slot → String
  | .cluster _ => "clusters.surrealdb.aexol.com"
  | .database _ => "databases.surrealdb.aexol.com"
  | .user _ => "users.surrealdb.aexol.com"

namespace Resource

/-- What is run for `Finalizer::Apply`. -/
def reconcile (libs : Externals) (client : Client) : Resource → Reconciler Action
  | .cluster c => c.reconcile
  | .database d => d.reconcile libs client
  | .user u => u.reconcile libs client

/-- What is run for `Finalizer::Cleanup`. -/
def cleanup : Resource → Cleaner (Option Action)
  | .cluster c => c.cleanup
  | .database d => d.cleanup
  | .user u => u.cleanup

end Resource

/-! ### The world -/

/-- What the API server holds, and which objects have a deletion timestamp. -/
structure World where
  api : ApiState
  terminating : Kind → ObjectKey → Prop

namespace World

def metadata (w : World) (kind : Kind) (k : ObjectKey) : Option ObjectMeta :=
  w.api.store.metadata k kind

/-- A call of a reconciliation. It takes no object away and creates none that is being deleted. -/
structure Serves (srv : Server) (q : Call) (w : World) (r : Reply q) (w' : World) : Prop where
  served : SdbController.Serves srv q w.api.store r w'.api.store
  accepted : w'.api.accepted = w.api.accepted
  terminating : ∀ kind k, w'.terminating kind k ↔ w.terminating kind k ∧ (w.metadata kind k).isSome

/-- A call of a cleanup. An object whose DELETE is accepted and that stays is being deleted, and an
object that is being deleted is so until it is gone. -/
structure Cleans (q : CleanupCall) (w : World) (r : CleanupReply q) (w' : World) : Prop where
  served : CleanupServes q w.api r w'.api
  stays : ∀ {kind k}, w.terminating kind k → w'.terminating kind k ∨ w'.metadata kind k = none
  marks : ∀ {kind k policy}, q = .delete kind k policy → w'.api.accepted ≠ w.api.accepted →
    w'.terminating kind k ∨ w'.metadata kind k = none
  only : ∀ {kind k}, w'.terminating kind k → w.terminating kind k ∨ ∃ policy,
    q = .delete kind k policy

end World

/-- What `finalizer` runs for a version of a resource. -/
def Resource.driven (libs : Externals) (client : Client)
    (run : Finalizer Reply CleanupReply KubeError Error (Option Action)) (l : Resource)
    (seen : Life) : Program (LifeReply Reply CleanupReply KubeError)
      (Except (FinalizerError Error KubeError) (Option Action)) :=
  run seen (do let a ← l.reconcile libs client; pure (some a) : Reconciler (Option Action)).run
    l.cleanup.run

/-- The controller of the resource in a slot. -/
def managed (libs : Externals) (client : Client) (srv : Server) (i : Slot)
    (env : World → World → Prop) :
    Managed Reply CleanupReply Resource World Error (Option Action) where
  name := i.finalizer
  object l := l.slot = i
  apply l := (do let a ← l.reconcile libs client; pure (some a) : Reconciler (Option Action)).run
  cleanup l := l.cleanup.run
  serveApply := World.Serves srv
  serveCleanup := World.Cleans
  env := env

section Custody

variable {libs : Externals} {client : Client} {srv : Server} {env : World → World → Prop}
  {l : Resource}

/-- What is applied conducts itself as its kind does. -/
theorem Resource.reconcile_meets (libs : Externals) (client : Client) (l : Resource) :
    (do let a ← l.reconcile libs client; pure (some a) : Reconciler (Option Action)).run.Meets
      (l.Conduct libs client) (fun _ _ => True) [] := by
  rw [meets_except_bind]
  cases l with
  | cluster c => exact c.reconcile_meets.mono (fun _ _ => id) fun _ r _ => by cases r <;> trivial
  | database d =>
    exact (d.reconcile_meets libs client).mono (fun _ _ hq => hq.2) fun _ r _ => by
      cases r <;> trivial
  | user u =>
    exact (u.reconcile_meets libs client).mono (fun _ _ hq => hq.2) fun _ r _ => by
      cases r <;> trivial

/-- What a cleanup may do. That of a Database or a User makes no call. -/
def Resource.CleanupConduct : Resource → History CleanupReply → CleanupCall → Prop
  | .cluster c => c.CleanupConduct
  | .database _ => fun _ _ => False
  | .user _ => fun _ _ => False

/-- When a cleanup returns, and what. -/
def Resource.CleanupEnds : Resource → History CleanupReply → Except Error (Option Action) → Prop
  | .cluster c => c.CleanupEnds
  | .database _ => fun _ r => r = .ok none
  | .user _ => fun _ r => r = .ok none

theorem Resource.cleanup_meets (l : Resource) :
    l.cleanup.run.Meets l.CleanupConduct l.CleanupEnds [] := by
  cases l with
  | cluster c => exact c.cleanup_meets
  | database d => exact rfl
  | user u => exact rfl

/-- Cleanups of which nothing is known. -/
def acting (libs : Externals) (client : Client) :
    Managed.Clearing Reply CleanupReply Resource World Error (Option Action) where
  applies l := l.Conduct libs client
  guard l := l.CleanupConduct
  result l := l.CleanupEnds
  knows _ _ _ := True
  clear _ := True

theorem clears_acting (i : Slot) :
    (managed libs client srv i env).Clears (acting libs client) where
  applies {l} _ := l.reconcile_meets libs client
  meets {l} _ := l.cleanup_meets
  begin _ := trivial
  env _ := ⟨id, fun _ => id⟩
  call _ _ _ _ := ⟨id, trivial⟩
  done _ _ _ := trivial

/-- A configuration, with the one slot of a resource. -/
abbrev HeldRun : Type :=
  Config Unit (Resource × Life) (LifeReply Reply CleanupReply KubeError)
    (Except (FinalizerError Error KubeError) (Option Action)) (Tracked World)

/-- **Each controller acts on a resource only while it holds it.** This takes one process, and other
clients that neither add nor remove its finalizer and create no resource that has it. Whatever else
they do to the resource and however late the watch is, a call of a reconciliation is made while the
resource is there with the finalizer, and a call of a cleanup while it is not there, not held, or
being deleted. -/
theorem reconciles_in_custody (i : Slot) {run : Finalizer Reply CleanupReply KubeError Error
      (Option Action)} (hrun : Documented i.finalizer none run) {c : HeldRun}
    (hc : ((managed libs client srv i env).system run).Reachable
      ((managed libs client srv i env).Vacant (acting libs client)) System.anyMove c) :
    (∀ l h q k, c.running () = some ⟨l, h, .call (.apply q) k⟩ →
      Held i.finalizer c.store.stored ∧ l.1.Conduct libs client (ownApply h) q) ∧
    ∀ l h q k, c.running () = some ⟨l, h, .call (.cleanup q) k⟩ →
      ¬ Live i.finalizer c.store.stored ∧ l.1.CleanupConduct (ownCleanup h) q := by
  obtain ⟨-, happly, hcleanup⟩ := Managed.custody (clears_acting i) hrun hc
  exact ⟨fun l h q k hi => (happly l h q k hi).2, fun l h q k hi => (hcleanup l h q k hi).2⟩

end Custody

/-! ### What a Cluster leaves behind -/

/-- The object names the Cluster at `k` among its owners. -/
def ObjectMeta.BelongsTo (m : ObjectMeta) (k : ObjectKey) : Prop :=
  ∃ o ∈ m.ownerReferences, o.kind = Cluster.kind ∧ o.name = k.name ∧
    o.apiVersion = Cluster.apiVersion

namespace Cluster

variable {c c' : Cluster} {kind : Kind} {w w' : World} {h : History CleanupReply}

/-- Of a kind there is no object in the name of the Cluster, or only one that is being deleted. -/
def Cleared (c : Cluster) (kind : Kind) (w : World) : Prop :=
  ∀ m, w.metadata kind (c.cleanupKey kind) = some m → m.BelongsTo c.key →
    w.terminating kind (c.cleanupKey kind)

/-- What others may do: anything but to make an object in the name of the Cluster. -/
def LeavesCleared (c : Cluster) (w w' : World) : Prop :=
  ∀ kind, c.Cleared kind w → c.Cleared kind w'

theorem cleared_of_absent (hm : w.metadata kind (c.cleanupKey kind) = none) :
    c.Cleared kind w := by
  intro m hm'
  rw [hm] at hm'
  cases hm'

theorem owns_of_belongsTo {m : ObjectMeta} (hm : m.BelongsTo c.key) : c.owns m := by
  obtain ⟨o, ho, hkind, hname, hversion⟩ := hm
  refine List.any_eq_true.mpr ⟨o, ho, ?_⟩
  rw [hkind, hname, hversion, key]
  simp

theorem cleanupKey_congr (hk : c'.key = c.key) (kind : Kind) :
    c'.cleanupKey kind = c.cleanupKey kind := by
  rw [key, key, ObjectKey.mk.injEq] at hk
  cases kind <;> rw [cleanupKey, cleanupKey, hk.1, hk.2]

theorem cleared_congr (hk : c'.key = c.key) : c'.Cleared kind w ↔ c.Cleared kind w := by
  rw [Cleared, Cleared, cleanupKey_congr hk, hk]

/-- A call of a cleanup leaves what is cleared cleared. -/
theorem Cleared.cleans {q : CleanupCall} {r : CleanupReply q} (hw : c.Cleared kind w)
    (hserve : World.Cleans q w r w') : c.Cleared kind w' := by
  intro m hm hbelongs
  rcases metadata_of_serves hserve.served (c.cleanupKey kind) kind with hsame | hnone
  · have hm' : w.metadata kind (c.cleanupKey kind) = some m := hsame.symm.trans hm
    refine (hserve.stays (hw m hm' hbelongs)).resolve_right fun hnone => ?_
    rw [hm] at hnone
    cases hnone
  · rw [World.metadata, hnone] at hm
    cases hm

/-- What a reply deals with is cleared. -/
theorem cleared_of_deals {q : CleanupCall} {r : CleanupReply q} (hq : c.CleanupConduct h q)
    (hserve : World.Cleans q w r w') (hdeals : c.Deals kind ⟨q, r⟩) : c.Cleared kind w' := by
  cases q with
  | get kind' k =>
    obtain rfl : k = c.cleanupKey kind' := hq
    obtain ⟨rfl, hr⟩ := hdeals
    obtain ⟨hapi, hlook⟩ := hserve.served
    rcases hlook with ⟨m, hm, rfl⟩ | ⟨hnone, text, rfl⟩ | ⟨e, he, rfl⟩
    · rcases hr with ⟨e, heq, -⟩ | ⟨m', heq, howns⟩
      · cases heq
      · obtain rfl := Except.ok.inj heq
        intro m' hm' hbelongs
        rw [World.metadata, hapi, hm] at hm'
        obtain rfl := Option.some.inj hm'
        rw [owns_of_belongsTo hbelongs] at howns
        cases howns
    · refine cleared_of_absent ?_
      rw [World.metadata, hapi]
      exact hnone
    · rcases hr with ⟨e', heq, he'⟩ | ⟨m', heq, -⟩
      · obtain rfl := Except.error.inj heq
        rw [he] at he'
        cases he'
      · cases heq
  | delete kind' k policy =>
    obtain ⟨rfl, -, -⟩ := hq
    obtain ⟨rfl, hr⟩ := hdeals
    rcases hserve.served with ⟨-, hdel⟩ | ⟨hnone, -, hapi⟩ | ⟨e, he, rfl, -⟩
    · have hne : w'.api.accepted ≠ w.api.accepted := by
        obtain ⟨m, -, haccepted, -⟩ := hdel
        rw [haccepted]
        exact List.cons_ne_self _ _
      rcases hserve.marks rfl hne with hterm | hnone
      · exact fun _ _ _ => hterm
      · exact cleared_of_absent hnone
    · refine cleared_of_absent ?_
      rw [World.metadata, hapi]
      exact hnone
    · rcases hr with heq | ⟨e', heq, he'⟩
      · cases heq
      · obtain rfl := Except.error.inj heq
        rw [he] at he'
        cases he'
  | publish event => exact hdeals.elim

end Cluster

/-- What a cleanup of the Cluster is good for. -/
def clearing (libs : Externals) (client : Client) (c : Cluster) :
    Managed.Clearing Reply CleanupReply Resource World Error (Option Action) where
  applies l := l.Conduct libs client
  guard l := l.CleanupConduct
  result l := l.CleanupEnds
  knows l h w := ∀ x kind, l = .cluster x → x.DealtWith h kind → c.Cleared kind w
  clear w := ∀ kind, c.Cleared kind w

/-- What the slot of a Cluster works on. -/
theorem Resource.eq_cluster {l : Resource} {k : ObjectKey} (hl : l.slot = .cluster k) :
    ∃ x, l = .cluster x ∧ x.key = k := by
  cases l with
  | cluster x => exact ⟨x, rfl, Slot.cluster.inj hl⟩
  | database d => cases hl
  | user u => cases hl

section Orphans

variable {libs : Externals} {client : Client} {srv : Server}

theorem clears_clearing (c : Cluster) : (managed libs client srv (.cluster c.key)
    c.LeavesCleared).Clears (clearing libs client c) where
  applies {l} _ := l.reconcile_meets libs client
  meets {l} _ := l.cleanup_meets
  begin _ := by
    rintro x kind - ⟨y, hy, -⟩
    exact absurd hy List.not_mem_nil
  env hw := ⟨fun hclear kind => hw kind (hclear kind),
    fun _ hknows x kind hx hdealt => hw kind (hknows x kind hx hdealt)⟩
  call {l h q r w w'} hl hknows hq hserve := by
    refine ⟨fun hclear kind => (hclear kind).cleans hserve, fun x kind hx hdealt => ?_⟩
    subst hx
    obtain ⟨y, hy, hdeals⟩ := hdealt
    rcases List.mem_cons.mp hy with rfl | hy
    · exact (Cluster.cleared_congr (Slot.cluster.inj hl)).mp
        (Cluster.cleared_of_deals hq hserve hdeals)
    · exact (hknows x kind rfl ⟨y, hy, hdeals⟩).cleans hserve
  done hl hends hknows kind := by
    obtain ⟨x, rfl, -⟩ := Resource.eq_cluster hl
    exact hknows x kind rfl (hends.2.2 kind)

/-- The object that a call makes, or puts in place of the one that is there. -/
def Call.makes : Call → Option (Kind × ObjectMeta)
  | .api (.applyDeployment x) => some (.deployment, x.metadata)
  | .api (.applyService x) => some (.service, x.metadata)
  | .api (.createSecret x) => some (.secret, x.metadata)
  | .api (.createTidbCluster x) => some (.tidbCluster, x.metadata)
  | _ => none

theorem Cluster.belongsTo_of_ownerRef {c : Cluster} {m : ObjectMeta}
    (hm : c.ownerRef ∈ m.ownerReferences) : m.BelongsTo c.key :=
  ⟨c.ownerRef, hm, rfl, rfl, rfl⟩

/-- What a reconciliation of a Cluster makes, its cleanup looks for. -/
theorem Cluster.Conduct.covered {c : Cluster} {h : History Reply} {q : Call} (hq : c.Conduct h q)
    {kind : Kind} {m : ObjectMeta} (hmakes : q.makes = some (kind, m)) :
    m.key = c.cleanupKey kind ∧ m.BelongsTo c.key := by
  cases q with
  | draw n => cases hmakes
  | http q => cases hmakes
  | api q =>
    cases q with
    | applyDeployment x =>
      obtain ⟨mode, rfl, -⟩ := hq
      obtain ⟨rfl, rfl⟩ := Prod.mk.inj (Option.some.inj hmakes)
      exact ⟨rfl, belongsTo_of_ownerRef (List.mem_singleton.mpr rfl)⟩
    | applyService x =>
      obtain ⟨rfl, -⟩ := hq
      obtain ⟨rfl, rfl⟩ := Prod.mk.inj (Option.some.inj hmakes)
      exact ⟨rfl, belongsTo_of_ownerRef (List.mem_singleton.mpr rfl)⟩
    | createSecret x =>
      obtain ⟨-, -, password, rfl⟩ := hq
      obtain ⟨rfl, rfl⟩ := Prod.mk.inj (Option.some.inj hmakes)
      exact ⟨rfl, belongsTo_of_ownerRef (List.mem_singleton.mpr rfl)⟩
    | createTidbCluster x =>
      obtain ⟨-, spec, -, rfl⟩ := hq
      obtain ⟨rfl, rfl⟩ := Prod.mk.inj (Option.some.inj hmakes)
      exact ⟨rfl, belongsTo_of_ownerRef (List.mem_singleton.mpr rfl)⟩
    | _ => cases hmakes

/-- **A Cluster that is no longer held leaves nothing behind.** This takes one process, and other
clients that leave the finalizer alone and make nothing in the name of the Cluster. Whatever its
reconciliations make is of one of the four kinds, under the name that the cleanup looks for, and in
the name of the Cluster. As soon as the Cluster is gone, or without the finalizer, every such object
is gone or being deleted, unless it has ceased to name the Cluster among its owners. -/
theorem no_orphans (c : Cluster)
    {run : Finalizer Reply CleanupReply KubeError Error (Option Action)}
    (hrun : Documented (Slot.cluster c.key).finalizer none run) {cfg : HeldRun}
    (hcfg : ((managed libs client srv (.cluster c.key) c.LeavesCleared).system run).Reachable
      ((managed libs client srv (.cluster c.key) c.LeavesCleared).Vacant (clearing libs client c))
      System.anyMove cfg) :
    (∀ l h q k kind m, cfg.running () = some ⟨l, h, .call (.apply q) k⟩ →
      q.makes = some (kind, m) → m.key = c.cleanupKey kind ∧ m.BelongsTo c.key) ∧
    (¬ Held (Slot.cluster c.key).finalizer cfg.store.stored →
      ∀ kind m, cfg.store.world.metadata kind (c.cleanupKey kind) = some m → m.BelongsTo c.key →
        cfg.store.world.terminating kind (c.cleanupKey kind)) := by
  obtain ⟨hclear, happly, -⟩ := Managed.custody (clears_clearing c) hrun hcfg
  refine ⟨fun l h q k kind m hi hmakes => ?_, fun hfree => hclear hfree⟩
  obtain ⟨hl, -, hq⟩ := happly l h q k hi
  obtain ⟨x, hx, hkey⟩ := Resource.eq_cluster hl
  rw [hx] at hq
  obtain ⟨hm, hbelongs⟩ := Cluster.Conduct.covered hq hmakes
  exact ⟨hm.trans (Cluster.cleanupKey_congr hkey kind), hkey ▸ hbelongs⟩

end Orphans

/-! ### Letting go of a Cluster -/

/-- The calls of a reconciliation against an API server that works. -/
def answerWorld (srv : Server) (q : Call) (w : World) : Reply q × World :=
  let out := respond srv (fun _ => false) q w.api.store
  (out.1, { api := { w.api with store := out.2 }
            terminating := fun kind k => w.terminating kind k ∧ (w.metadata kind k).isSome })

/-- The calls of a cleanup against one that removes what is deleted at once. -/
def cleanWorld (q : CleanupCall) (w : World) : CleanupReply q × World :=
  ((answerCleanup q w.api).1, { w with api := (answerCleanup q w.api).2 })

theorem serves_answerWorld (srv : Server) (q : Call) (w : World) :
    World.Serves srv q w (answerWorld srv q w).1 (answerWorld srv q w).2 :=
  ⟨serves_respond srv _ q w.api.store, rfl, fun _ _ => Iff.rfl⟩

theorem cleans_cleanWorld (q : CleanupCall) (w : World) :
    World.Cleans q w (cleanWorld q w).1 (cleanWorld q w).2 where
  served := serves_answerCleanup q w.api
  stays hterm := .inl hterm
  marks {kind k policy} hq hne := by
    subst hq
    refine .inr ?_
    cases hm : w.api.store.metadata k kind with
    | none =>
      refine absurd ?_ hne
      rw [cleanWorld, answerCleanup, hm]
    | some m =>
      rw [cleanWorld, answerCleanup, hm]
      exact Store.metadata_remove_self _ _ _
  only hterm := .inl hterm

/-- **A deleted Cluster can always go.** Whatever has happened before, and however late the watch
is: it catches up, and if every call is answered the reconciliation that comes next takes the
finalizer off. -/
theorem deleted_cluster_goes (libs : Externals) (client : Client) (srv : Server)
    (env : World → World → Prop) (c : Cluster)
    {run : Finalizer Reply CleanupReply KubeError Error (Option Action)}
    (hrun : Documented (Slot.cluster c.key).finalizer none run) {s : Tracked World} {l : Life}
    (hl : s.stored = some l) (hheld : (Slot.cluster c.key).finalizer ∈ l.finalizers)
    (hdel : l.deleting = true) :
    ∃ t, ((managed libs client srv (.cluster c.key) env).system run).Settles (· = s)
        System.anyMove { s with behind := [] } ∧
      ((Resource.cluster c).driven libs client run l).eval
        (answerLife (.other "conflict") (answerWorld srv) cleanWorld) { s with behind := [] } =
          (.ok none, t) ∧
      ((managed libs client srv (.cluster c.key) env).system run).Settles (· = s)
        System.anyMove t ∧
      t.stored = Life.release (Slot.cluster c.key).finalizer l := by
  have hview : ((c.cleanup.run.eval cleanWorld s.world).1,
      World.api (c.cleanup.run.eval cleanWorld s.world).2) =
        c.cleanup.run.eval answerCleanup s.world.api :=
    eval_view cleanWorld World.api (fun _ _ => rfl) c.cleanup.run s.world
  have hok : (c.cleanup.run.eval cleanWorld s.world).1 = .ok none :=
    (congrArg Prod.fst hview).trans (c.cleanup_eval s.world.api)
  exact Managed.settles_released (m := managed libs client srv (.cluster c.key) env)
    (o := .cluster c) hrun (serves_answerWorld srv) cleans_cleanWorld (.other "conflict") rfl hl
    hheld hdel hok

/-! ### From creation to deletion -/

/-- The sample Cluster, without the finalizer. -/
def sampleTracked : Tracked World :=
  { stored := some {}, world := ⟨⟨sampleStore, []⟩, fun _ _ => False⟩ }

/-- The controller of the sample Cluster. -/
def sampleManaged : Managed Reply CleanupReply Resource World Error (Option Action) :=
  managed sampleExternals .kube ⟨false⟩ (.cluster sampleCluster.key) sampleCluster.LeavesCleared

/-- `finalizer` with the finalizer of the sample Cluster. -/
def sampleFinalizer : Finalizer Reply CleanupReply KubeError Error (Option Action) :=
  finalizer sampleManaged.name none

/-- The state after a reconciliation that sees the Cluster as it is. -/
def reconciled (s : Tracked World) : Tracked World :=
  match s.stored with
  | some l => ((sampleFinalizer l (sampleManaged.apply (.cluster sampleCluster))
      (sampleManaged.cleanup (.cluster sampleCluster))).eval
        (answerLife (.other "conflict") (answerWorld ⟨false⟩) cleanWorld) s).2
  | none => s

/-- The Cluster is deleted. -/
def deleteRequested (s : Tracked World) : Tracked World :=
  s.store (s.stored.map fun l => { l with deleting := true })

/-- The watch is up to date. -/
def synced (s : Tracked World) : Tracked World := { s with behind := [] }

/-- The Cluster is created, reconciled, deleted and let go. -/
def sampleLife : Tracked World :=
  reconciled (synced (deleteRequested (synced (reconciled (synced (reconciled sampleTracked))))))

section Sample

variable {init : Tracked World → Prop} {s : Tracked World}

theorem settles_reconciled
    (hs : (sampleManaged.system sampleFinalizer).Settles init System.anyMove s)
    (hsynced : s.behind = []) (hsome : s.stored.isSome) :
    (sampleManaged.system sampleFinalizer).Settles init System.anyMove (reconciled s) := by
  obtain ⟨l, hl⟩ := Option.isSome_iff_exists.mp hsome
  have hcached : s.cached = some l := by
    simp only [Tracked.cached, Tracked.versions, hsynced, List.getLast_singleton, hl]
  rw [reconciled, hl]
  exact hs.play (l := (.cluster sampleCluster, l))
    (serves_answerLife (.other "conflict") (serves_answerWorld ⟨false⟩) cleans_cleanWorld)
    (fun _ _ _ => trivial) ⟨rfl, hcached, rfl⟩

theorem settles_deleteRequested
    (hs : (sampleManaged.system sampleFinalizer).Settles init System.anyMove s)
    (hsome : s.stored.isSome) :
    (sampleManaged.system sampleFinalizer).Settles init System.anyMove (deleteRequested s) := by
  obtain ⟨l, hl⟩ := Option.isSome_iff_exists.mp hsome
  refine hs.env (.object ?_) fun _ _ _ => trivial
  rw [hl]
  exact .change Iff.rfl fun _ => rfl

end Sample

/-- The life of the sample Cluster is a run. -/
theorem settles_sampleLife : (sampleManaged.system sampleFinalizer).Settles
    (sampleManaged.Vacant (clearing sampleExternals .kube sampleCluster)) System.anyMove
    sampleLife := by
  have hinit : sampleManaged.Vacant (clearing sampleExternals .kube sampleCluster)
      sampleTracked := by
    refine ⟨rfl, ?_, fun kind m hm => ?_⟩
    · rintro ⟨l, ⟨⟩, hmem⟩
      cases hmem
    · cases kind <;> cases hm
  have h₁ := Managed.settles_synced (settles_reconciled (.initial hinit) rfl rfl)
  have h₂ := Managed.settles_synced (settles_reconciled h₁ rfl (by decide))
  have h₃ := Managed.settles_synced (settles_deleteRequested h₂ (by decide))
  exact settles_reconciled h₃ rfl (by decide)

/-- The finalizer is put on, the Cluster is reconciled and deleted, and nothing of it is left. -/
theorem no_orphans_sample : ∃ cfg : HeldRun, cfg.store.stored = none ∧
    cfg.store.world.api.accepted.map Deletion.kind = [.service, .deployment] ∧
    ∀ kind m, cfg.store.world.metadata kind (sampleCluster.cleanupKey kind) = some m →
      m.BelongsTo sampleCluster.key →
        cfg.store.world.terminating kind (sampleCluster.cleanupKey kind) := by
  obtain ⟨cfg, hcfg, -, hs⟩ := settles_sampleLife
  refine ⟨cfg, by rw [hs]; rfl, by rw [hs]; rfl, ?_⟩
  refine (no_orphans sampleCluster (documented_finalizer _ none) hcfg).2 ?_
  rw [hs]
  rintro ⟨l, hl, -⟩
  cases hl

/-- After the finalizer has been put on, the next reconciliation is about to write the phase. -/
theorem reconciles_in_custody_sample : ∃ (c : HeldRun) (l : Resource × Life)
    (k : Except KubeError Unit → Program (LifeReply Reply CleanupReply KubeError)
      (Except (FinalizerError Error KubeError) (Option Action))),
    c.running () = some ⟨l, [], .call (.apply (sampleCluster.phaseWrite .inCreation)) k⟩ ∧
      Held sampleManaged.name c.store.stored := by
  have hinit : sampleManaged.Vacant (acting sampleExternals .kube) sampleTracked := by
    refine ⟨rfl, ?_, trivial⟩
    rintro ⟨l, ⟨⟩, hmem⟩
    cases hmem
  have hheld : (sampleManaged.system sampleFinalizer).Settles
      (sampleManaged.Vacant (acting sampleExternals .kube)) System.anyMove
        (synced (reconciled sampleTracked)) :=
    Managed.settles_synced (settles_reconciled (.initial hinit) rfl rfl)
  obtain ⟨c, hc, hi, hs⟩ := hheld
  have hcached : c.store.cached = some ⟨[sampleManaged.name], false⟩ := by
    rw [hs]
    rfl
  obtain ⟨k, hk⟩ : ∃ k, sampleFinalizer ⟨[sampleManaged.name], false⟩
      (sampleManaged.apply (.cluster sampleCluster))
      (sampleManaged.cleanup (.cluster sampleCluster)) =
        .call (.apply (sampleCluster.phaseWrite .inCreation)) k := ⟨_, rfl⟩
  have hstart : (sampleManaged.system sampleFinalizer).start c.store
      (.cluster sampleCluster, ⟨[sampleManaged.name], false⟩)
      (.call (.apply (sampleCluster.phaseWrite .inCreation)) k) := ⟨rfl, hcached, hk.symm⟩
  have hstarted := hc.step (m := .start () _) trivial (.start hi hstart)
  obtain ⟨hheld, -⟩ := (reconciles_in_custody (.cluster sampleCluster.key)
    (documented_finalizer _ none) hstarted).1 (.cluster sampleCluster, _) [] _ k rfl
  exact ⟨_, (.cluster sampleCluster, ⟨[sampleManaged.name], false⟩), k, rfl, hheld⟩

/-- A deleted Cluster that somebody else holds as well, seen as it was before. -/
def sharedTracked : Tracked World :=
  { stored := some ⟨["example.com/backup", "clusters.surrealdb.aexol.com"], true⟩
    behind := [some ⟨["example.com/backup", "clusters.surrealdb.aexol.com"], false⟩, none]
    world := ⟨⟨retiredStore, []⟩, fun _ _ => False⟩ }

theorem deleted_cluster_goes_shared : ∃ t : Tracked World,
    (sampleManaged.system sampleFinalizer).Settles (· = sharedTracked) System.anyMove t ∧
      t.stored = some ⟨["example.com/backup"], true⟩ := by
  obtain ⟨t, -, -, ht, hstored⟩ := deleted_cluster_goes sampleExternals .kube ⟨false⟩
    sampleCluster.LeavesCleared sampleCluster (documented_finalizer _ none) (s := sharedTracked) rfl
    (by decide) rfl
  exact ⟨t, ht, hstored⟩

end SdbController
