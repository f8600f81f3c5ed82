import SdbController.Kubernetes.Api

/-!
# Deleting objects

What the cleanup of a Cluster asks of the API server: it reads the metadata of an object, deletes an
object by its name, and publishes an event. `Deletion` records a DELETE that was accepted, with the
metadata of the object it was accepted for. The object itself may be gone at once or stay for a
while, as finalizers and the propagation policy have it.

## Main definitions

* `Kind`, `Store.metadata`, `Store.remove` — the objects that are deleted
* `CleanupCall`, `CleanupReply`, `CleanupServes` — what is asked, and how it may be served
* `answerCleanup` — the API server that always works
-/

namespace SdbController

open Interaction

/-- The kinds of objects that a cleanup deletes. -/
inductive Kind
  | deployment
  | service
  | secret
  | tidbCluster
deriving DecidableEq, Repr

/-- The metadata of an object. -/
def Store.metadata (s : Store) (k : ObjectKey) : Kind → Option ObjectMeta
  | .deployment => (s.deployments k).map fun d => d.object.metadata
  | .service => (s.services k).map Service.metadata
  | .secret => (s.secrets k).map Secret.metadata
  | .tidbCluster => (s.tidbClusters k).map TidbCluster.metadata

/-- The store without an object. -/
def Store.remove (s : Store) (k : ObjectKey) : Kind → Store
  | .deployment => { s with deployments := Function.update s.deployments k none }
  | .service => { s with services := Function.update s.services k none }
  | .secret => { s with secrets := Function.update s.secrets k none }
  | .tidbCluster => { s with tidbClusters := Function.update s.tidbClusters k none }

theorem Store.metadata_remove_self (s : Store) (k : ObjectKey) (kind : Kind) :
    (s.remove k kind).metadata k kind = none := by
  cases kind <;> simp [remove, metadata]

theorem Store.metadata_remove_of_ne (s : Store) {k k' : ObjectKey} {kind kind' : Kind}
    (h : kind' ≠ kind ∨ k' ≠ k) : (s.remove k kind).metadata k' kind' = s.metadata k' kind' := by
  rcases h with hkind | hk
  · cases kind <;> cases kind' <;> first | rfl | exact absurd rfl hkind
  · cases kind <;> cases kind' <;> simp [remove, metadata, Function.update_of_ne hk]

inductive PropagationPolicy
  | background
  | foreground
  | orphan
deriving DecidableEq, Repr

/-- A DELETE that was accepted, with the metadata of the object it was accepted for. -/
structure Deletion where
  kind : Kind
  key : ObjectKey
  policy : PropagationPolicy
  object : ObjectMeta
deriving DecidableEq, Repr

/-- What the API server holds, and the DELETEs it has accepted, newest first. -/
structure ApiState where
  store : Store
  accepted : List Deletion := []

structure ObjectReference where
  apiVersion : String
  kind : String
  name : String
  ns : String
  uid : String
deriving DecidableEq, Repr

/-- An event, with the object it regards. -/
structure Event where
  type : String
  reason : String
  note : Option String
  action : String
  regarding : ObjectReference
deriving DecidableEq, Repr

inductive CleanupCall
  | get (kind : Kind) (k : ObjectKey)
  | delete (kind : Kind) (k : ObjectKey) (policy : PropagationPolicy)
  | publish (event : Event)

def CleanupReply : CleanupCall → Type
  | .get _ _ => Except KubeError ObjectMeta
  | .delete _ _ _ => Except KubeError Unit
  | .publish _ => Except KubeError Unit

/-- A DELETE is accepted for the object that is there, which is removed at once or stays. -/
def Deletes (kind : Kind) (k : ObjectKey) (policy : PropagationPolicy) (s s' : ApiState) : Prop :=
  ∃ m, s.store.metadata k kind = some m ∧ s'.accepted = ⟨kind, k, policy, m⟩ :: s.accepted ∧
    (s'.store = s.store ∨ s'.store = s.store.remove k kind)

/-- The calls as a cleanup meets them: answered, failed without effect, or failed after taking
effect. *Not found* is an answer, and a failure is anything else. -/
def CleanupServes : (q : CleanupCall) → ApiState → CleanupReply q → ApiState → Prop
  | .get kind k, s, r, s' => s' = s ∧
      ((∃ m, s.store.metadata k kind = some m ∧ r = .ok m) ∨
        (s.store.metadata k kind = none ∧ ∃ text, r = .error (.notFound text)) ∨
        ∃ e : KubeError, e.hasCode 404 = false ∧ r = .error e)
  | .delete kind k policy, s, r, s' =>
      (r = .ok () ∧ Deletes kind k policy s s') ∨
        (s.store.metadata k kind = none ∧ (∃ text, r = .error (.notFound text)) ∧ s' = s) ∨
        ∃ e : KubeError, e.hasCode 404 = false ∧ r = .error e ∧
          (s' = s ∨ Deletes kind k policy s s')
  | .publish _, s, _, s' => s' = s

/-- The working API server, which removes what is deleted at once. -/
def answerCleanup : (q : CleanupCall) → ApiState → CleanupReply q × ApiState
  | .get kind k, s =>
    match s.store.metadata k kind with
    | some m => ((.ok m : Except KubeError ObjectMeta), s)
    | none => ((.error (.notFound "not found") : Except KubeError ObjectMeta), s)
  | .delete kind k policy, s =>
    match s.store.metadata k kind with
    | some m => ((.ok () : Except KubeError Unit),
        { store := s.store.remove k kind, accepted := ⟨kind, k, policy, m⟩ :: s.accepted })
    | none => ((.error (.notFound "not found") : Except KubeError Unit), s)
  | .publish _, s => ((.ok () : Except KubeError Unit), s)

theorem serves_answerCleanup (q : CleanupCall) (s : ApiState) :
    CleanupServes q s (answerCleanup q s).1 (answerCleanup q s).2 := by
  cases q with
  | get kind k =>
    cases hm : s.store.metadata k kind with
    | none =>
      simp only [answerCleanup, hm]
      exact ⟨rfl, .inr (.inl ⟨hm, _, rfl⟩)⟩
    | some m =>
      simp only [answerCleanup, hm]
      exact ⟨rfl, .inl ⟨m, hm, rfl⟩⟩
  | delete kind k policy =>
    cases hm : s.store.metadata k kind with
    | none =>
      simp only [answerCleanup, hm]
      exact .inr (.inl ⟨hm, ⟨_, rfl⟩, rfl⟩)
    | some m =>
      simp only [answerCleanup, hm]
      exact .inl ⟨rfl, m, hm, rfl, .inr rfl⟩
  | publish event => rfl

end SdbController
