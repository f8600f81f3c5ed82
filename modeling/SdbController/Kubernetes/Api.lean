import Mathlib.Logic.Function.Basic
import SdbController.Crd
import SdbController.Error
import SdbController.Interaction.System
import SdbController.Password
import SdbController.Sql

/-!
# The calls of the controllers and the store behind them

Every `.await` of the source is a `Call`: a request to the Kubernetes API server, an HTTP request
that ends at a SurrealDB server, or a draw from the random number generator. `Store` is what the
API server holds. It also keeps an audit of the writes and statements that were accepted, newest
first; the audit is what *has been applied* and *was accepted* refer to, and SurrealDB's own state
is a function of it.

`answer` is the API server that always works. `Serves` is the one the controllers meet: a call is
answered, or it fails before taking effect, or it fails after taking effect.

## Choices of the server

RFC 6902 refuses to replace a missing member. `Server.replaceMissing` leaves open whether the
server follows it, so that what is proved about credentials does not depend on the answer.

## Main definitions

* `ApiRequest`, `Call`, `Reply` — what is asked and answered
* `Store`, `answer`, `effect` — what the API server holds, and what a call does to it
* `Serves` — how a call may be served
-/

namespace SdbController

open Interaction

/-! ### Requests and replies -/

/-- Requests to the API server. -/
inductive ApiRequest
  | getCluster (k : ObjectKey)
  | getDatabase (k : ObjectKey)
  | getSecret (k : ObjectKey)
  | getDeployment (k : ObjectKey)
  | getTidbCluster (k : ObjectKey)
  | createSecret (x : Secret)
  | createConfigMap (x : ConfigMap)
  | createTidbCluster (x : TidbCluster)
  | applyDeployment (x : Deployment)
  | applyService (x : Service)
  | replaceRootSecret (k : ObjectKey) (r : SecretReference)
  | mergeClusterStatus (k : ObjectKey) (phase : Phase)
  | mergeDatabaseStatus (k : ObjectKey) (phase : DbPhase) (message : Option String)
  | mergeUserStatus (k : ObjectKey) (phase : UserPhase) (message : Option String)

/-- What a successful answer carries. `getTidbCluster` is `get_opt`. -/
def ApiRequest.Object : ApiRequest → Type
  | getCluster _ => Cluster
  | getDatabase _ => Database
  | getSecret _ => Secret
  | getDeployment _ => LiveDeployment
  | getTidbCluster _ => Option TidbCluster
  | _ => Unit

/-- An HTTP request, whichever client sends it. -/
structure HttpRequest where
  method : String
  uri : String
  headers : List (String × String)
  body : Sql
deriving DecidableEq

/-- A status that a statement can be answered with: 2xx, 4xx or 5xx. -/
structure HttpStatus where
  code : ℕ
  valid : (200 ≤ code ∧ code < 300) ∨ (400 ≤ code ∧ code < 600)
deriving DecidableEq, Repr

/-- No response, or one with a status. -/
inductive HttpOutcome
  | failed (text : String)
  | response (status : HttpStatus) (text : String)
deriving DecidableEq, Repr

/-- A response with a 2xx status. -/
def HttpOutcome.IsSuccess : HttpOutcome → Prop
  | failed _ => False
  | response status _ => status.code < 300

instance : DecidablePred HttpOutcome.IsSuccess
  | .failed _ => inferInstanceAs (Decidable False)
  | .response status _ => inferInstanceAs (Decidable (status.code < 300))

inductive Call
  | api (q : ApiRequest)
  | http (q : HttpRequest)
  | draw (n : ℕ)

def Reply : Call → Type
  | .api q => Except KubeError q.Object
  | .http _ => HttpOutcome
  | .draw n => Draws n

/-! ### The store -/

structure Store where
  clusters : ObjectKey → Option Cluster := fun _ => none
  databases : ObjectKey → Option Database := fun _ => none
  users : ObjectKey → Option User := fun _ => none
  secrets : ObjectKey → Option Secret := fun _ => none
  configMaps : ObjectKey → Option ConfigMap := fun _ => none
  deployments : ObjectKey → Option LiveDeployment := fun _ => none
  services : ObjectKey → Option Service := fun _ => none
  tidbClusters : ObjectKey → Option TidbCluster := fun _ => none
  audit : List Call := []

/-- A choice that the API server is left with. -/
structure Server where
  replaceMissing : Bool

/-- `status` merged with `{phase}`. -/
def Cluster.mergeStatus (c : Cluster) (phase : Phase) : Cluster :=
  { c with status := some ⟨some phase, c.status.bind Status.tidbClusterRef⟩ }

/-- `status` merged with `{phase, message}`, where an absent message is not part of the patch. -/
def Database.mergeStatus (d : Database) (phase : DbPhase) (message : Option String) : Database :=
  { d with status := some ⟨some phase, message <|> d.status.bind DbStatus.message⟩ }

def User.mergeStatus (u : User) (phase : UserPhase) (message : Option String) : User :=
  { u with status := some ⟨some phase, message <|> u.status.bind UserStatus.message⟩ }

def Cluster.setRootSecret (c : Cluster) (r : SecretReference) : Cluster :=
  { c with spec := { c.spec with rootSecret := some r } }

/-- Server-side apply: the object is replaced, the pods are not. -/
def LiveDeployment.applied (old : Option LiveDeployment) (x : Deployment) : LiveDeployment :=
  ⟨x, (old.map LiveDeployment.pods).getD []⟩

/-- The lookup behind every GET. -/
def lookup {α : Type} (m : ObjectKey → Option α) (k : ObjectKey) : Except KubeError α :=
  match m k with
  | some a => .ok a
  | none => .error (.notFound "not found")

def Store.log (s : Store) (c : Call) : Store := { s with audit := c :: s.audit }

/-- The store with `a` at `k`, if `k` is free. -/
def createIn {α : Type} (m : ObjectKey → Option α) (k : ObjectKey) (a : α) :
    Option (ObjectKey → Option α) :=
  if (m k).isSome then none else some (Function.update m k (some a))

/-- Answer a create, given the store it would lead to. -/
def created (s : Store) : Option Store → Except KubeError Unit × Store
  | some s' => (.ok (), s')
  | none => (.error (.alreadyExists "already exists"), s)

/-- Answer a patch, given the store it would lead to. -/
def patched (s : Store) : Option Store → Except KubeError Unit × Store
  | some s' => (.ok (), s')
  | none => (.error (.notFound "not found"), s)

/-- The working API server. -/
def answer (srv : Server) : (q : ApiRequest) → Store → Except KubeError q.Object × Store
  | .getCluster k, s => (lookup s.clusters k, s)
  | .getDatabase k, s => (lookup s.databases k, s)
  | .getSecret k, s => (lookup s.secrets k, s)
  | .getDeployment k, s => (lookup s.deployments k, s)
  | .getTidbCluster k, s => (.ok (s.tidbClusters k), s)
  | .createSecret x, s =>
    created s <| (createIn s.secrets x.metadata.key x.stored).map fun m =>
      { s with secrets := m }.log (.api (.createSecret x))
  | .createConfigMap x, s =>
    created s <| (createIn s.configMaps x.metadata.key x).map fun m =>
      { s with configMaps := m }.log (.api (.createConfigMap x))
  | .createTidbCluster x, s =>
    created s <| (createIn s.tidbClusters x.metadata.key x).map fun m =>
      { s with tidbClusters := m }.log (.api (.createTidbCluster x))
  | .applyDeployment x, s =>
    let live := LiveDeployment.applied (s.deployments x.metadata.key) x
    (.ok (), { s with deployments := Function.update s.deployments x.metadata.key (some live) }.log
      (.api (.applyDeployment x)))
  | .applyService x, s =>
    (.ok (), { s with services := Function.update s.services x.metadata.key (some x) }.log
      (.api (.applyService x)))
  | .replaceRootSecret k r, s =>
    match s.clusters k with
    | none => (.error (.notFound "not found"), s)
    | some c =>
      if c.spec.rootSecret.isSome || srv.replaceMissing then
        (.ok (), { s with clusters := Function.update s.clusters k (some (c.setRootSecret r)) }.log
          (.api (.replaceRootSecret k r)))
      else (.error (.api 422 "the patch does not apply"), s)
  | .mergeClusterStatus k phase, s =>
    patched s <| (s.clusters k).map fun c =>
      { s with clusters := Function.update s.clusters k (some (c.mergeStatus phase)) }.log
        (.api (.mergeClusterStatus k phase))
  | .mergeDatabaseStatus k phase message, s =>
    patched s <| (s.databases k).map fun d =>
      { s with databases := Function.update s.databases k (some (d.mergeStatus phase message)) }.log
        (.api (.mergeDatabaseStatus k phase message))
  | .mergeUserStatus k phase message, s =>
    patched s <| (s.users k).map fun u =>
      { s with users := Function.update s.users k (some (u.mergeStatus phase message)) }.log
        (.api (.mergeUserStatus k phase message))

/-- What a call does to the store when it takes effect. -/
def effect (srv : Server) : Call → Store → Store
  | .api q, s => (answer srv q s).2
  | .http q, s => s.log (.http q)
  | .draw _, s => s

/-- The calls as the controllers meet them: answered, failed without effect, or failed after
taking effect. -/
def Serves (srv : Server) : (c : Call) → Store → Reply c → Store → Prop
  | .api q, s, r, s' =>
    (r, s') = answer srv q s ∨
      ∃ e : KubeError, e.IsFault ∧ r = .error e ∧ (s' = s ∨ s' = effect srv (.api q) s)
  | .http q, s, r, s' =>
    s' = effect srv (.http q) s ∨ (¬ HttpOutcome.IsSuccess r ∧ s' = s)
  | .draw _, s, _, s' => s' = s

end SdbController
