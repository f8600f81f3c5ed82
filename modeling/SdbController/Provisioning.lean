import SdbController.Cluster.Reconcile
import SdbController.Database.Reconcile
import SdbController.User.Reconcile

/-!
# Sending statements on behalf of a resource

What the Database and the User reconciler have in common. Both read the root credentials of a
Cluster, send their statements one after the other, and record how it went in the phase.

## Two judgements of a response

An invocation goes by the *verdict* of its client. `Follows` says that it does: a bad verdict is
followed by the write of phase `Error` and by nothing else, a good one is not, and `Ready` is
written after good verdicts only. `Honest` says the same of what SurrealDB really answered. The
proxy client never tells the two apart; the direct one does on every response that is not 2xx
(`Follows.honest_iff`).

## Main results

* `Database.meets_getRootCredentials` — reading the credentials only reads
* `Follows.honest_iff` — when going by the verdict is going by the answer
-/

namespace SdbController

open Interaction Program

/-! ### Reading -/

/-- A call that neither writes nor sends a statement. -/
def Call.IsPassive : Call → Prop
  | .api q => ¬ q.IsWrite
  | .http _ => False
  | .draw _ => True

/-- A request that writes nothing. -/
def Call.IsRead : Call → Prop
  | .api q => ¬ q.IsWrite
  | _ => False

theorem Call.IsRead.isPassive : ∀ {q : Call}, q.IsRead → q.IsPassive
  | .api _, hq => hq
  | .http _, hq => hq
  | .draw _, _ => trivial

/-- The statements among the calls are as `uses` has them. -/
def SendsOnly (uses : HttpRequest → Prop) : Call → Prop
  | .http q => uses q
  | _ => True

theorem Call.IsRead.sendsOnly {uses : HttpRequest → Prop} :
    ∀ {q : Call}, q.IsRead → SendsOnly uses q
  | .api _, _ => trivial
  | .http _, hq => hq.elim
  | .draw _, _ => trivial

/-- A run that has only read and drawn. -/
def Quiet (h : History Reply) : Prop := ∀ e ∈ h, e.1.IsPassive

theorem Quiet.nil : Quiet [] := fun _ he => absurd he List.not_mem_nil

theorem Quiet.cons {h : History Reply} (hh : Quiet h) {q : Call} (hq : q.IsPassive) (r : Reply q) :
    Quiet (⟨q, r⟩ :: h) := by
  intro e he
  rcases List.mem_cons.mp he with rfl | he
  · exact hq
  · exact hh e he

/-- The lookup of the Database controller is that of `bootstrap_root_user` for the Cluster as it is
stored, and fails in the same cases with the same error. -/
theorem Database.getRootCredentials_eq (clusterNs clusterName : String) :
    Database.getRootCredentials clusterNs clusterName = (do
      let cluster ← Reconciler.call (.getCluster ⟨clusterNs, clusterName⟩)
      Cluster.bootstrapCredentials { (cluster : Cluster) with ns := clusterNs }) := by
  unfold Database.getRootCredentials Cluster.bootstrapCredentials
  congr 1
  funext cluster
  congr 1
  funext n
  congr 1
  funext sec
  unfold Secret.credentials
  cases (Secret.data sec).lookup "user" with
  | none => rfl
  | some u =>
    cases (Secret.data sec).lookup "password" with
    | none => rfl
    | some p => rfl

theorem Cluster.bootstrapCredentials_calls (c : Cluster) :
    Reconciler.Calls Call.IsRead c.bootstrapCredentials :=
  .bind (.ofExcept _) fun _ => .bind (.call id) fun _ => .ofExcept _

theorem Database.getRootCredentials_calls (clusterNs clusterName : String) :
    Reconciler.Calls Call.IsRead (Database.getRootCredentials clusterNs clusterName) := by
  rw [Database.getRootCredentials_eq]
  exact .bind (.call id) fun y => Cluster.bootstrapCredentials_calls _

/-- Reading the credentials makes only reads, whatever comes of it. -/
theorem Database.meets_getRootCredentials {G : History Reply → Call → Prop} {h : History Reply}
    {Q : History Reply → Except Error (String × String) → Prop} (clusterNs clusterName : String)
    (hh : Quiet h) (hG : ∀ h' q, Quiet h' → ¬ q.IsWrite → G h' (.api q))
    (hQ : ∀ h' r, Quiet h' → Q h' r) :
    Meets G Q h (Database.getRootCredentials clusterNs clusterName).run := by
  refine ((Database.getRootCredentials_calls clusterNs clusterName h).invariant
    (fun h' q r hquiet hq => hquiet.cons hq.isPassive r) hh).mono ?_ fun h' r hr => hQ h' r hr.1
  rintro h' q ⟨hquiet, hread⟩
  cases q with
  | api q => exact hG h' q hquiet hread
  | http q | draw n => exact hread.elim

/-- If every request is answered, the lookup finds the credentials that are there. -/
theorem Database.completes_getRootCredentials {srv : Server}
    {http : HttpRequest → Store → HttpOutcome → Store → Prop} {s s' : Store} {k : ObjectKey}
    {name : String} {cluster : Cluster} {sec : Secret} {cred : String × String}
    {x : Except Error (String × String)} (hcluster : s.clusters k = some cluster)
    (hname : cluster.spec.rootSecret.bind SecretReference.name = some name)
    (hsec : s.secrets ⟨k.ns, name⟩ = some sec) (hcred : sec.credentials = some cred)
    (h : Completes (Answers srv http) (Database.getRootCredentials k.ns k.name).run s x s') :
    x = .ok cred ∧ s' = s := by
  rw [Database.getRootCredentials_eq, completes_except_bind] at h
  obtain ⟨y, t, hget, hrest⟩ := h
  rw [Reconciler.completes_answered] at hget
  obtain ⟨rfl, rfl⟩ := hget
  simp only [answer, lookup, hcluster, Except.mapError] at hrest
  exact Cluster.completes_bootstrapCredentials { cluster with ns := k.ns } hname hsec hcred hrest

/-- The User's copy of the lookup is the Database's. -/
theorem User.getRootCredentialsForCluster_eq (clusterNs clusterName : String) :
    User.getRootCredentialsForCluster clusterNs clusterName =
      Database.getRootCredentials clusterNs clusterName := rfl

/-! ### Verdicts -/

/-- A statement with what the transport got for it. -/
def sent (q : HttpRequest) (r : HttpOutcome) : Σ q, Reply q := ⟨.http q, r⟩

/-- A response, but not a 2xx one. -/
def HttpOutcome.IsRejection : HttpOutcome → Prop
  | failed _ => False
  | response status _ => ¬ status.code < 300

theorem Client.verdict_eq_ok_iff {client : Client} {r : HttpOutcome} :
    client.verdict r = .ok () ↔ r.IsSuccess ∨ (client = .reqwest ∧ r.IsRejection) := by
  cases client with
  | kube =>
    have hmap : ∀ x : Except KubeError Unit, x.mapError Error.kubeError = .ok () ↔ x = .ok () := by
      intro x
      cases x <;> simp [Except.mapError]
    simp [Client.verdict, hmap, requestText_eq_ok_iff]
  | reqwest =>
    cases r with
    | failed text =>
      simp [Client.verdict, execute, Except.mapError, HttpOutcome.IsSuccess,
        HttpOutcome.IsRejection]
    | response status text =>
      simp only [Client.verdict, execute, Except.mapError, HttpOutcome.IsSuccess,
        HttpOutcome.IsRejection, true_and, true_iff]
      exact em _

/-- `q` is the request that is sent to a Cluster for a statement, with some credentials. -/
def Asks (libs : Externals) (client : Client) (cluster : ObjectKey) (sql : Sql) (q : HttpRequest) :
    Prop :=
  ∃ user pass request, sqlRequest libs client cluster.ns cluster.name user pass sql = .ok request ∧
    q = request.request

theorem Asks.body {libs : Externals} {client : Client} {cluster : ObjectKey} {sql : Sql}
    {q : HttpRequest} (h : Asks libs client cluster sql q) : q.body = sql := by
  obtain ⟨user, pass, request, hreq, rfl⟩ := h
  exact (sqlRequest_eq_ok hreq).2

/-- Some request to the Cluster cannot be built. -/
def Unreachable (libs : Externals) (client : Client) (cluster : ObjectKey) : Prop :=
  ∃ user pass sql e, sqlRequest libs client cluster.ns cluster.name user pass sql = .error e

/-- The last call was a statement with a bad verdict. -/
def Refused (client : Client) (h : History Reply) : Prop :=
  ∃ q r h', h = sent q r :: h' ∧ client.verdict r ≠ .ok ()

/-- Every statement so far got a good verdict. -/
def Going (client : Client) (h : History Reply) : Prop :=
  ∀ q r, sent q r ∈ h → client.verdict r = .ok ()

theorem Quiet.going {h : History Reply} (hh : Quiet h) (client : Client) : Going client h :=
  fun _ _ hmem => (hh _ hmem).elim

theorem Going.cons_sent {client : Client} {h : History Reply} (hh : Going client h)
    {q : HttpRequest} {r : HttpOutcome} (hr : client.verdict r = .ok ()) :
    Going client (sent q r :: h) := by
  intro q' r' hmem
  rcases List.mem_cons.mp hmem with heq | hmem
  · cases heq
    exact hr
  · exact hh q' r' hmem

theorem Going.cons_api {client : Client} {h : History Reply} (hh : Going client h) {q : ApiRequest}
    (r : Reply (.api q)) : Going client (⟨.api q, r⟩ :: h) := by
  intro q' r' hmem
  rcases List.mem_cons.mp hmem with heq | hmem
  · cases heq
  · exact hh q' r' hmem

/-- A finished invocation that went by its client's verdicts. -/
structure Follows (client : Client) (ready failed : Call → Prop) (h : History Reply) : Prop where
  ready : (∃ e ∈ h, ready e.1) → Going client h
  stops : ∀ {newer q r older}, h = newer ++ sent q r :: older →
    ((∃ w, newer = [w] ∧ failed w.1) ↔ client.verdict r ≠ .ok ())

/-- A finished invocation that went by what SurrealDB answered: phase `Ready` only if every
statement was answered with 2xx, and after any other outcome phase `Error` and nothing more. -/
structure Honest (ready failed : Call → Prop) (h : History Reply) : Prop where
  ready : (∃ e ∈ h, ready e.1) → ∀ q r, sent q r ∈ h → r.IsSuccess
  stops : ∀ {newer q r older}, h = newer ++ sent q r :: older → ¬ r.IsSuccess →
    ∃ w, newer = [w] ∧ failed w.1

section Follows

variable {client : Client} {ready failed : Call → Prop} {h : History Reply}

/-- An invocation without a bad verdict follows, unless it wrote `Error` right after a statement. -/
theorem Going.follows (hh : Going client h)
    (hlast : ∀ {w q r older}, h = w :: sent q r :: older → ¬ failed w.1) :
    Follows client ready failed h where
  ready _ := hh
  stops {newer q r older} heq := by
    refine iff_of_false ?_ (not_not_intro (hh q r (by rw [heq]; simp)))
    rintro ⟨w, rfl, hw⟩
    exact hlast heq hw

/-- An invocation that ended by writing `Error` after its first bad verdict follows. -/
theorem Going.follows_of_refused (hh : Going client h) {q : HttpRequest} {r : HttpOutcome}
    {w : ApiRequest} {a : Reply (.api w)} (hr : client.verdict r ≠ .ok ()) (hw : failed (.api w))
    (hready : ¬ ready (.api w) ∧ ¬ ready (.http q) ∧ ∀ e ∈ h, ¬ ready e.1) :
    Follows client ready failed (⟨.api w, a⟩ :: sent q r :: h) where
  ready := by
    rintro ⟨e, he, hre⟩
    simp only [List.mem_cons] at he
    obtain rfl | rfl | he := he
    · exact absurd hre hready.1
    · exact absurd hre hready.2.1
    · exact absurd hre (hready.2.2 e he)
  stops {newer q' r' older} heq := by
    match newer with
    | [] => cases heq
    | [x] =>
      cases heq
      exact iff_of_true ⟨_, rfl, hw⟩ hr
    | x :: y :: newer =>
      -- a statement before the refused one had a good verdict
      have htail : h = newer ++ sent q' r' :: older := by
        simp only [List.cons_append, List.cons.injEq] at heq
        exact heq.2.2
      refine iff_of_false ?_ (not_not_intro (hh q' r' (by rw [htail]; simp)))
      rintro ⟨z, hz, -⟩
      cases hz

/-- **When going by the verdict is going by the answer**: with the proxy client always, with the
direct client if no statement was answered with a response other than 2xx. -/
theorem Follows.honest_iff (hf : Follows client ready failed h) :
    Honest ready failed h ↔ client = .kube ∨ ∀ q r, sent q r ∈ h → ¬ r.IsRejection := by
  constructor
  · intro hh
    by_cases hc : client = .kube
    · exact .inl hc
    · refine .inr fun q r hmem hrej => ?_
      have hreq : client = .reqwest := by
        cases client with
        | kube => exact absurd rfl hc
        | reqwest => rfl
      have hok : client.verdict r = .ok () := Client.verdict_eq_ok_iff.mpr (.inr ⟨hreq, hrej⟩)
      have hno : ¬ r.IsSuccess := by
        cases r with
        | failed text => exact id
        | response status text => exact hrej
      obtain ⟨newer, older, heq⟩ := List.append_of_mem hmem
      exact (hf.stops heq).mp (hh.stops heq hno) hok
  · intro hc
    have hiff : ∀ q r, sent q r ∈ h → (client.verdict r = .ok () ↔ r.IsSuccess) := by
      intro q r hmem
      rw [Client.verdict_eq_ok_iff]
      refine or_iff_left ?_
      rintro ⟨rfl, hrej⟩
      rcases hc with hc | hc
      · cases hc
      · exact hc q r hmem hrej
    refine ⟨fun hr q r hmem => (hiff q r hmem).mp (hf.ready hr q r hmem), ?_⟩
    intro newer q r older heq hno
    have hmem : sent q r ∈ h := by
      rw [heq]
      simp
    exact (hf.stops heq).mpr fun hok => hno ((hiff q r hmem).mp hok)

end Follows

end SdbController
