import SdbController.Cluster.Lifecycle
import SdbController.Database.Conduct
import SdbController.User.Conduct

/-!
# What Ready means under the two transports

The two clients disagree about exactly one kind of outcome, a response that is not 2xx: an error to
the proxy client, a success to the direct one. Both reconcilers go by the verdict, so a Database or
a User of the direct client becomes Ready on statements that SurrealDB turned down.

## Main results

* `ready_means_accepted` — when the phase tells the truth about the statements
* `ready_on_rejected_statements` — a Database that becomes Ready on two responses 500
-/

namespace SdbController

open Interaction Program

/-- **When Ready means that SurrealDB accepted the statements.** The two clients agree on an outcome
if and only if it is not a response other than 2xx, and an invocation is honest if and only if it
uses the proxy client or got no such response. -/
theorem ready_means_accepted (libs : Externals) (client : Client) :
    (∀ (d : Database) h a, Returns (d.reconcile libs client).run h a →
      (Honest (d.PhaseWrite .ready) (d.PhaseWrite .error) h ↔
        client = .kube ∨ ∀ q r, sent q r ∈ h → ¬ r.IsRejection)) ∧
    (∀ (u : User) h a, Returns (u.reconcile libs client).run h a →
      (Honest (u.PhaseWrite .ready) (u.PhaseWrite .error) h ↔
        client = .kube ∨ ∀ q r, sent q r ∈ h → ¬ r.IsRejection)) ∧
    ∀ r : HttpOutcome,
      (Client.kube.verdict r = .ok () ↔ Client.reqwest.verdict r = .ok ()) ↔ ¬ r.IsRejection := by
  refine ⟨fun d h a hret => ?_, fun u h a hret => ?_, fun r => ?_⟩
  · have hfollows : d.Ends client h := (d.reconcile_meets libs client).of_after hret
    exact hfollows.honest_iff
  · have hfollows : u.Ends client h := (u.reconcile_meets libs client).of_after hret
    exact hfollows.honest_iff
  · have hexcl : r.IsRejection → ¬ r.IsSuccess := by
      cases r with
      | failed text => exact fun hrej _ => hrej
      | response status text => exact id
    simp only [Client.verdict_eq_ok_iff, reduceCtorEq, false_and, or_false, true_and]
    constructor
    · intro hagree hrej
      exact hexcl hrej (hagree.mpr (.inr hrej))
    · intro hno
      rw [or_iff_left hno]

/-- Libraries that know the address of `sampleCluster`. -/
def sampleExternals : Externals where
  urlParse url :=
    if url = "http://db-surrealdb.prod.svc.cluster.local:8000/sql" then
      .ok ⟨some "db-surrealdb.prod.svc.cluster.local", some 8000, "/sql"⟩
    else .error "relative URL without a base"
  base64 _ := "cm9vdDpzZWNyZXQ="

/-- A Database on `sampleCluster`. -/
def sampleDatabase : Database :=
  { name := "shop", ns := "apps", spec := { clusterRef := ⟨"db", some "prod"⟩ } }

/-- A User of `sampleDatabase`. -/
def sampleUser : User :=
  { name := "alice", ns := "apps", uid := "2"
    spec := { clusterRef := ⟨"db", some "prod"⟩, databaseRef := ⟨"shop", none⟩ } }

/-- `sampleStore` with a Database on its Cluster, and a User on that. -/
def tenantStore (u : User) : Store :=
  { sampleStore with
    databases := Function.update (fun _ => none) sampleDatabase.key (some sampleDatabase)
    users := Function.update (fun _ => none) u.key (some u) }

/-- A SurrealDB server in trouble, behind an API server that works. -/
def brokenReply : (q : Call) → Reply q
  | .api q => (answer ⟨false⟩ q sampleStore).1
  | .http _ => HttpOutcome.response ⟨500, .inr (by decide)⟩ "internal error"
  | .draw n => (default : Draws n)

/-- The direct client makes `sampleDatabase` Ready although both statements are turned down. -/
theorem ready_on_rejected_statements :
    ¬ ∀ h a, Returns (sampleDatabase.reconcile sampleExternals .reqwest).run h a →
      Honest (sampleDatabase.PhaseWrite .ready) (sampleDatabase.PhaseWrite .error) h := by
  intro H
  have hhonest := H _ _ (After.start.trace brokenReply)
  have hready : ∃ e ∈ (trace brokenReply []
      (sampleDatabase.reconcile sampleExternals .reqwest).run).1,
      sampleDatabase.PhaseWrite .ready e.1 := ⟨_, List.mem_cons_self, none, rfl⟩
  have hsuccess := hhonest.ready hready _ _ (List.mem_cons_of_mem _ List.mem_cons_self)
  exact absurd hsuccess (show ¬ 500 < 300 by decide)

end SdbController
