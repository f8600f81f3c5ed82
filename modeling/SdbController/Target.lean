import SdbController.Credentials

/-!
# Where statements are sent

A statement goes to a SurrealDB database of a Cluster: a `Target`. The Database controller takes all
four names from the Database. The User controller takes the namespace and the database from the
Database that the User refers to, and the Cluster from the User's own `clusterRef`, whose omitted
namespace is the User's and not the Database's.

## Main results

* `user_target` — a User is defined in the database it refers to, on the Cluster it refers to
* `user_misses_database` — a User and its Database on two Clusters
-/

namespace SdbController

open Interaction Program

/-- A database, by the Cluster it is on. -/
structure Target where
  clusterNs : String
  clusterName : String
  surrealNs : String
  surrealDb : String
deriving DecidableEq, Repr

/-- `q` is the request that sends a statement to the Cluster of the target. -/
def Target.Asked (libs : Externals) (client : Client) (t : Target) (sql : Sql) (q : HttpRequest) :
    Prop :=
  Asks libs client ⟨t.clusterNs, t.clusterName⟩ sql q

/-- What `Database::reconcile` resolves. -/
def Database.target (d : Database) : Target :=
  ⟨d.clusterNs, d.spec.clusterRef.name, d.surrealNs, d.surrealDb⟩

namespace User

variable (libs : Externals) (client : Client) (u : User)

/-- The Database that the User refers to. -/
def databaseKey : ObjectKey := ⟨u.dbNs, u.spec.databaseRef.name⟩

/-- What `User::reconcile` resolves, once it has read the Database. -/
def target (db : Database) : Target :=
  ⟨u.clusterNs, u.spec.clusterRef.name, db.spec.dbNamespace.getD u.dbNs,
    db.spec.dbName.getD db.name⟩

/-- The statement for the User is sent to a target. -/
def Provisions (t : Target) (q : HttpRequest) : Prop :=
  ∃ password, t.Asked libs client (u.userSql t.surrealNs t.surrealDb password) q

/-- After the Database has been read, the statements are for what it resolves to. -/
theorem provision_calls (db : Database) :
    Reconciler.Calls (SendsOnly (u.Provisions libs client (u.target db))) (do
      let (rootUser, rootPass) ←
        getRootCredentialsForCluster u.clusterNs u.spec.clusterRef.name
      let password ← u.choosePassword
      match ← Reconciler.attempt (provisionUser libs client u.clusterNs u.spec.clusterRef.name
          (u.target db).surrealNs (u.target db).surrealDb u.username
          password rootUser rootPass) with
      | .error e =>
        let _ ← Reconciler.attempt
          (u.setPhaseMsg .error (some ("provision failed: " ++ e.display)))
        pure ⟨20⟩
      | .ok () => u.publish password) := by
  refine .bind ((Database.getRootCredentials_calls _ _).mono fun _ => Call.IsRead.sendsOnly)
    fun ⟨user, pass⟩ => ?_
  refine .bind (u.choosePassword_calls trivial) fun password => ?_
  refine .bind (.attempt (calls_sendSql fun request h =>
    ⟨password, user, pass, request, h, rfl⟩)) ?_
  rintro (e | ⟨⟩)
  · exact .discard (.call trivial) _
  · exact u.publish_calls password trivial trivial (fun _ => trivial) trivial

/-- When an invocation sends a statement, it has read the Database, and the statement is for what
the Database resolves to. -/
theorem reconcile_meets_target :
    (u.reconcile libs client).run.Meets
      (fun h c => ∀ q, c = .http q → ∃ db,
        Cluster.replied (.getDatabase u.databaseKey) (.ok db) ∈ h ∧
          u.Provisions libs client (u.target db) q)
      (fun _ _ => True) [] := by
  have provision : (u.provision libs client).run.Meets
      (fun h c => ∀ q, c = .http q → ∃ db,
        Cluster.replied (.getDatabase u.databaseKey) (.ok db) ∈ h ∧
          u.Provisions libs client (u.target db) q)
      (fun _ _ => True) [] := by
    rw [User.provision, meets_except_bind, Reconciler.meets_call_api]
    refine ⟨fun _ hq => (by cases hq), fun db => ?_, fun _ => trivial⟩
    -- the reply stays in the history, whatever is called afterwards
    refine ((meets_extends _ _ (List.suffix_refl _)).and
        (u.provision_calls libs client db _)).mono
      (fun h c hc q hq => ⟨db, hc.1.mem List.mem_cons_self, ?_⟩) fun _ _ _ => trivial
    subst hq
    exact hc.2
  rw [reconcile]
  split
  · exact provision
  · exact provision
  · trivial

end User

/-- The statements of a Database are sent to what it resolves to. -/
theorem Database.reconcile_meets_target (libs : Externals) (client : Client) (d : Database) :
    (d.reconcile libs client).run.Meets
      (fun _ c => ∀ q, c = .http q →
        d.target.Asked libs client (.defineNamespace d.target.surrealNs) q ∨
          d.target.Asked libs client (.defineDatabase d.target.surrealNs d.target.surrealDb) q)
      (fun _ _ => True) [] := by
  refine (d.reconcile_meets libs client).mono (fun h c hc q hq => ?_) fun _ _ _ => trivial
  subst hq
  exact hc.2.imp And.left And.left

/-- The names inside SurrealDB agree. Those of the Cluster agree if the two references do. -/
theorem User.target_eq_iff {u : User} {d : Database} (hd : d.key = u.databaseKey) :
    (u.target d).surrealNs = d.target.surrealNs ∧ (u.target d).surrealDb = d.target.surrealDb ∧
      (u.target d = d.target ↔ u.cluster = d.cluster) := by
  have hns : d.ns = u.dbNs := congrArg ObjectKey.ns hd
  have hsurreal : (u.target d).surrealNs = d.target.surrealNs := by
    rw [User.target, ← hns]
    rfl
  refine ⟨hsurreal, rfl, fun h => ?_, fun h => ?_⟩
  · exact congrArg (fun t : Target => (⟨t.clusterNs, t.clusterName⟩ : ObjectKey)) h
  · have hclusterNs : u.clusterNs = d.clusterNs := congrArg ObjectKey.ns h
    have hclusterName : u.spec.clusterRef.name = d.spec.clusterRef.name := congrArg ObjectKey.name h
    rw [Database.target, ← hclusterNs, ← hclusterName, ← show (u.target d).surrealNs = d.surrealNs
      from hsurreal]
    rfl

/-- **Where a User lands.** Whatever replies an invocation gets, its statement is sent to what it
resolves with the Database it has read, and the statements of a Database are sent to what that
resolves. The namespace and the database are the same, and the whole target is if and only if the
two `clusterRef`s, each with its own default, name one Cluster. -/
theorem user_target (libs : Externals) (client : Client) (u : User) :
    (∀ h q k, After (u.reconcile libs client).run h (.call (.http q) k) → ∃ d,
      Cluster.replied (.getDatabase u.databaseKey) (.ok d) ∈ h ∧
        u.Provisions libs client (u.target d) q) ∧
    (∀ d : Database, ∀ h q k, After (d.reconcile libs client).run h (.call (.http q) k) →
      d.target.Asked libs client (.defineNamespace d.target.surrealNs) q ∨
        d.target.Asked libs client (.defineDatabase d.target.surrealNs d.target.surrealDb) q) ∧
    ∀ d : Database, d.key = u.databaseKey →
      (u.target d).surrealNs = d.target.surrealNs ∧ (u.target d).surrealDb = d.target.surrealDb ∧
        (u.target d = d.target ↔ u.cluster = d.cluster) := by
  refine ⟨fun h q k hrun => ?_, fun d h q k hrun => ?_, fun d hd => User.target_eq_iff hd⟩
  · exact ((u.reconcile_meets_target libs client).of_after hrun).1 q rfl
  · exact ((d.reconcile_meets_target libs client).of_after hrun).1 q rfl

/-- A Database whose Cluster is in its own namespace. -/
def localDatabase : Database :=
  { name := "shop", ns := "apps", spec := { clusterRef := ⟨"db", none⟩ } }

/-- A User of `localDatabase` whose Cluster is in the namespace of the User. -/
def strayUser : User :=
  { name := "alice", ns := "prod", uid := "2"
    spec := { clusterRef := ⟨"db", none⟩, databaseRef := ⟨"shop", some "apps"⟩
              password := some "secret" } }

/-- The statement for `strayUser` is sent to a Cluster that `localDatabase` is not on. -/
theorem user_misses_database : ∃ h q k,
    After (strayUser.reconcile sampleExternals .kube).run h (.call (.http q) k) ∧
      localDatabase.key = strayUser.databaseKey ∧
      Cluster.replied (.getDatabase strayUser.databaseKey) (.ok localDatabase) ∈ h ∧
      strayUser.Provisions sampleExternals .kube (strayUser.target localDatabase) q ∧
      (strayUser.target localDatabase).clusterNs = "prod" ∧
      localDatabase.target.clusterNs = "apps" := by
  have hdb := (After.start (p := (strayUser.reconcile sampleExternals .kube).run)).reply
    (.ok localDatabase)
  have hcluster := hdb.reply (.ok sampleCluster)
  have hsecret := hcluster.reply (.ok (givenSecret "prod" "root").stored)
  refine ⟨_, _, _, hsecret, rfl, ?_, ⟨"secret", "root", "secret", _, rfl, rfl⟩, rfl, rfl⟩
  exact List.mem_cons_of_mem _ (List.mem_cons_of_mem _ List.mem_cons_self)

end SdbController
