import SdbController.Interaction.Rounds
import SdbController.Transport

/-!
# Which Databases become Ready

From then on everything succeeds: `Serviceable` is the environment in which the referenced Cluster
and its root Secret exist, and `Answers` the server. A Database whose phase is one that
provisions then becomes Ready in one invocation. One whose phase is `Error` never does, since no
branch leaves `Error`, and one that is Ready already is never provisioned again.

## Main results

* `database_recovers_iff` — the stores from which a Database recovers, and the runs that lead to no
  other store
* `database_stuck` — one refused connection, and the Database never becomes Ready
-/

namespace SdbController

open Interaction Program

/-! ### Runs of the Database controller -/

/-- What the environment may do: anything but write the status of the Database or remove it. -/
structure DatabaseEnv (k : ObjectKey) (s s' : Store) : Prop where
  /-- The spec may be edited. Status and identity stay. -/
  database : ∀ {d}, s.databases k = some d → ∃ spec, s'.databases k = some { d with spec := spec }
  audit : s'.audit = s.audit

/-- A Database that was never reconciled. -/
structure FreshDatabase (k : ObjectKey) (s : Store) : Prop where
  stored : ∃ d, s.databases k = some d ∧ d.key = k ∧ d.phase = .new
  audit : s.audit = []

/-- Invocations of `Database.reconcile`, each started from the stored Database. -/
def databaseSystem (libs : Externals) (client : Client) (srv : Server) (k : ObjectKey) :
    System Database Reply (Except Error Action) Store where
  start s l p := s.databases k = some l ∧ p = (l.reconcile libs client).run
  serve := Serves srv
  env := DatabaseEnv k

/-- A configuration, with one process per element of `ι`. -/
abbrev DatabaseRun (ι : Type) : Type := Config ι Database Reply (Except Error Action) Store

/-! ### From then on -/

/-- The statement was accepted, whatever SurrealDB reads in its text. -/
def Database.Defined (libs : Externals) (client : Client) (d : Database) (audit : List Call)
    (sql : Sql) : Prop := ∃ q, Asks libs client d.cluster sql q ∧ .http q ∈ audit

/-- The statements that are to define the namespace and the database were both accepted. -/
def Database.Provisioned (libs : Externals) (client : Client) (d : Database) (audit : List Call) :
    Prop :=
  d.Defined libs client audit d.namespaceSql ∧ d.Defined libs client audit d.databaseSql

/-- Phase `Ready` with both the namespace and the database defined. -/
def DatabaseReady (libs : Externals) (client : Client) (k : ObjectKey) (s : Store) : Prop :=
  ∃ d, s.databases k = some d ∧ d.phase = .ready ∧ d.Provisioned libs client s.audit

/-- The environment moves, and leaves the referenced Cluster with a root Secret that can be read, at
an address that can be parsed. -/
structure Serviceable (libs : Externals) (k : ObjectKey) (s s' : Store) : Prop where
  env : DatabaseEnv k s s'
  serves : ∃ d cluster name sec cred, s'.databases k = some d ∧
    s'.clusters d.cluster = some cluster ∧
    cluster.spec.rootSecret.bind SecretReference.name = some name ∧
    s'.secrets ⟨d.cluster.ns, name⟩ = some sec ∧ sec.credentials = some cred ∧
    libs.Parses d.cluster.ns d.cluster.name

/-- One invocation with every call succeeding. -/
def DatabaseInvoked (libs : Externals) (client : Client) (srv : Server) (k : ObjectKey)
    (s s' : Store) : Prop :=
  ∃ d x, s.databases k = some d ∧
    Completes (Answers srv Accepts) (d.reconcile libs client).run s x s'

/-- From then on all goes well, and some number of invocations later the Database is Ready. -/
def DatabaseRecovers (libs : Externals) (client : Client) (srv : Server) (k : ObjectKey) :
    Store → Prop :=
  Recovers (fun _ => Serviceable libs k) (DatabaseInvoked libs client srv k) (fun _ => True)
    (DatabaseReady libs client k)

/-! ### One invocation with every call succeeding -/

section Invocation

variable {libs : Externals} {client : Client} {srv : Server} {k : ObjectKey} {s s' : Store}
  {d : Database}

/-- A statement is accepted. -/
theorem completes_accepted {clusterNs clusterName user pass : String} {sql : Sql}
    {request : Request} {x : Except Error Unit}
    (hreq : sqlRequest libs client clusterNs clusterName user pass sql = .ok request)
    (h : Completes (Answers srv Accepts)
      (sendSql libs client clusterNs clusterName user pass sql).run s x s') :
    x = .ok () ∧ s' = s.log (.http request.request) := by
  rw [completes_sendSql] at h
  rcases h with ⟨request', hreq', r, ⟨hr, rfl⟩, rfl⟩ | ⟨e, he, -⟩
  · rw [hreq] at hreq'
    cases hreq'
    exact ⟨Client.verdict_eq_ok_iff.mpr (.inl hr), rfl⟩
  · rw [hreq] at he
    cases he

/-- With every call succeeding, the branch that provisions ends with phase `Ready`. -/
theorem Database.completes_provision {cluster : Cluster} {name : String} {sec : Secret}
    {cred : String × String} {x : Except Error Action} (hd : s.databases d.key = some d)
    (hcluster : s.clusters d.cluster = some cluster)
    (hname : cluster.spec.rootSecret.bind SecretReference.name = some name)
    (hsec : s.secrets ⟨d.cluster.ns, name⟩ = some sec) (hcred : sec.credentials = some cred)
    (hparses : libs.Parses d.cluster.ns d.cluster.name)
    (h : Completes (Answers srv Accepts) (d.provision libs client).run s x s') :
    DatabaseReady libs client d.key s' := by
  obtain ⟨user, pass⟩ := cred
  obtain ⟨request, hreq⟩ := sqlRequest_of_parses hparses client user pass d.namespaceSql
  obtain ⟨request', hreq'⟩ := sqlRequest_of_parses hparses client user pass d.databaseSql
  rw [Database.provision] at h
  obtain ⟨y, t, hcreds, h₁⟩ := (completes_except_bind ..).mp h
  clear h
  obtain ⟨rfl, rfl⟩ := Database.completes_getRootCredentials hcluster hname hsec hcred hcreds
  obtain ⟨y, t', hns, h₂⟩ := (completes_except_bind ..).mp h₁
  obtain ⟨_, hsent, rfl⟩ := (Reconciler.completes_attempt ..).mp hns
  obtain ⟨rfl, rfl⟩ := completes_accepted hreq hsent
  obtain ⟨y, t', hdb, h₃⟩ := (completes_except_bind ..).mp h₂
  obtain ⟨_, hsent', rfl⟩ := (Reconciler.completes_attempt ..).mp hdb
  obtain ⟨rfl, rfl⟩ := completes_accepted hreq' hsent'
  obtain ⟨y, t', hph, h₄⟩ := (completes_except_bind ..).mp h₃
  obtain ⟨_, hwrite, rfl⟩ := (Reconciler.completes_attempt ..).mp hph
  obtain ⟨-, rfl⟩ :=
    (Reconciler.completes_answered (.mergeDatabaseStatus d.key .ready none)).mp hwrite
  obtain ⟨-, rfl⟩ := h₄
  simp only [answer, Store.log, hd, Option.map_some, patched]
  refine ⟨d.mergeStatus .ready none, Function.update_self .., rfl,
    ⟨request.request, ⟨user, pass, request, hreq, rfl⟩, ?_⟩,
    ⟨request'.request, ⟨user, pass, request', hreq', rfl⟩, ?_⟩⟩
  · simp
  · simp

end Invocation

/-! ### Exactly which stores recover -/

/-- The stores from which a Database recovers: its phase is one that provisions, or it is Ready with
all that its spec asks for. -/
def DatabaseLive (libs : Externals) (client : Client) (k : ObjectKey) (s : Store) : Prop :=
  ∃ d, s.databases k = some d ∧ (d.phase = .new ∨ d.phase = .inProgress ∨
    (d.phase = .ready ∧ d.Provisioned libs client s.audit))

section Recovery

variable {libs : Externals} {client : Client} {srv : Server} {k : ObjectKey} {s : Store}

theorem DatabaseLive.recovers (hkey : ∀ d, s.databases k = some d → d.key = k)
    (hs : DatabaseLive libs client k s) : DatabaseRecovers libs client srv k s := by
  rintro σ τ rfl hrounds -
  obtain ⟨d, hd, hphase⟩ := hs
  by_cases hready : d.phase = .ready ∧ d.Provisioned libs client (σ 0).audit
  · exact ⟨0, d, hd, hready⟩
  · have hprov : d.phase = .new ∨ d.phase = .inProgress := by
      rcases hphase with hp | hp | hp
      · exact .inl hp
      · exact .inr hp
      · exact absurd hp hready
    obtain ⟨henv, d', cluster, name, sec, cred, hd', hcluster, hname, hsec, hcred, hparses⟩ :=
      hrounds.env 0
    obtain ⟨spec, hspec⟩ := henv.database hd
    obtain rfl : d' = { d with spec := spec } := Option.some.inj (hd'.symm.trans hspec)
    obtain ⟨d'', x, hd'', hrun⟩ := hrounds.play 0
    obtain rfl : d'' = { d with spec := spec } := Option.some.inj (hd''.symm.trans hspec)
    have hk : ({ d with spec := spec } : Database).key = k := hkey d hd
    have hbranch : ({ d with spec := spec } : Database).reconcile libs client =
        ({ d with spec := spec } : Database).provision libs client := by
      have hphase' : ({ d with spec := spec } : Database).phase = d.phase := rfl
      rw [Database.reconcile]
      rw [hphase']
      rcases hprov with hp | hp <;> rw [hp]
    rw [hbranch] at hrun
    refine ⟨1, ?_⟩
    rw [← hk]
    exact Database.completes_provision (by rw [hk]; exact hd') hcluster hname hsec hcred hparses
      hrun

/-- The store with a Cluster at `k` whose root Secret can be read. -/
def withCluster (k : ObjectKey) (s : Store) : Store :=
  { s with
    clusters := Function.update s.clusters k
      (some { sampleCluster with name := k.name, ns := k.ns })
    secrets := Function.update s.secrets ⟨k.ns, "root"⟩ (some (givenSecret k.ns "root").stored) }

theorem serviceable_withCluster {d : Database} (hd : s.databases k = some d)
    (hparses : libs.Parses d.cluster.ns d.cluster.name) :
    Serviceable libs k s (withCluster d.cluster s) where
  env := ⟨fun {d'} hd' => ⟨d'.spec, hd'⟩, rfl⟩
  serves := ⟨d, _, "root", _, _, hd, Function.update_self .., rfl, Function.update_self .., rfl,
    hparses⟩

/-- A Database that is not provisioned any more and not Ready as it should be never recovers. -/
theorem DatabaseLive.of_recovers {d : Database} (hd : s.databases k = some d)
    (hparses : libs.Parses d.cluster.ns d.cluster.name)
    (hrec : DatabaseRecovers libs client srv k s) : DatabaseLive libs client k s := by
  by_contra hdead
  have hphase : d.phase = .ready ∨ d.phase = .error := by
    cases hp : d.phase with
    | new => exact absurd ⟨d, hd, .inl hp⟩ hdead
    | inProgress => exact absurd ⟨d, hd, .inr (.inl hp)⟩ hdead
    | ready => exact .inl rfl
    | error => exact .inr rfl
  -- the Database and the audit stay as they are, whatever else there is
  refine not_recovers (J := fun _ t => t.databases k = some d ∧ t.audit = s.audit) ?_ ?_ ⟨hd, rfl⟩
    hrec
  · rintro n t ⟨ht, ha⟩
    refine ⟨withCluster d.cluster t, withCluster d.cluster t, serviceable_withCluster ht hparses,
      ?_, trivial, ht, ha⟩
    rcases hphase with hp | hp
    · refine ⟨d, .ok ⟨120⟩, ht, ?_⟩
      rw [Database.reconcile]
      rw [hp]
      exact ⟨rfl, rfl⟩
    · refine ⟨d, .ok ⟨30⟩, ht, ?_⟩
      rw [Database.reconcile]
      rw [hp]
      exact ⟨rfl, rfl⟩
  · rintro _ t ⟨ht, ha⟩ ⟨d', hd', hready, hprov⟩
    obtain rfl : d' = d := Option.some.inj (hd'.symm.trans ht)
    exact hdead ⟨d', hd, .inr (.inr ⟨hready, ha ▸ hprov⟩)⟩

end Recovery

/-! ### Which runs lead to no other store -/

/-- Every statement is answered with 2xx, the spec of the Database is not edited, and the addresses
can be parsed. -/
def Welcomed {ι : Type} (libs : Externals) (k : ObjectKey) (c : DatabaseRun ι) :
    Move ι Database Reply Store → Prop
  | .env s' => s'.databases k = c.store.databases k
  | .start _ l => libs.Parses l.cluster.ns l.cluster.name
  | .call _ _ _ (.http _) r _ => HttpOutcome.IsSuccess r
  | _ => True

/-- What a welcomed invocation knows: it has the stored spec, and its statements were accepted. -/
structure Welcoming (libs : Externals) (k : ObjectKey) (l : Database) (h : History Reply)
    (s : Store) : Prop where
  stored : ∃ status, s.databases k = some { l with status := status }
  parses : libs.Parses l.cluster.ns l.cluster.name
  accepted : ∀ q r, sent q r ∈ h → r.IsSuccess ∧ .http q ∈ s.audit

section Runs

variable {ι : Type} {libs : Externals} {client : Client} {srv : Server} {k : ObjectKey}
  {s s' : Store} {l : Database} {h : History Reply} {q : Call} {r : Reply q}

/-- The audit only grows. -/
theorem Serves.audit_mono (hs : Serves srv q s r s') {c : Call} (hc : c ∈ s.audit) :
    c ∈ s'.audit := by
  rcases hs.audit_cases with ha | ha
  · rwa [ha]
  · rw [ha]
    exact List.mem_cons_of_mem _ hc

/-- The stored Database keeps its spec, and changes its phase only by a status write. -/
theorem Serves.database (hs : Serves srv q s r s') {d : Database} (hd : s.databases k = some d) :
    s'.databases k = some d ∨ ∃ phase message, q = .api (.mergeDatabaseStatus k phase message) ∧
      s'.databases k = some (d.mergeStatus phase message) := by
  rcases hs.cases with rfl | ⟨rfl, -⟩
  · exact .inl hd
  rcases databases_effect srv q s k with hsame | ⟨phase, message, rfl, hnew⟩
  · exact .inl (hsame.trans hd)
  · rw [hd] at hnew
    exact .inr ⟨phase, message, rfl, hnew⟩

theorem Database.Provisioned.mono {d : Database} {audit audit' : List Call}
    (hp : d.Provisioned libs client audit) (hmono : ∀ c ∈ audit, c ∈ audit') :
    d.Provisioned libs client audit' := by
  obtain ⟨⟨q, hq, hmem⟩, q', hq', hmem'⟩ := hp
  exact ⟨⟨q, hq, hmono _ hmem⟩, q', hq', hmono _ hmem'⟩

theorem DatabaseLive.mono {d : Database} (hs : DatabaseLive libs client k s)
    (hd : s.databases k = some d) (hd' : s'.databases k = some d)
    (hmono : ∀ c ∈ s.audit, c ∈ s'.audit) : DatabaseLive libs client k s' := by
  obtain ⟨d₀, hd₀, hp⟩ := hs
  obtain rfl : d₀ = d := Option.some.inj (hd₀.symm.trans hd)
  exact ⟨d₀, hd', hp.imp_right (Or.imp_right (And.imp_right (·.mono hmono)))⟩

/-- A call of any welcomed invocation leaves what another one knows. -/
theorem Welcoming.frame {l : Database} {h : History Reply} (hT : Welcoming libs k l h s)
    (hs : Serves srv q s r s') : Welcoming libs k l h s' := by
  obtain ⟨status, hstored⟩ := hT.stored
  refine ⟨?_, hT.parses, fun q r hmem => ⟨(hT.accepted q r hmem).1,
    hs.audit_mono (hT.accepted q r hmem).2⟩⟩
  rcases hs.database hstored with hsame | ⟨phase, message, -, hnew⟩
  · exact ⟨status, hsame⟩
  · exact ⟨_, hnew⟩

/-- A successful statement is among those accepted. -/
theorem Welcoming.call (hT : Welcoming libs k l h s) {c : DatabaseRun ι} {i : ι}
    (hok : Welcomed libs k c (.call i l h q r s')) (hs : Serves srv q s r s') :
    Welcoming libs k l (⟨q, r⟩ :: h) s' := by
  have hT' := hT.frame hs
  refine ⟨hT'.stored, hT.parses, fun q' r' hmem => ?_⟩
  rcases List.mem_cons.mp hmem with heq | hold
  · cases heq
    have hsuccess : HttpOutcome.IsSuccess r' := hok
    refine ⟨hsuccess, ?_⟩
    rw [(hs.accepted hsuccess).audit]
    exact List.mem_cons_self
  · exact hT'.accepted q' r' hold

/-- `Ready` is written once both statements were accepted, and `Error` never. -/
theorem Welcoming.live (hT : Welcoming libs k l h s)
    (hlive : DatabaseLive libs client k s) (hq : l.Conduct libs client h q)
    (hs : Serves srv q s r s') : DatabaseLive libs client k s' := by
  obtain ⟨status, hstored⟩ := hT.stored
  rcases hs.database hstored with hsame | ⟨phase, message, rfl, hnew⟩
  · exact hlive.mono hstored hsame fun c hc => hs.audit_mono hc
  · have hgood (q : HttpRequest) (r : HttpOutcome) (hmem : sent q r ∈ h) :
        client.verdict r = .ok () :=
      Client.verdict_eq_ok_iff.mpr (.inl (hT.accepted q r hmem).1)
    obtain ⟨-, ⟨rfl, hdb⟩ | ⟨rfl, hbad⟩⟩ := hq
    · obtain ⟨q', r', h', rfl, hasks', -, q'', r'', h'', rfl, hasks'', -⟩ := hdb
      have hns := (hT.accepted q'' r'' (List.mem_cons_of_mem _ List.mem_cons_self)).2
      have hdb := (hT.accepted q' r' List.mem_cons_self).2
      exact ⟨_, hnew, .inr (.inr ⟨rfl, ⟨q'', hasks'', hs.audit_mono hns⟩,
        q', hasks', hs.audit_mono hdb⟩)⟩
    · rcases hbad with ⟨q', r', h', rfl, hverdict⟩ | ⟨user, pass, sql, e, he⟩
      · exact absurd (hgood q' r' List.mem_cons_self) hverdict
      · obtain ⟨request, hreq⟩ := sqlRequest_of_parses hT.parses client user pass sql
        rw [hreq] at he
        cases he

/-- The Database stays stored under its key. -/
theorem Serves.database_stored (hs : Serves srv q s r s')
    (hd : ∃ d, s.databases k = some d ∧ d.key = k) : ∃ d, s'.databases k = some d ∧ d.key = k := by
  obtain ⟨d, hd, hk⟩ := hd
  rcases hs.database hd with hsame | ⟨phase, message, -, hnew⟩
  · exact ⟨d, hsame, hk⟩
  · exact ⟨_, hnew, hk⟩

/-- In every run the Database stays stored. -/
theorem stored_preserves (libs : Externals) (client : Client) (srv : Server) (k : ObjectKey) :
    (databaseSystem libs client srv k).Preserves (FreshDatabase k) (System.anyMove (ι := ι))
      { store := fun s _ => ∃ d, s.databases k = some d ∧ d.key = k
        task := fun _ _ _ => True
        guard := fun l => l.Conduct libs client } where
  init hs := by
    obtain ⟨d, hd, hk, -⟩ := hs.stored
    exact ⟨⟨d, hd, hk⟩, trivial⟩
  env hc _ he := by
    obtain ⟨d, hd, hk⟩ := hc.store
    obtain ⟨spec, hspec⟩ := he.database hd
    exact ⟨⟨_, hspec, hk⟩, fun _ _ _ _ _ => trivial, fun _ _ => trivial⟩
  start hc _ _ hs := by
    obtain ⟨-, rfl⟩ := hs
    exact ⟨hc.store, trivial, ((Database.reconcile_meets libs client _).mono (fun _ _ h => h.2)
      fun _ _ _ => trivial)⟩
  call hc _ _ _ hs := ⟨hs.database_stored hc.store, trivial⟩
  frame _ _ _ _ _ _ := ⟨fun _ _ _ _ => trivial, fun _ => trivial⟩
  finish _ _ _ _ := trivial
  crash _ _ _ := trivial

/-- In a welcomed run the Database stays one that recovers. -/
theorem live_preserves (libs : Externals) (client : Client) (srv : Server) (k : ObjectKey) :
    (databaseSystem libs client srv k).Preserves (FreshDatabase k) (Welcomed (ι := ι) libs k)
      { store := fun s _ => (∃ d, s.databases k = some d ∧ d.key = k) ∧
          DatabaseLive libs client k s
        task := Welcoming libs k
        guard := fun l => l.Conduct libs client } where
  init hs := by
    obtain ⟨d, hd, hk, hnew⟩ := hs.stored
    exact ⟨⟨⟨d, hd, hk⟩, d, hd, .inl hnew⟩, trivial⟩
  env {c s'} hc hm he := by
    have hsame : s'.databases k = c.store.databases k := hm
    refine ⟨⟨?_, ?_⟩, fun i l h p hi => ?_, fun _ _ => trivial⟩
    · rw [hsame]
      exact hc.store.1
    · obtain ⟨d, hd, -⟩ := hc.store.1
      exact hc.store.2.mono hd (hsame.trans hd) fun x hx => he.audit ▸ hx
    · have hT : Welcoming libs k l h c.store := hc.task hi
      refine ⟨?_, hT.parses, fun q r hmem => ⟨(hT.accepted q r hmem).1, ?_⟩⟩
      · rw [hsame]
        exact hT.stored
      · rw [he.audit]
        exact (hT.accepted q r hmem).2
  start {c i l p} hc _ hm hs := by
    obtain ⟨hl, rfl⟩ := hs
    refine ⟨hc.store, ⟨⟨l.status, hl⟩, hm, fun q r hmem => ?_⟩,
      ((Database.reconcile_meets libs client l).mono (fun _ _ h => h.2) fun _ _ _ => trivial)⟩
    cases hmem
  call {c i l h q k' r s'} hc hi hG hm hs := by
    have hT : Welcoming libs k l h c.store := hc.task hi
    exact ⟨⟨hs.database_stored hc.store.1, hT.live hc.store.2 hG hs⟩, hT.call hm hs⟩
  frame {c i j l h q k' r s'} hc _ _ _ hs _ := by
    refine ⟨fun l' h' p' hj => ?_, fun _ => trivial⟩
    have hT : Welcoming libs k l' h' c.store := hc.task hj
    exact hT.frame hs
  finish _ _ _ _ := trivial
  crash _ _ _ := trivial

variable [DecidableEq ι]

/-- **Exactly which stores recover.** In every run, a Database at an address that can be parsed
becomes Ready from then on if and only if its phase is one that provisions or it is Ready as it
should be. And a run whose statements are all answered with 2xx leads to no other store. -/
theorem database_recovers_iff (libs : Externals) (client : Client) (srv : Server) (k : ObjectKey) :
    (∀ c : DatabaseRun ι,
      (databaseSystem libs client srv k).Reachable (FreshDatabase k) System.anyMove c →
      (∀ d, c.store.databases k = some d → libs.Parses d.cluster.ns d.cluster.name) →
      (DatabaseRecovers libs client srv k c.store ↔ DatabaseLive libs client k c.store)) ∧
    ∀ c : DatabaseRun ι,
      (databaseSystem libs client srv k).Reachable (FreshDatabase k) (Welcomed libs k) c →
      DatabaseRecovers libs client srv k c.store := by
  have hkey {s : Store} (hs : ∃ d, s.databases k = some d ∧ d.key = k) :
      ∀ d, s.databases k = some d → d.key = k := by
    intro d hd
    obtain ⟨d', hd', hk⟩ := hs
    rw [hd'] at hd
    exact Option.some.inj hd ▸ hk
  refine ⟨fun c hc hparses => ?_, fun c hc => ?_⟩
  · have hstored := ((stored_preserves libs client srv k).sound hc).store
    constructor
    · intro hrec
      obtain ⟨d, hd, -⟩ := hstored
      exact .of_recovers hd (hparses d hd) hrec
    · intro hlive
      exact hlive.recovers (hkey hstored)
  · have hlive := ((live_preserves libs client srv k).sound hc).store
    exact hlive.2.recovers (hkey hlive.1)

end Runs

/-! ### A stuck Database -/

/-- Any statement at all. -/
def sendsStatement : Call → Bool
  | .http _ => true
  | _ => false

/-- `sampleDatabase` was reconciled while the server refused connections. -/
theorem database_stuck : ∃ c : DatabaseRun Unit,
    (databaseSystem sampleExternals .kube ⟨false⟩ sampleDatabase.key).Reachable
      (FreshDatabase sampleDatabase.key) System.anyMove c ∧
    ¬ DatabaseRecovers sampleExternals .kube ⟨false⟩ sampleDatabase.key c.store := by
  have h₀ : (databaseSystem sampleExternals .kube ⟨false⟩ sampleDatabase.key).Settles
      (FreshDatabase sampleDatabase.key) System.anyMove (tenantStore sampleUser) :=
    .initial ⟨⟨sampleDatabase, rfl, rfl, rfl⟩, rfl⟩
  obtain ⟨c, hc, -, hs⟩ := h₀.play (l := sampleDatabase) (serves_respond ⟨false⟩ sendsStatement)
    (fun _ _ _ => trivial) ⟨rfl, rfl⟩
  refine ⟨c, hc, fun hrec => ?_⟩
  rw [hs] at hrec
  have hparses : sampleExternals.Parses "prod" "db" := by
    rw [Externals.Parses]
    decide
  obtain ⟨d, hd, hphase⟩ := DatabaseLive.of_recovers (d := sampleDatabase.mergeStatus .error
    (some "namespace define failed: Kube Error: connection reset")) rfl hparses hrec
  cases hd
  rcases hphase with hp | hp | ⟨hp, -⟩ <;> cases hp

end SdbController
