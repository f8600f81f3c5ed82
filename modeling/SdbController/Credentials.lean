import SdbController.Transport

/-!
# The root credentials of a Cluster

Three functions resolve the root credentials of a Cluster: `bootstrap_root_user` from the snapshot
it was started with, and the lookups of the Database and of the User controller from the Cluster as
it is stored then. They are one function of the Cluster and its Secret, errors included.

That they agree over time rests on two registers that are written once. `spec.rootSecret` is the
user's or, if there was none, names the Secret of the controller; and a Secret is only ever created.

## Main results

* `one_root_credential` — any two resolutions in a run agree, and the three functions are the same
-/

namespace SdbController

open Interaction Program

/-! ### The three functions -/

namespace Cluster

/-- Which Secret holds the credentials: the one the user named, or the controller's. -/
def rootName (x : Cluster) : Option String :=
  match x.spec.rootSecret with
  | some ref => ref.name
  | none => some x.rootSecretName

/-- What `spec.rootSecret` of the Cluster `x` may become: it stays, or the controller fills it
in. -/
def MayRefer (x : Cluster) (r : Option SecretReference) : Prop :=
  r = x.spec.rootSecret ∨
    (x.spec.rootSecret = none ∧ r = some ⟨some x.rootSecretName, some x.ns⟩)

theorem MayRefer.name {x : Cluster} {r : Option SecretReference} (hr : x.MayRefer r) {n : String}
    (hn : r.bind SecretReference.name = some n) : x.rootName = some n := by
  rw [rootName]
  rcases hr with rfl | ⟨hnone, rfl⟩
  · cases href : x.spec.rootSecret with
    | none =>
      rw [href] at hn
      cases hn
    | some ref =>
      rw [href] at hn
      exact hn
  · rw [hnone]
    exact hn

end Cluster

/-- A successful `bootstrap_root_user` resolution read the Secret that the snapshot names. -/
theorem Cluster.bootstrapCredentials_meets (c : Cluster) :
    c.bootstrapCredentials.run.Meets (fun _ _ => True) (fun h r => ∀ cred, r = .ok cred →
      ∃ n sec, h = [Cluster.replied (.getSecret ⟨c.ns, n⟩) (.ok sec)] ∧
        c.spec.rootSecret.bind SecretReference.name = some n ∧ sec.credentials = some cred) [] := by
  simp only [Cluster.bootstrapCredentials, meets_except_bind, Reconciler.meets_okOr,
    Reconciler.meets_call_api]
  refine ⟨fun n hn => ⟨trivial, fun sec => ⟨fun cred hcred cred' heq => ?_, ?_⟩, ?_⟩, ?_⟩
  · cases heq
    exact ⟨n, sec, rfl, hn, hcred⟩
  · intro _ _ heq
    cases heq
  · intro _ _ heq
    cases heq
  · intro _ _ heq
    cases heq

/-- A successful lookup read the Cluster, and the Secret that the Cluster names. -/
theorem Database.getRootCredentials_meets (clusterNs clusterName : String) :
    (Database.getRootCredentials clusterNs clusterName).run.Meets (fun _ _ => True)
      (fun h r => ∀ cred, r = .ok cred → ∃ n sec y,
        h = [Cluster.replied (.getSecret ⟨clusterNs, n⟩) (.ok sec),
          Cluster.replied (.getCluster ⟨clusterNs, clusterName⟩) (.ok y)] ∧
        y.spec.rootSecret.bind SecretReference.name = some n ∧ sec.credentials = some cred) [] := by
  rw [Database.getRootCredentials_eq]
  simp only [meets_except_bind, Reconciler.meets_call_api]
  refine ⟨trivial, fun y => ?_, fun e cred heq => by cases heq⟩
  -- behind the Cluster, it is the resolution of a snapshot of it
  refine ((Cluster.bootstrapCredentials_meets _).append _).mono (fun _ _ _ => trivial) ?_
  rintro h r ⟨new, rfl, hnew⟩ cred hcred
  obtain ⟨n, sec, rfl, hn, hsec⟩ := hnew cred hcred
  exact ⟨n, sec, y, rfl, hn, hsec⟩

/-! ### The three controllers together -/

/-- What an invocation was started for. -/
inductive Resource
  | cluster (c : Cluster)
  | database (d : Database)
  | user (u : User)

/-- What the environment may do: anything but edit or remove the Cluster `x`'s root reference or its
root Secret. -/
structure RootEnv (x : Cluster) (s s' : Store) : Prop where
  cluster : ∀ {y}, s.clusters x.key = some y → ∃ y', s'.clusters x.key = some y' ∧
    y'.spec.rootSecret = y.spec.rootSecret
  secret : ∀ {n sec}, x.rootName = some n → s.secrets ⟨x.ns, n⟩ = some sec →
    s'.secrets ⟨x.ns, n⟩ = some sec

/-- All three controllers at work on whatever is stored. -/
def controllers (libs : Externals) (client : Client) (srv : Server) (x : Cluster) :
    System Resource Reply (Except Error Action) Store where
  start s l p :=
    match l with
    | .cluster c => s.clusters c.key = some c ∧ p = c.reconcile.run
    | .database d => s.databases d.key = some d ∧ p = (d.reconcile libs client).run
    | .user u => s.users u.key = some u ∧ p = (u.reconcile libs client).run
  serve := Serves srv
  env := RootEnv x

/-- What an invocation may do, by what it was started for. -/
def Resource.Conduct (libs : Externals) (client : Client) :
    Resource → History Reply → Call → Prop
  | .cluster c => c.Conduct
  | .database d => d.Conduct libs client
  | .user u => u.Conduct libs client

/-- The invocation for `l`, with history `h`, has resolved the credentials of the Cluster at `k`. -/
def Resolves (k : ObjectKey) (l : Resource) (h : History Reply) (cred : String × String) : Prop :=
  ∃ run earlier, h = run ++ earlier ∧
    match l with
    | .cluster c => c.key = k ∧ Returns c.bootstrapCredentials.run run (.ok cred)
    | .database d => d.cluster = k ∧
      Returns (Database.getRootCredentials d.cluster.ns d.cluster.name).run run (.ok cred)
    | .user u => u.cluster = k ∧
      Returns (User.getRootCredentialsForCluster u.cluster.ns u.cluster.name).run run (.ok cred)

/-- Some invocation for `l` got the reply `a`. -/
def Seen (record : List (Resource × History Reply)) (l : Resource) (a : Σ q, Reply q) : Prop :=
  ∃ h, (l, h) ∈ record ∧ a ∈ h

theorem Seen.cases {record : List (Resource × History Reply)} {l l' : Resource}
    {h : History Reply} {e a : Σ q, Reply q} (hmem : (l, h) ∈ record)
    (hs : Seen ((l, e :: h) :: record) l' a) : (l' = l ∧ a = e) ∨ Seen record l' a := by
  obtain ⟨h', hh', ha⟩ := hs
  rcases List.mem_cons.mp hh' with heq | hold
  · cases heq
    rcases List.mem_cons.mp ha with rfl | ha
    · exact .inl ⟨rfl, rfl⟩
    · exact .inr ⟨h, hmem, ha⟩
  · exact .inr ⟨h', hold, ha⟩

/-- The two registers and what has been read from them. -/
structure Rooted (x : Cluster) (s : Store) (record : List (Resource × History Reply)) : Prop where
  stored : ∃ y, s.clusters x.key = some y ∧ x.MayRefer y.spec.rootSecret
  snapshot : ∀ c h, (.cluster c, h) ∈ record → c.key = x.key → x.MayRefer c.spec.rootSecret
  referred : ∀ l y, Seen record l (Cluster.replied (.getCluster x.key) (.ok y)) →
    x.MayRefer y.spec.rootSecret
  read : ∀ l n sec, x.rootName = some n →
    Seen record l (Cluster.replied (.getSecret ⟨x.ns, n⟩) (.ok sec)) →
    s.secrets ⟨x.ns, n⟩ = some sec

section Invariant

variable {libs : Externals} {client : Client} {srv : Server} {x : Cluster} {s s' : Store}
  {record : List (Resource × History Reply)} {l : Resource} {h : History Reply} {q : Call}
  {r : Reply q} {cred : String × String}

/-- What a resolution yields is in the Secret. -/
theorem Rooted.resolves (hI : Rooted x s record) (hmem : (l, h) ∈ record)
    (hr : Resolves x.key l h cred) : ∃ n sec, x.rootName = some n ∧
      s.secrets ⟨x.ns, n⟩ = some sec ∧ sec.credentials = some cred := by
  obtain ⟨run, earlier, rfl, hr⟩ := hr
  -- the lookups of the Database and the User controller are one program
  have lookup
      (hret : Returns (Database.getRootCredentials x.key.ns x.key.name).run run (.ok cred)) :
      ∃ n sec, x.rootName = some n ∧ s.secrets ⟨x.ns, n⟩ = some sec ∧
        sec.credentials = some cred := by
    obtain ⟨n, sec, y, hrun, hn, hcred⟩ :=
      (Database.getRootCredentials_meets x.key.ns x.key.name).of_after hret cred rfl
    have hy := hI.referred l y ⟨_, hmem, by rw [hrun]; simp⟩
    exact ⟨n, sec, hy.name hn, hI.read l n sec (hy.name hn)
      ⟨_, hmem, by rw [hrun]; exact List.mem_cons_self⟩, hcred⟩
  match l, hr with
  | .cluster c, ⟨hk, hret⟩ =>
    obtain ⟨n, sec, rfl, hn, hcred⟩ := c.bootstrapCredentials_meets.of_after hret cred rfl
    have hname := (hI.snapshot c _ hmem hk).name hn
    have hns : c.ns = x.ns := congrArg ObjectKey.ns hk
    refine ⟨n, sec, hname, hI.read _ n sec hname ⟨_, hmem, ?_⟩, hcred⟩
    rw [← hns]
    exact List.mem_cons_self
  | .database d, ⟨hk, hret⟩ =>
    rw [hk] at hret
    exact lookup hret
  | .user u, ⟨hk, hret⟩ =>
    rw [hk, User.getRootCredentialsForCluster_eq] at hret
    exact lookup hret

/-- Only a Cluster invocation without a root reference of its own sets one, to the Secret it created
under its own name. -/
theorem Resource.Conduct.replaces {k : ObjectKey} {ref : SecretReference}
    (hq : l.Conduct libs client h (.api (.replaceRootSecret k ref))) :
    ∃ c : Cluster, l = .cluster c ∧ c.spec.rootSecret = none ∧ k = c.key ∧
      ref = ⟨some c.rootSecretName, some c.ns⟩ := by
  match l, hq with
  | .cluster c, ⟨_, hnone, hk, hr⟩ => exact ⟨c, rfl, hnone, hk, hr⟩
  | .database d, hq => exact absurd trivial hq
  | .user u, hq => exact absurd trivial hq.1

/-- A call keeps the root reference one that is allowed. -/
theorem Rooted.stored_call (hI : Rooted x s record) (hmem : (l, h) ∈ record)
    (hq : l.Conduct libs client h q) (hs : Serves srv q s r s') :
    ∃ y, s'.clusters x.key = some y ∧ x.MayRefer y.spec.rootSecret := by
  obtain ⟨y, hy, href⟩ := hI.stored
  rcases hs.cases with rfl | ⟨rfl, -⟩
  · exact ⟨y, hy, href⟩
  rcases clusters_effect srv q s x.key with h | ⟨phase, -, h⟩ | ⟨ref, y', rfl, hy', -, h⟩
  · exact ⟨y, h.trans hy, href⟩
  · rw [hy] at h
    exact ⟨_, h, href⟩
  · obtain ⟨c, rfl, hnone, hk, rfl⟩ := hq.replaces
    -- the snapshot had no reference, so the user has given none
    have hroot : x.spec.rootSecret = none := by
      rcases hI.snapshot c _ hmem hk.symm with heq | ⟨heq, -⟩
      · exact heq.symm.trans hnone
      · exact heq
    have hname : c.rootSecretName = x.rootSecretName :=
      congrArg (fun k : ObjectKey => k.name ++ "-surrealdb-root") hk.symm
    have hns : c.ns = x.ns := congrArg ObjectKey.ns hk.symm
    exact ⟨_, h, .inr ⟨hroot, by rw [← hname, ← hns]; rfl⟩⟩

/-- A Secret that is there stays as it is. -/
theorem Serves.secret_stays (hs : Serves srv q s r s') {k : ObjectKey} {sec : Secret}
    (hsec : s.secrets k = some sec) : s'.secrets k = some sec := by
  rcases hs.cases with rfl | ⟨rfl, -⟩
  · exact hsec
  rcases secrets_effect srv q s k with h | ⟨_, -, -, hnone, -⟩
  · exact h.trans hsec
  · rw [hsec] at hnone
    cases hnone

/-- One call keeps the two registers and what is known of them. -/
theorem Rooted.call (hI : Rooted x s record) (hmem : (l, h) ∈ record)
    (hq : l.Conduct libs client h q) (hs : Serves srv q s r s') :
    Rooted x s' ((l, ⟨q, r⟩ :: h) :: record) where
  stored := hI.stored_call hmem hq hs
  snapshot c h' hc hk := by
    rcases List.mem_cons.mp hc with heq | hold
    · cases heq
      exact hI.snapshot c h hmem hk
    · exact hI.snapshot c h' hold hk
  referred l' y hseen := by
    rcases hseen.cases hmem with ⟨-, heq⟩ | hold
    · cases heq
      have hstored := lookup_eq_ok (congrArg Prod.fst (Serves.answered hs))
      obtain ⟨y', hy', href⟩ := hI.stored
      rw [hstored] at hy'
      cases hy'
      exact href
    · exact hI.referred l' y hold
  read l' n sec hn hseen := by
    rcases hseen.cases hmem with ⟨-, heq⟩ | hold
    · cases heq
      exact hs.secret_stays (lookup_eq_ok (congrArg Prod.fst (Serves.answered hs)))
    · exact hs.secret_stays (hI.read l' n sec hn hold)

end Invariant

/-- The outline of the proof. -/
def rootOutline (libs : Externals) (client : Client) (x : Cluster) :
    Outline Resource Reply (Except Error Action) Store where
  store := Rooted x
  task _ _ _ := True
  guard l := l.Conduct libs client

/-- Runs of the three controllers keep the two registers. -/
theorem root_preserves {ι : Type} (libs : Externals) (client : Client) (srv : Server)
    (x : Cluster) :
    (controllers libs client srv x).Preserves (fun s => s.clusters x.key = some x)
      (System.anyMove (ι := ι)) (rootOutline libs client x) where
  init hs := by
    refine ⟨⟨⟨x, hs, .inl rfl⟩, fun _ _ hmem => ?_, ?_, ?_⟩, trivial⟩
    · cases hmem
    · rintro _ _ ⟨_, hmem, -⟩
      cases hmem
    · rintro _ _ _ _ ⟨_, hmem, -⟩
      cases hmem
  env {c s'} hc _ he := by
    have hI : Rooted x c.store c.record := hc.store
    refine ⟨⟨?_, hI.snapshot, hI.referred, fun l n sec hn hseen => ?_⟩, fun _ _ _ _ _ => trivial,
      fun _ _ => trivial⟩
    · obtain ⟨y, hy, href⟩ := hI.stored
      obtain ⟨y', hy', hroot⟩ := he.cluster hy
      exact ⟨y', hy', hroot ▸ href⟩
    · exact he.secret hn (hI.read l n sec hn hseen)
  start {c i l p} hc _ _ hs := by
    have hI : Rooted x c.store c.record := hc.store
    have hseen {l' a} (h : Seen ((l, []) :: c.record) l' a) : Seen c.record l' a := by
      obtain ⟨h', hmem, ha⟩ := h
      rcases List.mem_cons.mp hmem with heq | hold
      · cases heq
        cases ha
      · exact ⟨h', hold, ha⟩
    refine ⟨⟨hI.stored, fun c' h' hmem hk => ?_, fun l y h => hI.referred l y (hseen h),
      fun l n sec hn h => hI.read l n sec hn (hseen h)⟩, trivial, ?_⟩
    · rcases List.mem_cons.mp hmem with heq | hold
      · cases heq
        obtain ⟨y, hy, href⟩ := hI.stored
        rw [← hk, hs.1] at hy
        cases hy
        exact href
      · exact hI.snapshot c' h' hold hk
    · match l, hs with
      | .cluster c, ⟨_, hp⟩ =>
        rw [hp]
        exact c.reconcile_meets.mono (fun _ _ => id) fun _ _ _ => trivial
      | .database d, ⟨_, hp⟩ =>
        rw [hp]
        exact (d.reconcile_meets libs client).mono (fun _ _ h => h.2) fun _ _ _ => trivial
      | .user u, ⟨_, hp⟩ =>
        rw [hp]
        exact (u.reconcile_meets libs client).mono (fun _ _ h => h.2) fun _ _ _ => trivial
  call hc hi hG _ hs := ⟨Rooted.call hc.store (hc.recorded hi) hG hs, trivial⟩
  frame _ _ _ _ _ _ := ⟨fun _ _ _ _ => trivial, fun _ => trivial⟩
  finish _ _ _ _ := trivial
  crash _ _ _ := trivial

/-- **One root credential per Cluster.** In every run of the three controllers, from a store in
which the Cluster `x` is as it was created, any two resolutions of its credentials agree; and the
three lookups are one program, so they fail alike. -/
theorem one_root_credential {ι : Type} [DecidableEq ι] (libs : Externals) (client : Client)
    (srv : Server) (x : Cluster)
    {c : Config ι Resource Reply (Except Error Action) Store}
    (hc : (controllers libs client srv x).Reachable (fun s => s.clusters x.key = some x)
      System.anyMove c) :
    (∀ l h cred l' h' cred', (l, h) ∈ c.record → (l', h') ∈ c.record →
      Resolves x.key l h cred → Resolves x.key l' h' cred' → cred = cred') ∧
    ∀ ns name,
      Database.getRootCredentials ns name = (do
        let cluster ← Reconciler.call (.getCluster ⟨ns, name⟩)
        Cluster.bootstrapCredentials { (cluster : Cluster) with ns := ns }) ∧
      User.getRootCredentialsForCluster ns name = Database.getRootCredentials ns name := by
  have hI : Rooted x c.store c.record := ((root_preserves libs client srv x).sound hc).store
  refine ⟨fun l h cred l' h' cred' hmem hmem' hr hr' => ?_, fun ns name =>
    ⟨Database.getRootCredentials_eq ns name, User.getRootCredentialsForCluster_eq ns name⟩⟩
  obtain ⟨n, sec, hn, hsec, hcred⟩ := hI.resolves hmem hr
  obtain ⟨n', sec', hn', hsec', hcred'⟩ := hI.resolves hmem' hr'
  obtain rfl : n = n' := Option.some.inj (hn.symm.trans hn')
  obtain rfl : sec = sec' := Option.some.inj (hsec.symm.trans hsec')
  exact Option.some.inj (hcred.symm.trans hcred')

/-- The Database and the User of the sample Cluster look its credentials up side by side. -/
theorem one_root_credential_shared : ∃ c : Config Bool Resource Reply (Except Error Action) Store,
    (∃ h, (.database sampleDatabase, h) ∈ c.record ∧
      Resolves sampleCluster.key (.database sampleDatabase) h ("root", "secret")) ∧
    (∃ h, (.user sampleUser, h) ∈ c.record ∧
      Resolves sampleCluster.key (.user sampleUser) h ("root", "secret")) ∧
    ∀ l h cred, (l, h) ∈ c.record → Resolves sampleCluster.key l h cred →
      cred = ("root", "secret") := by
  let sys := controllers sampleExternals .kube ⟨false⟩ sampleCluster
  let clean : Call → Bool := fun _ => false
  have serves (q : Call) (s : Store) :
      sys.serve q s (respond ⟨false⟩ clean q s).1 (respond ⟨false⟩ clean q s).2 :=
    serves_respond ⟨false⟩ clean q s
  have h₀ : sys.Reachable (fun s => s.clusters sampleCluster.key = some sampleCluster)
      System.anyMove (⟨tenantStore sampleUser, fun _ => none, []⟩ :
        Config Bool Resource Reply (Except Error Action) Store) := .init rfl
  have hstart : sys.start (tenantStore sampleUser) (.database sampleDatabase)
      (sampleDatabase.reconcile sampleExternals .kube).run := ⟨rfl, rfl⟩
  have hstart' : sys.start (tenantStore sampleUser) (.user sampleUser)
      (sampleUser.reconcile sampleExternals .kube).run := ⟨rfl, rfl⟩
  have h₁ := h₀.step trivial (.start (i := false) rfl hstart)
  have h₂ := h₁.step trivial (.start (i := true) rfl hstart')
  have h₃ := h₂.step trivial (.call (i := true) rfl (serves _ _))
  have h₄ := h₃.step trivial (.call (i := false) rfl (serves _ _))
  have h₅ := h₄.step trivial (.call (i := true) rfl (serves _ _))
  have h₆ := h₅.step trivial (.call (i := false) rfl (serves _ _))
  have h₇ := h₆.step trivial (.call (i := true) rfl (serves _ _))
  let reply (q : Call) : Reply q := (respond ⟨false⟩ clean q (tenantStore sampleUser)).1
  let lookup := (trace reply [] (Database.getRootCredentials "prod" "db").run).1
  let first : Σ q, Reply q := ⟨.api (.getDatabase sampleDatabase.key), reply _⟩
  have hlookup := After.start.trace reply (p := (Database.getRootCredentials "prod" "db").run)
  have hdatabase : Resolves sampleCluster.key (.database sampleDatabase) lookup
      ("root", "secret") := ⟨_, [], (List.append_nil _).symm, rfl, hlookup⟩
  have huser : Resolves sampleCluster.key (.user sampleUser) (lookup ++ [first])
      ("root", "secret") := ⟨_, _, rfl, rfl, hlookup⟩
  obtain ⟨c, hc, hmem, hmem'⟩ : ∃ c, sys.Reachable
      (fun s => s.clusters sampleCluster.key = some sampleCluster) System.anyMove c ∧
      (.database sampleDatabase, lookup) ∈ c.record ∧
      (.user sampleUser, lookup ++ [first]) ∈ c.record :=
    ⟨_, h₇, List.mem_cons_of_mem _ List.mem_cons_self, List.mem_cons_self⟩
  refine ⟨c, ⟨_, hmem, hdatabase⟩, ⟨_, hmem', huser⟩, fun l h cred hmem'' hr => ?_⟩
  exact (one_root_credential sampleExternals .kube ⟨false⟩ sampleCluster hc).1 _ _ _ _ _ _ hmem''
    hmem hr hdatabase

end SdbController
