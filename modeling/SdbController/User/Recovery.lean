import SdbController.StatusMessage

/-!
# Which Users become Ready

A User provisions in `New` and in `Error`. So whatever went wrong, one invocation in which nothing
does makes it Ready, with its Secret and its ConfigMap there: an invocation finds what an earlier
one created and carries on. What a User does not recover from is a change after it became Ready,
such as an edit of its spec or a lost Secret, for in `Ready` nothing is looked at any more.

A Database is not like this. It gives up for good at the first statement that is refused.

## Main results

* `user_recovers_iff` — the stores from which a User recovers, and the runs that lead to no other
  store
* `user_recovers_after_refusal` — the run that leaves a Database stuck, with a User in its place
-/

namespace SdbController

open Interaction Program

/-! ### Runs of the User controller -/

namespace User

variable (libs : Externals) (client : Client) (u : User)

/-- The Database that the User refers to. -/
def database : ObjectKey := ⟨u.dbNs, u.spec.databaseRef.name⟩

/-- Where the ConfigMap of the User is. -/
def configMapKey : ObjectKey := ⟨u.ns, u.name ++ "-config"⟩

/-- A statement that is to define the database user was accepted, whatever SurrealDB reads in its
text. -/
def Defined (audit : List Call) : Prop :=
  ∃ nsName dbName password q, u.MayChoose password ∧
    Asks libs client u.cluster (u.userSql nsName dbName password) q ∧ .http q ∈ audit

/-- The database user is defined, and its Secret and its ConfigMap are there. -/
structure Provided (s : Store) : Prop where
  defined : u.Defined libs client s.audit
  secret : (s.secrets u.secretKey).isSome
  configMap : (s.configMaps u.configMapKey).isSome

end User

/-- What the environment may do: anything but write the status of the User or remove it. -/
structure UserEdits (k : ObjectKey) (s s' : Store) : Prop where
  /-- The spec may be edited. Status and identity stay. -/
  user : ∀ {u}, s.users k = some u → ∃ spec, s'.users k = some { u with spec := spec }
  audit : s'.audit = s.audit

/-- A User that was never reconciled. -/
structure FreshUser (k : ObjectKey) (s : Store) : Prop where
  stored : ∃ u, s.users k = some u ∧ u.key = k ∧ u.phase = .new
  audit : s.audit = []

/-- Invocations of `User.reconcile`, each started from the stored User, whose spec and objects
others may change. -/
def editedUserSystem (libs : Externals) (client : Client) (srv : Server) (k : ObjectKey) :
    System User Reply (Except Error Action) Store where
  start s l p := s.users k = some l ∧ p = (l.reconcile libs client).run
  serve := Serves srv
  env := UserEdits k

/-- A configuration, with one process per element of `ι`. -/
abbrev UserRuns (ι : Type) : Type := Config ι User Reply (Except Error Action) Store

/-! ### From then on -/

/-- Phase `Ready`, with all that the spec asks for. -/
def UserReady (libs : Externals) (client : Client) (k : ObjectKey) (s : Store) : Prop :=
  ∃ u, s.users k = some u ∧ u.phase = .ready ∧ u.Provided libs client s

/-- The environment moves, and leaves the referenced Database and Cluster, with a root Secret that
can be read, at an address that can be parsed. -/
structure UserServiceable (libs : Externals) (k : ObjectKey) (s s' : Store) : Prop where
  env : UserEdits k s s'
  serves : ∃ u db cluster name sec cred, s'.users k = some u ∧
    s'.databases u.database = some db ∧ s'.clusters u.cluster = some cluster ∧
    cluster.spec.rootSecret.bind SecretReference.name = some name ∧
    s'.secrets ⟨u.cluster.ns, name⟩ = some sec ∧ sec.credentials = some cred ∧
    libs.Parses u.cluster.ns u.cluster.name

/-- One invocation with every call succeeding. A create may find its object there. -/
def UserInvoked (libs : Externals) (client : Client) (srv : Server) (k : ObjectKey)
    (s s' : Store) : Prop :=
  ∃ u x, s.users k = some u ∧ Completes (Answers srv Accepts) (u.reconcile libs client).run s x s'

/-- From then on all goes well, and some number of invocations later the User is Ready. -/
def UserRecovers (libs : Externals) (client : Client) (srv : Server) (k : ObjectKey) :
    Store → Prop :=
  Recovers (fun _ => UserServiceable libs k) (UserInvoked libs client srv k) (fun _ => True)
    (UserReady libs client k)

/-! ### What stays -/

/-- For `u` nothing is lost: no accepted statement, and neither its Secret nor its ConfigMap. -/
structure Keeps (u : User) (s s' : Store) : Prop where
  audit : ∀ c ∈ s.audit, c ∈ s'.audit
  secret : (s.secrets u.secretKey).isSome → (s'.secrets u.secretKey).isSome
  configMap : (s.configMaps u.configMapKey).isSome → (s'.configMaps u.configMapKey).isSome

section Keeps

variable {libs : Externals} {client : Client} {srv : Server} {k : ObjectKey} {u : User}
  {s s' : Store} {q : Call} {r : Reply q}

/-- The audit only grows, and no controller removes a Secret or a ConfigMap. -/
theorem Serves.keeps (hs : Serves srv q s r s') (u : User) : Keeps u s s' := by
  refine ⟨fun c hc => hs.audit_mono hc, fun hsome => ?_, fun hsome => ?_⟩
  · rcases hs.cases with rfl | ⟨rfl, -⟩
    · exact hsome
    · rcases secrets_effect srv q s u.secretKey with hsame | ⟨x, -, -, -, hnew⟩
      · rwa [hsame]
      · rw [hnew]
        rfl
  · rcases hs.cases with rfl | ⟨rfl, -⟩
    · exact hsome
    · rcases effect_cases srv q s with hsame | hleaves
      · rwa [hsame]
      · generalize effect srv q s = t at hleaves
        cases hleaves with
        | @configMap x hfree =>
          have hk : u.configMapKey ≠ x.metadata.key := by
            intro hk
            rw [hk, hfree] at hsome
            cases hsome
          exact (congrArg Option.isSome (Function.update_of_ne hk ..)).trans hsome
        | _ => exact hsome

/-- What is provided for a User does not depend on its status. -/
theorem User.Provided.withStatus (hp : u.Provided libs client s) (status : Option UserStatus) :
    ({ u with status := status } : User).Provided libs client s :=
  ⟨hp.defined, hp.secret, hp.configMap⟩

theorem User.Provided.keeps (hp : u.Provided libs client s) (hkeeps : Keeps u s s') :
    u.Provided libs client s' := by
  obtain ⟨nsName, dbName, password, q, hmay, hasks, hmem⟩ := hp.defined
  exact ⟨⟨nsName, dbName, password, q, hmay, hasks, hkeeps.audit _ hmem⟩,
    hkeeps.secret hp.secret, hkeeps.configMap hp.configMap⟩

end Keeps

/-! ### One invocation with every call succeeding -/

section Invocation

variable {libs : Externals} {client : Client} {srv : Server} {s s' : Store} {u : User}

/-- A create that is answered leaves an object there, the new one or the one it found. -/
theorem completes_created {q : ApiRequest} {α : Type} {get : Store → Option α} {a : α}
    {x : Except Error Unit} (hq : Creates srv q get a)
    (h : Completes (Answers srv Accepts) (Reconciler.createIfAbsent q).run s x s') :
    x = .ok () ∧ (get s').isSome ∧ s' = effect srv (.api q) s := by
  rcases (Reconciler.completes_createIfAbsent q).mp h with ⟨o, hans, rfl⟩ | ⟨e, hans, rfl⟩
  · refine ⟨rfl, ?_, congrArg Prod.snd hans⟩
    cases hget : get s with
    | none =>
      obtain ⟨o', t, hfree, ht⟩ := hq.free hget
      obtain rfl : s' = t := congrArg Prod.snd (Eq.trans hans hfree)
      rw [ht]
      rfl
    | some b =>
      obtain ⟨text, htaken⟩ := hq.taken hget
      cases Eq.trans hans htaken
  · cases hget : get s with
    | none =>
      obtain ⟨o, t, hfree, -⟩ := hq.free hget
      cases Eq.trans hans hfree
    | some b =>
      obtain ⟨text, htaken⟩ := hq.taken hget
      have hstore : s' = effect srv (.api q) s := congrArg Prod.snd hans
      cases Eq.trans hans htaken
      exact ⟨rfl, by rw [hget]; rfl, hstore⟩

/-- The same for a helper that goes on to return the object's name. -/
theorem completes_established {q : ApiRequest} {α : Type} {get : Store → Option α} {a : α}
    {name : String} {x : Except Error String} (hq : Creates srv q get a)
    (h : Completes (Answers srv Accepts)
      (do Reconciler.createIfAbsent q; pure name : Reconciler String).run s x s') :
    x = .ok name ∧ (get s').isSome ∧ s' = effect srv (.api q) s := by
  obtain ⟨y, t, hcreate, hrest⟩ := (completes_except_bind ..).mp h
  obtain ⟨rfl, hget, ht⟩ := completes_created hq hcreate
  obtain ⟨rfl, rfl⟩ := hrest
  exact ⟨rfl, hget, ht⟩

theorem User.completes_choosePassword {x : Except Error String}
    (h : Completes (Answers srv Accepts) u.choosePassword.run s x s') :
    ∃ password, x = .ok password ∧ u.MayChoose password ∧ s' = s := by
  rw [User.choosePassword] at h
  cases hp : u.spec.password with
  | some password =>
    rw [hp] at h
    obtain ⟨rfl, rfl⟩ := h
    refine ⟨password, rfl, ⟨fun p hsome => ?_, fun hnone => ?_⟩, rfl⟩
    · exact Option.some.inj (hp.symm.trans hsome)
    · cases hp.symm.trans hnone
  | none =>
    rw [hp] at h
    obtain ⟨y, t, hdraw, hrest⟩ := (completes_except_bind ..).mp h
    obtain ⟨d, hd, rfl⟩ := (Reconciler.completes_draw 20).mp hdraw
    obtain ⟨rfl, rfl⟩ := hrest
    refine ⟨d.password, rfl, ⟨fun p hsome => ?_, fun _ => ⟨d, rfl⟩⟩, hd⟩
    cases hp.symm.trans hsome

/-- From an accepted statement on: the Secret and the ConfigMap are there, and `Ready` is
written. -/
theorem User.completes_publish {password : String} {x : Except Error Action}
    (hu : s.users u.key = some u) (hdef : u.Defined libs client s.audit)
    (h : Completes (Answers srv Accepts) (u.publish password).run s x s') :
    UserReady libs client u.key s' := by
  rw [User.publish] at h
  obtain ⟨y, t, hsec, h₁⟩ := (completes_except_bind ..).mp h
  clear h
  obtain ⟨_, hsec', rfl⟩ := (Reconciler.completes_attempt ..).mp hsec
  obtain ⟨rfl, hsecret, ht⟩ := completes_established (creates_secret srv (u.secret password)) hsec'
  have hs : Serves srv (.api (.createSecret (u.secret password))) s
    (answer srv (.createSecret (u.secret password)) s).1 t := .inl (by rw [ht]; rfl)
  have hut : t.users u.key = some u := by
    rcases hs.user hu with hsame | ⟨_, _, heq, -⟩
    · exact hsame
    · cases heq
  obtain ⟨y, t', hmap, h₂⟩ := (completes_except_bind ..).mp h₁
  obtain ⟨_, hmap', rfl⟩ := (Reconciler.completes_attempt ..).mp hmap
  obtain ⟨rfl, hconfigMap, ht'⟩ :=
    completes_established (creates_configMap srv u.ownConfigMap) hmap'
  have hs' : Serves srv (.api (.createConfigMap u.ownConfigMap)) t
    (answer srv (.createConfigMap u.ownConfigMap) t).1 t' := .inl (by rw [ht']; rfl)
  have hut' : t'.users u.key = some u := by
    rcases hs'.user hut with hsame | ⟨_, _, heq, -⟩
    · exact hsame
    · cases heq
  obtain ⟨y, t'', hph, h₃⟩ := (completes_except_bind ..).mp h₂
  obtain ⟨_, hwrite, rfl⟩ := (Reconciler.completes_attempt ..).mp hph
  obtain ⟨-, rfl⟩ := (Reconciler.completes_answered (.mergeUserStatus u.key .ready none)).mp hwrite
  obtain ⟨-, rfl⟩ := h₃
  have hprovided : u.Provided libs client t' := by
    obtain ⟨nsName, dbName, p, q, hmay, hasks, hmem⟩ := hdef
    exact ⟨⟨nsName, dbName, p, q, hmay, hasks,
        (hs'.keeps u).audit _ ((hs.keeps u).audit _ hmem)⟩,
      (hs'.keeps u).secret hsecret, hconfigMap⟩
  have hs'' : Serves srv (.api (.mergeUserStatus u.key .ready none)) t'
    (answer srv (.mergeUserStatus u.key .ready none) t').1
    (answer srv (.mergeUserStatus u.key .ready none) t').2 := .inl rfl
  refine ⟨u.mergeStatus .ready none, ?_, rfl, (hprovided.keeps (hs''.keeps u)).withStatus _⟩
  simp only [answer, hut', Option.map_some, patched, Store.log, Function.update_self]

/-- With every call succeeding, the branch that provisions ends with phase `Ready`. -/
theorem User.completes_provision {db : Database} {cluster : Cluster} {name : String} {sec : Secret}
    {cred : String × String} {x : Except Error Action} (hu : s.users u.key = some u)
    (hdb : s.databases u.database = some db) (hcluster : s.clusters u.cluster = some cluster)
    (hname : cluster.spec.rootSecret.bind SecretReference.name = some name)
    (hsec : s.secrets ⟨u.cluster.ns, name⟩ = some sec) (hcred : sec.credentials = some cred)
    (hparses : libs.Parses u.cluster.ns u.cluster.name)
    (h : Completes (Answers srv Accepts) (u.provision libs client).run s x s') :
    UserReady libs client u.key s' := by
  obtain ⟨user, pass⟩ := cred
  rw [User.provision] at h
  obtain ⟨y, t, hget, h₁⟩ := (completes_except_bind ..).mp h
  clear h
  obtain ⟨rfl, rfl⟩ := (Reconciler.completes_answered (.getDatabase u.database)).mp hget
  simp only [answer, lookup, hdb, Except.mapError] at h₁
  obtain ⟨y, t, hcreds, h₂⟩ := (completes_except_bind ..).mp h₁
  clear h₁
  rw [User.getRootCredentialsForCluster_eq] at hcreds
  obtain ⟨rfl, rfl⟩ := Database.completes_getRootCredentials (k := u.cluster) hcluster hname hsec
    hcred hcreds
  obtain ⟨y, t', hchoose, h₃⟩ := (completes_except_bind ..).mp h₂
  clear h₂
  obtain ⟨password, rfl, hmay, rfl⟩ := User.completes_choosePassword hchoose
  obtain ⟨y, t'', hdefine, h₄⟩ := (completes_except_bind ..).mp h₃
  clear h₃
  obtain ⟨_, hsent, rfl⟩ := (Reconciler.completes_attempt ..).mp hdefine
  obtain ⟨request, hreq⟩ := sqlRequest_of_parses hparses client user pass
    (u.userSql (db.spec.dbNamespace.getD u.dbNs) (db.spec.dbName.getD db.name) password)
  obtain ⟨rfl, rfl⟩ := completes_accepted hreq hsent
  have hdefined : u.Defined libs client (t'.log (.http request.request)).audit :=
    ⟨_, _, password, request.request, hmay, ⟨user, pass, request, hreq, rfl⟩, List.mem_cons_self⟩
  exact User.completes_publish (s := t'.log (.http request.request)) hu hdefined h₄

end Invocation

/-! ### Exactly which stores recover -/

/-- The stores from which a User recovers: its phase is not `Ready`, or it is Ready with all that
its spec asks for. -/
def UserLive (libs : Externals) (client : Client) (k : ObjectKey) (s : Store) : Prop :=
  ∃ u, s.users k = some u ∧ (u.phase ≠ .ready ∨ u.Provided libs client s)

section Recovery

variable {libs : Externals} {client : Client} {srv : Server} {k : ObjectKey} {s : Store}

theorem UserLive.recovers (hkey : ∀ u, s.users k = some u → u.key = k)
    (hs : UserLive libs client k s) : UserRecovers libs client srv k s := by
  rintro σ τ rfl hrounds -
  obtain ⟨u, hu, hlive⟩ := hs
  by_cases hready : u.phase = .ready
  · exact ⟨0, u, hu, hready, hlive.resolve_left fun hne => hne hready⟩
  · obtain ⟨henv, u', db, cluster, name, sec, cred, hu', hdb, hcluster, hname, hsec, hcred,
      hparses⟩ := hrounds.env 0
    obtain ⟨spec, hspec⟩ := henv.user hu
    obtain rfl : u' = { u with spec := spec } := Option.some.inj (hu'.symm.trans hspec)
    obtain ⟨u'', x, hu'', hrun⟩ := hrounds.play 0
    obtain rfl : u'' = { u with spec := spec } := Option.some.inj (hu''.symm.trans hspec)
    have hk : ({ u with spec := spec } : User).key = k := hkey u hu
    have hbranch : ({ u with spec := spec } : User).reconcile libs client =
        ({ u with spec := spec } : User).provision libs client := by
      have hphase : ({ u with spec := spec } : User).phase = u.phase := rfl
      rw [User.reconcile, hphase]
      cases hp : u.phase with
      | new | error => rfl
      | ready => exact absurd hp hready
    rw [hbranch] at hrun
    refine ⟨1, ?_⟩
    rw [← hk]
    exact User.completes_provision (by rw [hk]; exact hu') hdb hcluster hname hsec hcred hparses
      hrun

/-- The store with all that `u` refers to, and no more under the keys of its own objects. -/
def withTenant (u : User) (s : Store) : Store :=
  let name := u.secretName ++ "-root"
  { s with
    databases := Function.update s.databases u.database
      (some { name := u.database.name, ns := u.dbNs, spec := { clusterRef := u.spec.clusterRef } })
    clusters := Function.update s.clusters u.cluster
      (some { name := u.cluster.name, ns := u.cluster.ns, uid := ""
              spec := { rootSecret := some ⟨some name, none⟩ } })
    secrets := Function.update s.secrets ⟨u.cluster.ns, name⟩
      (some (givenSecret u.cluster.ns name).stored) }

theorem userServiceable_withTenant {u : User} (hu : s.users k = some u)
    (hparses : libs.Parses u.cluster.ns u.cluster.name) :
    UserServiceable libs k s (withTenant u s) where
  env := ⟨fun {u'} hu' => ⟨u'.spec, hu'⟩, rfl⟩
  serves := ⟨u, _, _, _, _, _, hu, Function.update_self .., Function.update_self .., rfl,
    Function.update_self .., rfl, hparses⟩

/-- The objects that `u` refers to are none of its own. -/
theorem provided_withTenant {u : User} :
    u.Provided libs client (withTenant u s) ↔ u.Provided libs client s := by
  have hsecret : (withTenant u s).secrets u.secretKey = s.secrets u.secretKey := by
    refine Function.update_of_ne (fun heq => ?_) ..
    have hname : u.secretName = u.secretName ++ "-root" := congrArg ObjectKey.name heq
    have hlen := congrArg String.length hname
    rw [String.length_append] at hlen
    exact absurd hlen (Nat.ne_of_lt (Nat.lt_add_of_pos_right (by decide)))
  constructor
  · intro hp
    exact ⟨hp.defined, hsecret ▸ hp.secret, hp.configMap⟩
  · intro hp
    exact ⟨hp.defined, hsecret ▸ hp.secret, hp.configMap⟩

/-- A User that is Ready but not as it should be never recovers. -/
theorem UserLive.of_recovers {u : User} (hu : s.users k = some u)
    (hparses : libs.Parses u.cluster.ns u.cluster.name)
    (hrec : UserRecovers libs client srv k s) : UserLive libs client k s := by
  by_contra hdead
  have hready : u.phase = .ready := by
    by_contra hne
    exact hdead ⟨u, hu, .inl hne⟩
  have hnot : ¬ u.Provided libs client s := fun hp => hdead ⟨u, hu, .inr hp⟩
  -- nothing is looked at in `Ready`, whatever else there is
  refine not_recovers (J := fun _ t => t.users k = some u ∧ ¬ u.Provided libs client t) ?_ ?_
    ⟨hu, hnot⟩ hrec
  · rintro n t ⟨ht, hp⟩
    refine ⟨withTenant u t, withTenant u t, userServiceable_withTenant ht hparses,
      ⟨u, .ok ⟨180⟩, ht, ?_⟩, trivial, ht, fun hp' => hp (provided_withTenant.mp hp')⟩
    rw [User.reconcile, hready]
    exact ⟨rfl, rfl⟩
  · rintro _ t ⟨ht, hp⟩ ⟨u', hu', -, hp'⟩
    obtain rfl : u' = u := Option.some.inj (hu'.symm.trans ht)
    exact hp hp'

end Recovery

/-! ### Which runs lead to no other store -/

/-- Nobody else edits the User or removes its Secret or its ConfigMap, and the direct client gets no
response other than 2xx. Anything may fail, and any invocation may crash. -/
def LeftAlone {ι : Type} (client : Client) (k : ObjectKey) (c : UserRuns ι) :
    Move ι User Reply Store → Prop
  | .env s' => s'.users k = c.store.users k ∧ ∀ u, c.store.users k = some u → Keeps u c.store s'
  | .call _ _ _ (.http _) r _ => client = .kube ∨ ¬ HttpOutcome.IsRejection r
  | _ => True

/-- What an invocation for `l` knows: it has the stored spec, and what its calls were answered is
still so. -/
structure Faithful (client : Client) (k : ObjectKey) (l : User) (h : History Reply) (s : Store) :
    Prop where
  stored : ∃ status, s.users k = some { l with status := status }
  statement : ∀ q r, sent q r ∈ h → client.verdict r = .ok () → .http q ∈ s.audit
  secret : ∀ (password : String) (r : Except KubeError Unit),
    ⟨.api (.createSecret (l.secret password)), r⟩ ∈ h → Established r →
      (s.secrets l.secretKey).isSome
  configMap : ∀ r : Except KubeError Unit, ⟨.api (.createConfigMap l.ownConfigMap), r⟩ ∈ h →
    Established r → (s.configMaps l.configMapKey).isSome

section Runs

variable {ι : Type} {libs : Externals} {client : Client} {srv : Server} {k : ObjectKey}
  {s s' : Store} {l : User} {h : History Reply} {q : Call} {r : Reply q}

/-- After a create that is taken for a success there is an object. -/
theorem Creates.isSome {q : ApiRequest} {α : Type} {get : Store → Option α} {a : α}
    {r : Except KubeError q.Object} (hq : Creates srv q get a) (hs : Serves srv (.api q) s r s')
    (hr : Established r) : (get s').isSome := by
  rcases hq.served hs hr with ⟨-, hnew⟩ | ⟨hsome, rfl⟩
  · rw [hnew]
    rfl
  · exact hsome

/-- What an invocation knows lasts as long as nothing is lost. -/
theorem Faithful.keeps (hT : Faithful client k l h s)
    (hstored : ∃ status, s'.users k = some { l with status := status }) (hkeeps : Keeps l s s') :
    Faithful client k l h s' where
  stored := hstored
  statement q r hmem hr := hkeeps.audit _ (hT.statement q r hmem hr)
  secret password r hmem hr := hkeeps.secret (hT.secret password r hmem hr)
  configMap r hmem hr := hkeeps.configMap (hT.configMap r hmem hr)

/-- A call of any invocation leaves what another one knows. -/
theorem Faithful.frame (hT : Faithful client k l h s) (hs : Serves srv q s r s') :
    Faithful client k l h s' := by
  obtain ⟨status, hstored⟩ := hT.stored
  refine hT.keeps ?_ (hs.keeps l)
  rcases hs.user hstored with hsame | ⟨phase, message, -, hnew⟩
  · exact ⟨status, hsame⟩
  · exact ⟨_, hnew⟩

/-- A call of its own adds what it was answered. -/
theorem Faithful.call (hT : Faithful client k l h s) {c : UserRuns ι} {i : ι}
    (hok : LeftAlone client k c (.call i l h q r s')) (hs : Serves srv q s r s') :
    Faithful client k l (⟨q, r⟩ :: h) s' := by
  have hT' := hT.frame hs
  refine ⟨hT'.stored, fun q' r' hmem hr => ?_, fun password r' hmem hr => ?_, fun r' hmem hr => ?_⟩
  · rcases List.mem_cons.mp hmem with heq | hold
    · cases heq
      have hsuccess : HttpOutcome.IsSuccess r' := by
        rcases Client.verdict_eq_ok_iff.mp hr with hsuccess | ⟨hclient, hrej⟩
        · exact hsuccess
        · rcases hok with hkube | hno
          · rw [hkube] at hclient
            cases hclient
          · exact absurd hrej hno
      rw [(hs.accepted hsuccess).audit]
      exact List.mem_cons_self
    · exact hT'.statement q' r' hold hr
  · rcases List.mem_cons.mp hmem with heq | hold
    · cases heq
      exact (creates_secret srv (l.secret password)).isSome hs hr
    · exact hT'.secret password r' hold hr
  · rcases List.mem_cons.mp hmem with heq | hold
    · cases heq
      exact (creates_configMap srv l.ownConfigMap).isSome hs hr
    · exact hT'.configMap r' hold hr

/-- When the ConfigMap was created all is there. -/
theorem Faithful.provided (hT : Faithful client k l h s) {password : String}
    (hhas : l.HasConfigMap libs client h password) : l.Provided libs client s := by
  obtain ⟨r, h', rfl, hr, r', h'', rfl, hr', hmay, nsName, dbName, q, r'', h''', rfl, hasks,
    hverdict, -⟩ := hhas
  have hstatement := hT.statement q r'' (List.mem_cons_of_mem _
    (List.mem_cons_of_mem _ List.mem_cons_self)) hverdict
  exact ⟨⟨nsName, dbName, password, q, hmay, hasks, hstatement⟩,
    hT.secret password r' (List.mem_cons_of_mem _ List.mem_cons_self) hr',
    hT.configMap r List.mem_cons_self hr⟩

/-- A User that recovers goes on to, while its status stays and nothing is lost. -/
theorem UserLive.keeps {u : User} (hlive : UserLive libs client k s) (hu : s.users k = some u)
    (hu' : s'.users k = some u) (hkeeps : Keeps u s s') : UserLive libs client k s' := by
  obtain ⟨u₀, hu₀, hp⟩ := hlive
  obtain rfl : u₀ = u := Option.some.inj (hu₀.symm.trans hu)
  exact ⟨u₀, hu', hp.imp_right (·.keeps hkeeps)⟩

/-- `Ready` is written once all is there, and from any other phase a User recovers. -/
theorem Faithful.live (hT : Faithful client k l h s) (hlive : UserLive libs client k s)
    (hq : l.Conduct libs client h q) (hs : Serves srv q s r s') : UserLive libs client k s' := by
  obtain ⟨status, hstored⟩ := hT.stored
  rcases hs.user hstored with hsame | ⟨phase, message, rfl, hnew⟩
  · exact hlive.keeps hstored hsame (hs.keeps _)
  · refine ⟨_, hnew, ?_⟩
    obtain ⟨-, ⟨-, password, hhas⟩ | rfl⟩ := hq
    · exact .inr (((hT.provided hhas).keeps (hs.keeps l)).withStatus _)
    · exact .inl fun hready => nomatch hready

/-- The User stays stored under its key. -/
theorem Serves.user_stored (hs : Serves srv q s r s')
    (hu : ∃ u, s.users k = some u ∧ u.key = k) : ∃ u, s'.users k = some u ∧ u.key = k := by
  obtain ⟨u, hu, hk⟩ := hu
  rcases hs.user hu with hsame | ⟨phase, message, -, hnew⟩
  · exact ⟨u, hsame, hk⟩
  · exact ⟨_, hnew, hk⟩

/-- In every run the User stays stored. -/
theorem user_stored_preserves (libs : Externals) (client : Client) (srv : Server)
    (k : ObjectKey) :
    (editedUserSystem libs client srv k).Preserves (FreshUser k) (System.anyMove (ι := ι))
      { store := fun s _ => ∃ u, s.users k = some u ∧ u.key = k
        task := fun _ _ _ => True
        guard := fun l => l.Conduct libs client } where
  init hs := by
    obtain ⟨u, hu, hk, -⟩ := hs.stored
    exact ⟨⟨u, hu, hk⟩, trivial⟩
  env hc _ he := by
    obtain ⟨u, hu, hk⟩ := hc.store
    obtain ⟨spec, hspec⟩ := he.user hu
    exact ⟨⟨_, hspec, hk⟩, fun _ _ _ _ _ => trivial, fun _ _ => trivial⟩
  start hc _ _ hs := by
    obtain ⟨-, rfl⟩ := hs
    exact ⟨hc.store, trivial, ((User.reconcile_meets libs client _).mono (fun _ _ hq => hq.2)
      fun _ _ _ => trivial)⟩
  call hc _ _ _ hs := ⟨hs.user_stored hc.store, trivial⟩
  frame _ _ _ _ _ _ := ⟨fun _ _ _ _ => trivial, fun _ => trivial⟩
  finish _ _ _ _ := trivial
  crash _ _ _ := trivial

/-- A User that is left alone stays one that recovers. -/
theorem user_live_preserves (libs : Externals) (client : Client) (srv : Server) (k : ObjectKey) :
    (editedUserSystem libs client srv k).Preserves (FreshUser k) (LeftAlone (ι := ι) client k)
      { store := fun s _ => (∃ u, s.users k = some u ∧ u.key = k) ∧ UserLive libs client k s
        task := Faithful client k
        guard := fun l => l.Conduct libs client } where
  init hs := by
    obtain ⟨u, hu, hk, hnew⟩ := hs.stored
    refine ⟨⟨⟨u, hu, hk⟩, u, hu, .inl ?_⟩, trivial⟩
    rw [hnew]
    decide
  env {c s'} hc hm _ := by
    obtain ⟨hsame, hkeeps⟩ := hm
    obtain ⟨u, hu, hk⟩ := hc.store.1
    have hu' : s'.users k = some u := hsame.trans hu
    refine ⟨⟨⟨u, hu', hk⟩, hc.store.2.keeps hu hu' (hkeeps u hu)⟩, fun i l h p hi => ?_,
      fun _ _ => trivial⟩
    have hT : Faithful client k l h c.store := hc.task hi
    obtain ⟨status, hstored⟩ := hT.stored
    have hl := hkeeps _ hstored
    exact hT.keeps ⟨status, hsame.trans hstored⟩ ⟨hl.audit, hl.secret, hl.configMap⟩
  start {c i l p} hc _ _ hs := by
    obtain ⟨hl, rfl⟩ := hs
    refine ⟨hc.store, ⟨⟨l.status, hl⟩, fun _ _ hmem => ?_, fun _ _ hmem => ?_, fun _ hmem => ?_⟩,
      (User.reconcile_meets libs client l).mono (fun _ _ hq => hq.2) fun _ _ _ => trivial⟩
    · cases hmem
    · cases hmem
    · cases hmem
  call {c i l h q k' r s'} hc hi hG hm hs := by
    have hT : Faithful client k l h c.store := hc.task hi
    exact ⟨⟨hs.user_stored hc.store.1, hT.live hc.store.2 hG hs⟩, hT.call hm hs⟩
  frame {c i j l h q k' r s'} hc _ _ _ hs _ := by
    refine ⟨fun l' h' p' hj => ?_, fun _ => trivial⟩
    have hT : Faithful client k l' h' c.store := hc.task hj
    exact hT.frame hs
  finish _ _ _ _ := trivial
  crash _ _ _ := trivial

variable [DecidableEq ι]

/-- **Exactly which stores recover.** In every run, a User at an address that can be parsed becomes
Ready from then on if and only if it is not Ready yet or it is Ready as it should be. And a run in
which the User is left alone leads to no other store, whatever else fails in it and wherever an
invocation crashes. To be left alone includes that the direct client gets no response other than
2xx: it takes any response for success. -/
theorem user_recovers_iff (libs : Externals) (client : Client) (srv : Server) (k : ObjectKey) :
    (∀ c : UserRuns ι,
      (editedUserSystem libs client srv k).Reachable (FreshUser k) System.anyMove c →
      (∀ u, c.store.users k = some u → libs.Parses u.cluster.ns u.cluster.name) →
      (UserRecovers libs client srv k c.store ↔ UserLive libs client k c.store)) ∧
    ∀ c : UserRuns ι,
      (editedUserSystem libs client srv k).Reachable (FreshUser k) (LeftAlone client k) c →
      UserRecovers libs client srv k c.store := by
  have hkey {s : Store} (hs : ∃ u, s.users k = some u ∧ u.key = k) :
      ∀ u, s.users k = some u → u.key = k := by
    intro u hu
    obtain ⟨u', hu', hk⟩ := hs
    rw [hu'] at hu
    exact Option.some.inj hu ▸ hk
  refine ⟨fun c hc hparses => ?_, fun c hc => ?_⟩
  · have hstored := ((user_stored_preserves libs client srv k).sound hc).store
    constructor
    · intro hrec
      obtain ⟨u, hu, -⟩ := hstored
      exact .of_recovers hu (hparses u hu) hrec
    · intro hlive
      exact hlive.recovers (hkey hstored)
  · have hlive := ((user_live_preserves libs client srv k).sound hc).store
    exact hlive.2.recovers (hkey hlive.1)

end Runs

/-- `sampleUser` was reconciled while the server refused connections, and recovers nevertheless. -/
theorem user_recovers_after_refusal : ∃ c : UserRuns Unit,
    c.store.userPhase sampleUser.key = some .error ∧
    UserRecovers sampleExternals .kube ⟨false⟩ sampleUser.key c.store := by
  have h₀ : (editedUserSystem sampleExternals .kube ⟨false⟩ sampleUser.key).Settles
      (FreshUser sampleUser.key) (LeftAlone .kube sampleUser.key) (tenantStore sampleUser) :=
    .initial ⟨⟨sampleUser, rfl, rfl, rfl⟩, rfl⟩
  have hok : ∀ c m, System.Played (respond ⟨false⟩ sendsStatement) () sampleUser
      (sampleUser.reconcile sampleExternals .kube).run c m →
      LeftAlone .kube sampleUser.key c m := by
    rintro c m (_ | @⟨h, q, k, hp⟩ | _)
    · trivial
    · match q with
      | .http q => exact .inl rfl
      | .api q => trivial
      | .draw n => trivial
    · trivial
  obtain ⟨c, hc, -, hs⟩ := h₀.play (l := sampleUser) (serves_respond ⟨false⟩ sendsStatement) hok
    ⟨rfl, rfl⟩
  refine ⟨c, ?_, (user_recovers_iff sampleExternals .kube ⟨false⟩ sampleUser.key).2 c hc⟩
  rw [hs]
  decide

end SdbController
