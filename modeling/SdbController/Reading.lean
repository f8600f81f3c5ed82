import SdbController.Credentials

/-!
# Reading the root credentials

Three functions read `user` and `password` from the root Secret: `bootstrap_root_user`, and the
lookups of the Database and of the User controller. A missing entry is an error in all three. An
entry whose bytes are not UTF-8 is not: `from_utf8(…).unwrap_or_default()` makes it the empty
string, and the reader goes on with that.

## Main results

* `fromUtf8OrDefault_toUTF8_iff` — reading bytes as text is faithful if and only if they are UTF-8
* `Reader.faithful_iff` — for each reader, credentials are read as they are stored, or reading fails
  and nothing is sent, if and only if an entry is missing or both are UTF-8
-/

namespace SdbController

open Interaction Program

/-! ### Bytes and text -/

/-- **When reading bytes as text is faithful.** -/
theorem fromUtf8OrDefault_toUTF8_iff {b : ByteArray} :
    (fromUtf8OrDefault b).toUTF8 = b ↔ b.IsValidUTF8 := by
  constructor
  · intro h
    rw [← h]
    exact (fromUtf8OrDefault b).isValidUTF8
  · intro h
    rw [fromUtf8OrDefault, String.fromUTF8?, dif_pos h]
    rfl

namespace Secret

variable {sec : Secret} {cred : String × String}

/-- The texts are, byte for byte, what is stored under `user` and `password`. -/
def Holds (sec : Secret) (cred : String × String) : Prop :=
  sec.data.lookup "user" = some cred.1.toUTF8 ∧ sec.data.lookup "password" = some cred.2.toUTF8

/-- An entry is missing, or both of them are UTF-8. -/
def Legible (sec : Secret) : Prop :=
  ∀ u p, sec.data.lookup "user" = some u → sec.data.lookup "password" = some p →
    u.IsValidUTF8 ∧ p.IsValidUTF8

theorem Holds.legible (h : sec.Holds cred) : sec.Legible := by
  intro u p hu hp
  obtain rfl := Option.some.inj (hu.symm.trans h.1)
  obtain rfl := Option.some.inj (hp.symm.trans h.2)
  exact ⟨cred.1.isValidUTF8, cred.2.isValidUTF8⟩

theorem credentials_eq_some (h : sec.credentials = some cred) : ∃ u p,
    sec.data.lookup "user" = some u ∧ sec.data.lookup "password" = some p ∧
      cred = (fromUtf8OrDefault u, fromUtf8OrDefault p) := by
  rw [credentials] at h
  split at h
  · next u p hu hp => exact ⟨u, p, hu, hp, (Option.some.inj h).symm⟩
  · cases h

/-- What is read from a legible Secret is what it holds. -/
theorem Legible.holds (hsec : sec.Legible) (h : sec.credentials = some cred) : sec.Holds cred := by
  obtain ⟨u, p, hu, hp, rfl⟩ := credentials_eq_some h
  obtain ⟨hu', hp'⟩ := hsec u p hu hp
  refine ⟨?_, ?_⟩
  · rw [hu, fromUtf8OrDefault_toUTF8_iff.mpr hu']
  · rw [hp, fromUtf8OrDefault_toUTF8_iff.mpr hp']

/-- With an entry missing, there is nothing to be read. -/
theorem legible_of_none (h : sec.credentials = none) : sec.Legible := by
  intro u p hu hp
  rw [credentials, hu, hp] at h
  cases h

end Secret

/-! ### The readers -/

/-- The root Secret was read, and this was in it. -/
def ReadSecret (sec : Secret) (h : History Reply) : Prop :=
  ∃ k, Cluster.replied (.getSecret k) (.ok sec) ∈ h

/-- The credentials that a reader returned are those of a Secret that it read. -/
def ReadsOf (h : History Reply) (x : Except Error (String × String)) : Prop :=
  ∀ cred, x = .ok cred → ∃ sec, ReadSecret sec h ∧ sec.credentials = some cred

namespace Cluster

variable (c : Cluster)

theorem bootstrapCredentials_reads :
    c.bootstrapCredentials.run.Meets (fun _ _ => True) ReadsOf [] := by
  refine c.bootstrapCredentials_meets.mono (fun _ _ => id) fun h x hx cred hcred => ?_
  obtain ⟨n, sec, rfl, -, hsec⟩ := hx cred hcred
  exact ⟨sec, ⟨_, List.mem_singleton_self _⟩, hsec⟩

/-- A run that finds the Secret and its entries. -/
theorem bootstrapCredentials_returns {n : String} {sec : Secret} {cred : String × String}
    (hn : c.spec.rootSecret.bind SecretReference.name = some n)
    (hsec : sec.credentials = some cred) :
    Returns c.bootstrapCredentials.run [replied (.getSecret ⟨c.ns, n⟩) (.ok sec)] (.ok cred) := by
  have hstart : After c.bootstrapCredentials.run [] c.bootstrapCredentials.run := .start
  rw [bootstrapCredentials] at hstart ⊢
  rw [hn] at hstart ⊢
  have hread : After _ _ (Reconciler.okOr sec.credentials Error.missingRootCredentials).run :=
    After.reply (R := Reply) (c := .api (.getSecret ⟨c.ns, n⟩)) (.ok sec : Except KubeError Secret)
      hstart
  rw [hsec] at hread
  exact hread

end Cluster

namespace Database

variable (clusterNs clusterName : String)

theorem getRootCredentials_reads :
    (Database.getRootCredentials clusterNs clusterName).run.Meets (fun _ _ => True) ReadsOf [] := by
  refine (getRootCredentials_meets clusterNs clusterName).mono (fun _ _ => id)
    fun h x hx cred hcred => ?_
  obtain ⟨n, sec, y, rfl, -, hsec⟩ := hx cred hcred
  exact ⟨sec, ⟨_, List.mem_cons_self⟩, hsec⟩

/-- A run that finds the Cluster, the Secret and its entries. -/
theorem getRootCredentials_returns {y : Cluster} {n : String} {sec : Secret}
    {cred : String × String} (hn : y.spec.rootSecret.bind SecretReference.name = some n)
    (hsec : sec.credentials = some cred) :
    Returns (getRootCredentials clusterNs clusterName).run
      [Cluster.replied (.getSecret ⟨clusterNs, n⟩) (.ok sec),
        Cluster.replied (.getCluster ⟨clusterNs, clusterName⟩) (.ok y)] (.ok cred) := by
  have hstart : After (getRootCredentials clusterNs clusterName).run []
    (getRootCredentials clusterNs clusterName).run := .start
  rw [getRootCredentials_eq] at hstart ⊢
  have hcluster : After _ _ (Cluster.bootstrapCredentials { y with ns := clusterNs }).run :=
    After.reply (R := Reply) (c := .api (.getCluster ⟨clusterNs, clusterName⟩))
      (.ok y : Except KubeError Cluster) hstart
  exact hcluster.trans (Cluster.bootstrapCredentials_returns _ hn hsec)

end Database

/-! ### Reading and then sending -/

/-- An invocation sent its statements with credentials that it read, or it failed without sending
any. -/
def SendsRead {α : Type} (uses : String × String → HttpRequest → Prop) (h : History Reply)
    (x : Except Error α) : Prop :=
  (∃ sec cred, ReadSecret sec h ∧ sec.credentials = some cred ∧
    ∀ q a, sent q a ∈ h → uses cred q) ∨ ((∃ e, x = .error e) ∧ ∀ q a, sent q a ∉ h)

/-- The rule for an invocation that begins by reading the credentials. -/
theorem meets_read_then {α : Type} {read : Reconciler (String × String)}
    {k : String × String → Reconciler α} {uses : String × String → HttpRequest → Prop}
    (hreads : Reconciler.Calls Call.IsRead read)
    (hread : read.run.Meets (fun _ _ => True) ReadsOf [])
    (hk : ∀ cred, Reconciler.Calls (SendsOnly (uses cred)) (k cred)) {h₀ : History Reply}
    (hh : Quiet h₀) :
    (read >>= k).run.Meets (fun _ _ => True) (SendsRead uses) h₀ := by
  rw [meets_except_bind]
  have hquiet := (hreads h₀).invariant (I := Quiet) (fun _ _ r hh hq => hh.cons hq.isPassive r) hh
  refine ((hread.append h₀).and hquiet).mono (fun _ _ _ => trivial) ?_
  rintro h x ⟨⟨run, rfl, hrun⟩, hquiet, -⟩
  cases x with
  | error e => exact .inr ⟨⟨e, rfl⟩, fun q a hq => hquiet _ hq⟩
  | ok cred =>
    obtain ⟨sec, ⟨key, hkey⟩, hsec⟩ := hrun cred rfl
    -- from here on there are only statements with these credentials
    refine ((hk cred _).invariant (I := fun h => ReadSecret sec h ∧
      ∀ q a, sent q a ∈ h → uses cred q) ?_ ⟨⟨key, List.mem_append_left _ hkey⟩, ?_⟩).mono
      (fun _ _ _ => trivial) fun h' y hy => .inl ⟨sec, cred, hy.1.1, hsec, hy.1.2⟩
    · rintro h' q r ⟨⟨key, hkey⟩, huses⟩ hq
      refine ⟨⟨key, List.mem_cons_of_mem _ hkey⟩, fun q' a hmem => ?_⟩
      rcases List.mem_cons.mp hmem with heq | hmem
      · cases heq
        exact hq
      · exact huses q' a hmem
    · exact fun q a hq => absurd hq (hquiet _)

/-- Sent to the Cluster at `k`, with the credentials in the header. -/
def LogsIn (libs : Externals) (client : Client) (k : ObjectKey) (cred : String × String)
    (q : HttpRequest) : Prop :=
  ∃ sql request, sqlRequest libs client k.ns k.name cred.1 cred.2 sql = .ok request ∧
    q = request.request

theorem Cluster.bootstrapRootUser_sendsRead (c : Cluster) (name : String) :
    (c.bootstrapRootUser name).run.Meets (fun _ _ => True)
      (SendsRead fun cred q => q = c.bootstrapRequest name cred.1 cred.2) [] := by
  refine meets_read_then c.bootstrapCredentials_calls c.bootstrapCredentials_reads ?_ .nil
  exact fun ⟨user, pass⟩ => .bind (.http rfl) fun _ => .ofExcept _

theorem Database.provision_sendsRead (libs : Externals) (client : Client) (d : Database) :
    (d.provision libs client).run.Meets (fun _ _ => True)
      (SendsRead (LogsIn libs client d.cluster)) [] := by
  refine meets_read_then (getRootCredentials_calls _ _) (getRootCredentials_reads _ _) ?_ .nil
  rintro ⟨user, pass⟩
  refine .bind (.attempt (calls_sendSql fun request h => ⟨_, request, h, rfl⟩)) ?_
  rintro (e | ⟨⟩)
  · exact .discard (.call trivial) _
  refine .bind (.attempt (calls_sendSql fun request h => ⟨_, request, h, rfl⟩)) ?_
  rintro (e | ⟨⟩)
  · exact .discard (.call trivial) _
  · exact .discard (.call trivial) _

theorem User.provision_sendsRead (libs : Externals) (client : Client) (u : User) :
    (u.provision libs client).run.Meets (fun _ _ => True)
      (SendsRead (LogsIn libs client u.cluster)) [] := by
  rw [provision, meets_except_bind, Reconciler.meets_call_api]
  have hdb : (Call.api (.getDatabase ⟨u.dbNs, u.spec.databaseRef.name⟩)).IsPassive := id
  refine ⟨trivial, fun db => ?_, fun e => .inr ⟨⟨_, rfl⟩, fun q a hq => ?_⟩⟩
  · refine meets_read_then (Database.getRootCredentials_calls _ _)
      (Database.getRootCredentials_reads _ _) ?_ (Quiet.nil.cons hdb _)
    rintro ⟨user, pass⟩
    refine .bind (u.choosePassword_calls trivial) fun password => ?_
    refine .bind (.attempt (calls_sendSql fun request h => ⟨_, request, h, rfl⟩)) ?_
    rintro (e | ⟨⟩)
    · exact .discard (.call trivial) _
    · exact u.publish_calls password trivial trivial (fun _ => trivial) trivial
  · cases List.mem_singleton.mp hq

/-! ### The three readers -/

/-- A function that reads the root credentials, with what sends statements with them. -/
inductive Reader
  | bootstrapRootUser (c : Cluster) (name : String)
  | getRootCredentials (libs : Externals) (client : Client) (d : Database)
  | getRootCredentialsForCluster (libs : Externals) (client : Client) (u : User)

namespace Reader

/-- The reading. -/
def read : Reader → Reconciler (String × String)
  | bootstrapRootUser c _ => c.bootstrapCredentials
  | getRootCredentials _ _ d => Database.getRootCredentials d.clusterNs d.spec.clusterRef.name
  | getRootCredentialsForCluster _ _ u =>
    User.getRootCredentialsForCluster u.clusterNs u.spec.clusterRef.name

def Result : Reader → Type
  | bootstrapRootUser .. => Unit
  | getRootCredentials .. | getRootCredentialsForCluster .. => Action

/-- The whole of it: `bootstrap_root_user`, or the branch of the reconciler that begins so. -/
def run : (r : Reader) → Reconciler r.Result
  | bootstrapRootUser c name => c.bootstrapRootUser name
  | getRootCredentials libs client d => d.provision libs client
  | getRootCredentialsForCluster libs client u => u.provision libs client

/-- The statement is sent with the credentials, in the text or in the header. -/
def Uses : Reader → String × String → HttpRequest → Prop
  | bootstrapRootUser c name, cred, q => q = c.bootstrapRequest name cred.1 cred.2
  | getRootCredentials libs client d, cred, q => LogsIn libs client d.cluster cred q
  | getRootCredentialsForCluster libs client u, cred, q => LogsIn libs client u.cluster cred q

/-- There is a Secret to be read. Only `bootstrap_root_user` knows that from the start. -/
def Refers : Reader → Prop
  | bootstrapRootUser c _ => (c.spec.rootSecret.bind SecretReference.name).isSome
  | _ => True

variable (r : Reader)

theorem run_sendsRead : r.run.run.Meets (fun _ _ => True) (SendsRead r.Uses) [] := by
  cases r with
  | bootstrapRootUser c name => exact c.bootstrapRootUser_sendsRead name
  | getRootCredentials libs client d => exact d.provision_sendsRead libs client
  | getRootCredentialsForCluster libs client u => exact u.provision_sendsRead libs client

theorem read_reads : r.read.run.Meets (fun _ _ => True) ReadsOf [] := by
  cases r with
  | bootstrapRootUser c name => exact c.bootstrapCredentials_reads
  | getRootCredentials libs client d => exact Database.getRootCredentials_reads _ _
  | getRootCredentialsForCluster libs client u => exact Database.getRootCredentials_reads _ _

/-- No Secret but this one was read. -/
def OnlySecret (sec : Secret) (h : History Reply) : Prop := ∀ sec', ReadSecret sec' h → sec' = sec

/-- With a Secret to be read, its credentials can be. -/
theorem exists_returns (hrefers : r.Refers) {sec : Secret} {cred : String × String}
    (hsec : sec.credentials = some cred) :
    ∃ h, Returns r.read.run h (.ok cred) ∧ OnlySecret sec h := by
  have hnamed : ∃ y : Cluster, y.spec.rootSecret.bind SecretReference.name = some "root" :=
    ⟨{ name := "", ns := "", uid := "", spec := { rootSecret := some ⟨some "root", none⟩ } }, rfl⟩
  have honly {k : ObjectKey} {h : History Reply} (hh : ∀ sec', ¬ ReadSecret sec' h) :
      OnlySecret sec (Cluster.replied (.getSecret k) (.ok sec) :: h) := by
    rintro sec' ⟨k', hk'⟩
    rcases List.mem_cons.mp hk' with heq | hk'
    · cases heq
      rfl
    · exact absurd ⟨k', hk'⟩ (hh sec')
  have hlookup (ns name : String) : ∃ h,
      Returns (Database.getRootCredentials ns name).run h (.ok cred) ∧ OnlySecret sec h := by
    obtain ⟨y, hy⟩ := hnamed
    refine ⟨_, Database.getRootCredentials_returns ns name hy hsec, honly ?_⟩
    rintro sec' ⟨k, hk⟩
    cases List.mem_singleton.mp hk
  cases r with
  | bootstrapRootUser c name =>
    obtain ⟨n, hn⟩ := Option.isSome_iff_exists.mp hrefers
    refine ⟨_, c.bootstrapCredentials_returns hn hsec, honly ?_⟩
    rintro sec' ⟨k, hk⟩
    cases hk
  | getRootCredentials libs client d => exact hlookup _ _
  | getRootCredentialsForCluster libs client u => exact hlookup _ _

/-- What is asked of a reader when the root Secret is `sec`: it returns credentials that are, byte
for byte, what is stored, or it fails; and statements are sent with such credentials, or else the
function fails and has sent none. -/
structure Faithful (r : Reader) (sec : Secret) : Prop where
  reads : ∀ h x, Returns r.read.run h x → OnlySecret sec h →
    (∃ cred, x = .ok cred ∧ sec.Holds cred) ∨ ∃ e, x = .error e
  sends : ∀ h x, Returns r.run.run h x → OnlySecret sec h →
    (∃ cred, sec.Holds cred ∧ ∀ q a, sent q a ∈ h → r.Uses cred q) ∨
      ((∃ e, x = .error e) ∧ ∀ q a, sent q a ∉ h)

theorem faithful_of_legible {sec : Secret} (hsec : sec.Legible) : r.Faithful sec where
  reads h x hret honly := by
    cases x with
    | error e => exact .inr ⟨e, rfl⟩
    | ok cred =>
      obtain ⟨sec', hread, hcred⟩ := r.read_reads.of_after hret cred rfl
      obtain rfl := honly sec' hread
      exact .inl ⟨cred, rfl, hsec.holds hcred⟩
  sends h x hret honly := by
    refine (r.run_sendsRead.of_after hret).imp_left ?_
    rintro ⟨sec', cred, hread, hcred, huses⟩
    obtain rfl := honly sec' hread
    exact ⟨cred, hsec.holds hcred, huses⟩

/-- Without a reference there is nothing to read, and that is an error at once. -/
theorem faithful_of_not_refers (h : ¬ r.Refers) (sec : Secret) : r.Faithful sec := by
  cases r with
  | bootstrapRootUser c name =>
    have hnone : c.spec.rootSecret.bind SecretReference.name = none :=
      Option.not_isSome_iff_eq_none.mp h
    have hread : c.bootstrapCredentials.run.Meets (fun _ _ => True)
        (fun _ x => ∃ e, x = .error e) [] := by
      rw [Cluster.bootstrapCredentials]
      rw [hnone]
      exact ⟨_, rfl⟩
    have hrun : (c.bootstrapRootUser name).run.Meets (fun _ _ => True)
        (fun h x => h = [] ∧ ∃ e, x = .error e) [] := by
      rw [Cluster.bootstrapRootUser, Cluster.bootstrapCredentials]
      rw [hnone]
      exact ⟨rfl, _, rfl⟩
    refine ⟨fun h x hret _ => .inr (hread.of_after hret), fun h x hret _ => .inr ?_⟩
    obtain ⟨rfl, herr⟩ := hrun.of_after hret
    exact ⟨herr, fun _ _ => List.not_mem_nil⟩
  | getRootCredentials libs client d => exact absurd trivial h
  | getRootCredentialsForCluster libs client u => exact absurd trivial h

/-- **When credentials are read faithfully, or reading fails**: an entry is missing, or both are
UTF-8. -/
theorem faithful_iff (sec : Secret) : r.Faithful sec ↔ sec.Legible ∨ ¬ r.Refers := by
  constructor
  · intro h
    refine or_iff_not_imp_right.mpr fun hrefers => ?_
    cases hsec : sec.credentials with
    | none => exact Secret.legible_of_none hsec
    | some cred =>
      obtain ⟨h', hret, honly⟩ := r.exists_returns (not_not.mp hrefers) hsec
      rcases h.reads h' _ hret honly with ⟨cred', -, hholds⟩ | ⟨e, he⟩
      · exact hholds.legible
      · cases he
  · rintro (hsec | hrefers)
    · exact r.faithful_of_legible hsec
    · exact r.faithful_of_not_refers hrefers sec

end Reader

/-! ### A password that is not UTF-8 -/

def garbledSecret : Secret where
  metadata := { name := "root", ns := "prod" }
  type := "Opaque"
  data := [("password", ⟨#[0xFF]⟩), ("user", "root".toUTF8)]

/-- A password that is not UTF-8 becomes the empty one, and the root user is defined with it. -/
theorem Cluster.bootstrapRootUser_empties (c : Cluster) {n : String} (sec : Secret)
    {u p : ByteArray} (name : String) (hn : c.spec.rootSecret.bind SecretReference.name = some n)
    (hu : sec.data.lookup "user" = some u) (hp : sec.data.lookup "password" = some p)
    (hbad : ¬ p.IsValidUTF8) (a : HttpOutcome) :
    Returns (c.bootstrapRootUser name).run
      [sent (c.bootstrapRequest name (fromUtf8OrDefault u) "") a,
        replied (.getSecret ⟨c.ns, n⟩) (.ok sec)] ((requestText a).mapError .kubeError) := by
  have hempty : fromUtf8OrDefault p = "" := by
    rw [fromUtf8OrDefault, String.fromUTF8?, dif_neg hbad]
    rfl
  have hsec : sec.credentials = some (fromUtf8OrDefault u, "") := by
    rw [Secret.credentials, hu, hp]
    simp only [hempty]
  have hread := (c.bootstrapCredentials_returns hn hsec).except_bind fun cred =>
    (do
      let r ← Reconciler.http (c.bootstrapRequest name cred.1 cred.2)
      Reconciler.ofExcept ((requestText r).mapError .kubeError) : Reconciler Unit)
  exact After.reply (R := Reply) (c := .http (c.bootstrapRequest name (fromUtf8OrDefault u) "")) a
    hread

theorem garbled_not_valid : ¬ ByteArray.IsValidUTF8 ⟨#[0xFF]⟩ := fun h =>
  absurd (h.isUTF8FirstByte_getElem_zero (by decide)) (by decide)

/-- The root user of a Secret with a password is defined without one. -/
theorem garbled_password_emptied :
    ¬ (Reader.bootstrapRootUser sampleCluster sampleCluster.name).Faithful garbledSecret ∧
      ∃ h x a, Returns (sampleCluster.bootstrapRootUser sampleCluster.name).run h x ∧
        ReadSecret garbledSecret h ∧
        sent (sampleCluster.bootstrapRequest sampleCluster.name "root" "") a ∈ h := by
  constructor
  · intro h
    have hsec : garbledSecret.credentials =
        some (fromUtf8OrDefault "root".toUTF8, fromUtf8OrDefault ⟨#[0xFF]⟩) := rfl
    obtain ⟨h', hret, honly⟩ :=
      (Reader.bootstrapRootUser sampleCluster sampleCluster.name).exists_returns rfl hsec
    rcases h.reads h' _ hret honly with ⟨cred, -, hholds⟩ | ⟨e, he⟩
    · exact garbled_not_valid (hholds.legible _ _ rfl rfl).2
    · cases he
  · have hret := sampleCluster.bootstrapRootUser_empties garbledSecret sampleCluster.name
      (n := "root") rfl rfl rfl garbled_not_valid (.failed "")
    rw [fromUtf8OrDefault_toUTF8] at hret
    exact ⟨_, _, _, hret, ⟨_, List.mem_cons_of_mem _ List.mem_cons_self⟩, List.mem_cons_self⟩

end SdbController
