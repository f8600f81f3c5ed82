import SdbController.Injection
import SdbController.Transport

/-!
# The password that a User publishes

The Secret is only ever created, and the first one stays. SurrealDB is told a password in every
invocation that gets that far, and a new one each time unless the spec has one. So the two agree if
a new password is never sent to a SurrealDB that would take it in place of the one that is
published, or that would not take it in place of one that will not be.

What SurrealDB holds is read off the texts in the audit, with SurrealQL's lexical rules. A password
with a quote or a backslash is published as it is and read as another one. A statement about a user
that exists already may overwrite the password or keep it, and the results hold either way.

## Main results

* `ready_password_works` — a Ready User's password works if statements take effect only where that
  leaves SurrealDB with the password that is, or will be, published
* `ready_password_stale` — one lost ConfigMap, and a Ready User's password does not work
* `ready_password_misread` — nor does one with a backslash, with nothing lost
-/

namespace SdbController

open Interaction Lexing

/-! ### What SurrealDB holds -/

/-- What a statement does with the password of a user that is there already. -/
inductive Redefinition
  | overwrite
  | keep
deriving DecidableEq, Repr

/-- The password after a statement with the password `new`. -/
def Redefinition.apply : Redefinition → Option String → String → String
  | overwrite, _, new => new
  | keep, old, new => old.getD new

/-- A database user of some SurrealDB server. -/
structure DatabaseUser where
  uri : String
  nsName : String
  dbName : String
  username : String
deriving DecidableEq, Repr

/-- The statements of `provision_user`, as SurrealDB executes them. -/
def userStatements (nsName dbName username password : String) : List Statement :=
  [.useNs nsName, .useDb dbName, .defineDatabaseUser username password]

/-- What stands in the literals among the tokens. -/
def literals (ts : List Token) : List String :=
  ts.filterMap fun
    | .literal _ body => some (String.ofList body)
    | _ => none

instance (e : Escapes) (text : String) (statements : List Statement) :
    Decidable (Reads e text statements) := inferInstanceAs (Decidable (_ = _))

/-- The database user that SurrealDB defines when it is sent a text, and the password it gives. A
text that is read as anything else than the definition of one defines none. -/
def readUser (e : Escapes) (uri text : String) : Option (DatabaseUser × String) :=
  match (lex (surrealql e) text.toList).map literals with
  | some [nsName, dbName, username, password] =>
    if Reads e text (userStatements nsName dbName username password) then
      some (⟨uri, nsName, dbName, username⟩, password)
    else none
  | _ => none

/-- The database user that a call defines, and the password it gives. -/
def defines (e : Escapes) : Call → Option (DatabaseUser × String)
  | .http q => readUser e q.uri q.body.text
  | _ => none

/-- The password that SurrealDB holds for a database user. -/
def held (e : Escapes) (sem : Redefinition) (t : DatabaseUser) : List Call → Option String
  | [] => none
  | q :: audit =>
    match defines e q with
    | some (t', new) =>
      if t' = t then some (sem.apply (held e sem t audit) new) else held e sem t audit
    | none => held e sem t audit

/-- The database user that a call is to define, by the names it is built from. -/
def intended : Call → Option DatabaseUser
  | .http q =>
    match q.body with
    | .defineDatabaseUser nsName dbName username _ => some ⟨q.uri, nsName, dbName, username⟩
    | _ => none
  | _ => none

/-- The database user that was to be defined last. -/
def lastIntended (audit : List Call) : Option DatabaseUser := (audit.filterMap intended).head?

/-- A text that reads as the definition of a user defines it. -/
theorem readUser_of_reads {e : Escapes} {text nsName dbName username password : String}
    (h : Reads e text (userStatements nsName dbName username password)) (uri : String) :
    readUser e uri text = some (⟨uri, nsName, dbName, username⟩, password) := by
  have hlex : lex (surrealql e) text.toList =
      some ((userStatements nsName dbName username password).flatMap Statement.tokens) := h
  have hliterals : literals ((userStatements nsName dbName username password).flatMap
      Statement.tokens) = [nsName, dbName, username, password] := by
    simp [literals, userStatements, Statement.tokens, Statement.keyword, Statement.ident,
      Statement.string, String.ofList_toList]
  rw [readUser, hlex, Option.map_some, hliterals]
  exact if_pos h

section Audit

variable {e : Escapes} {sem : Redefinition} {q : Call} {audit : List Call} {t : DatabaseUser}
  {new : String}

theorem held_cons_of_none (hq : defines e q = none) (t : DatabaseUser) :
    held e sem t (q :: audit) = held e sem t audit := by
  rw [held, hq]

theorem held_cons_of_some (hq : defines e q = some (t, new)) (t' : DatabaseUser) :
    held e sem t' (q :: audit) =
      if t = t' then some (sem.apply (held e sem t' audit) new) else held e sem t' audit := by
  rw [held, hq]

theorem lastIntended_cons_of_none (hq : intended q = none) :
    lastIntended (q :: audit) = lastIntended audit := by
  rw [lastIntended, List.filterMap_cons_none hq, lastIntended]

theorem lastIntended_cons_of_some (hq : intended q = some t) :
    lastIntended (q :: audit) = some t := by
  rw [lastIntended, List.filterMap_cons_some hq]
  rfl

end Audit

/-! ### Runs of the User controller -/

/-- The stored phase of the User at `k`. -/
def Store.userPhase (s : Store) (k : ObjectKey) : Option UserPhase := (s.users k).map User.phase

/-- What the environment may do: anything but touch the User or its Secret. -/
structure UserEnv (u : User) (s s' : Store) : Prop where
  user : s'.users u.key = s.users u.key
  secret : s'.secrets u.secretKey = s.secrets u.secretKey
  audit : s'.audit = s.audit

/-- A User that was never reconciled, with no Secret under the name of its own. -/
structure Unpublished (u : User) (s : Store) : Prop where
  user : s.users u.key = some u
  phase : u.phase = .new
  secret : s.secrets u.secretKey = none
  audit : s.audit = []

/-- Invocations of `User.reconcile`, each started from the stored User. -/
def userSystem (libs : Externals) (client : Client) (srv : Server) (u : User) :
    System User Reply (Except Error Action) Store where
  start s l p := s.users u.key = some l ∧ p = (l.reconcile libs client).run
  serve := Serves srv
  env := UserEnv u

/-- A configuration with one controller process. -/
abbrev UserRun : Type := Config Unit User Reply (Except Error Action) Store

/-- The value published in the User's Secret. -/
def published (u : User) (s : Store) : Option ByteArray :=
  (s.secrets u.secretKey).bind fun x => x.data.lookup "password"

/-- The published password is the one SurrealDB holds for the database user that it was last told to
define. -/
def PasswordWorks (e : Escapes) (sem : Redefinition) (u : User) (s : Store) : Prop :=
  ∃ t p, lastIntended s.audit = some t ∧ held e sem t s.audit = some p ∧
    published u s = some p.toUTF8

instance (e : Escapes) (sem : Redefinition) (u : User) : DecidablePred (PasswordWorks e sem u) :=
  fun s =>
    haveI : DecidableEq ByteArray := ByteArray.instDecidableEq
    decidable_of_iff
      (((lastIntended s.audit).any fun t => (held e sem t s.audit).any fun p =>
        published u s = some p.toUTF8)) (by simp [PasswordWorks, Option.any_eq_true])

/-- With `password` on its way into the Secret: what SurrealDB holds is what is published, or that
password as long as nothing is. -/
def Agreed (e : Escapes) (sem : Redefinition) (u : User) (password : String) (s : Store) : Prop :=
  ∃ t p, lastIntended s.audit = some t ∧ held e sem t s.audit = some p ∧
    p.toUTF8 = (published u s).getD password.toUTF8

/-- Where a new password may be sent: where nothing is published yet, if it overwrites the old one;
where what is held is published and nothing else is, if the old one is kept. -/
def Redefinition.Admits : Redefinition → Option String → Option ByteArray → Prop
  | overwrite, _, published => published = none
  | keep, old, published => published = old.map String.toUTF8

/-- The names in a statement are read as they are. -/
def Sql.NamesUnescaped : Sql → Prop
  | .defineDatabaseUser nsName dbName username _ =>
    Unescaped '\x60' nsName ∧ Unescaped '\x60' dbName ∧ Unescaped '\x60' username
  | _ => True

/-- A statement takes effect only where a new password may be sent, unless the spec has a password;
the direct client gets no response other than 2xx; and the names in the statement, and the password
of the spec, are read as they are. -/
def Undisturbed (e : Escapes) (sem : Redefinition) (client : Client) (u : User) (c : UserRun) :
    Move Unit User Reply Store → Prop
  | .call _ _ _ (.http q) r s' =>
    (client = .kube ∨ ¬ HttpOutcome.IsRejection r) ∧
      q.body.NamesUnescaped ∧ (∀ p, u.spec.password = some p → Unescaped '\'' p) ∧
      (u.spec.password.isSome ∨ s' = c.store ∨ ∀ t, intended (.http q) = some t →
        sem.Admits (held e sem t c.store.audit) (published u c.store))
  | _ => True

/-! ### The invariant -/

section Invariant

variable {libs : Externals} {client : Client} {srv : Server} {e : Escapes} {sem : Redefinition}
  {u : User}

/-- What holds of the store. -/
structure Published (e : Escapes) (sem : Redefinition) (u : User) (s : Store) : Prop where
  stored : ∃ status, s.users u.key = some { u with status := status }
  secret : s.secrets u.secretKey = none ∨
    ∃ p, u.MayChoose p ∧ s.secrets u.secretKey = some (u.secret p).stored
  chosen : ∀ t p, held e sem t s.audit = some p → u.MayChoose p
  ready : s.userPhase u.key = some .ready → PasswordWorks e sem u s

/-- What an invocation started from `l` knows. -/
structure Publishing (libs : Externals) (client : Client) (e : Escapes) (sem : Redefinition)
    (u l : User) (h : History Reply) (s : Store) : Prop where
  same : ∃ status, l = { u with status := status }
  early : Quiet h → s.userPhase u.key = some l.phase
  user : ∀ p, u.HasUser libs client h p → Agreed e sem u p s
  secret : ∀ p, u.HasSecret libs client h p → PasswordWorks e sem u s
  configMap : ∀ p, u.HasConfigMap libs client h p → PasswordWorks e sem u s

variable {l : User} {h : History Reply} {q : Call} {r : Reply q} {s s' : Store}

/-- A call that is no statement leaves what SurrealDB holds. -/
theorem Serves.held (e : Escapes) (sem : Redefinition) (hs : Serves srv q s r s')
    (hdef : defines e q = none) (hint : intended q = none) :
    lastIntended s'.audit = lastIntended s.audit ∧
      ∀ t, SdbController.held e sem t s'.audit = SdbController.held e sem t s.audit := by
  rcases hs.audit_cases with ha | ha
  · rw [ha]
    exact ⟨rfl, fun _ => rfl⟩
  · rw [ha]
    exact ⟨lastIntended_cons_of_none hint, held_cons_of_none hdef⟩

/-- Only a create changes a Secret. -/
theorem Serves.secrets (hs : Serves srv q s r s') (hq : ∀ x, q ≠ .api (.createSecret x))
    (k : ObjectKey) : s'.secrets k = s.secrets k := by
  rcases hs.cases with rfl | ⟨rfl, -⟩
  · rfl
  rcases secrets_effect srv q s k with hsame | ⟨x, rfl, -⟩
  · exact hsame
  · exact absurd rfl (hq x)

/-- Only a status write changes a User. -/
theorem Serves.users (hs : Serves srv q s r s')
    (hq : ∀ k phase message, q ≠ .api (.mergeUserStatus k phase message)) (k : ObjectKey) :
    s'.users k = s.users k := by
  rcases hs.cases with rfl | ⟨rfl, -⟩
  · rfl
  rcases users_effect srv q s k with hsame | ⟨phase, message, rfl, -⟩
  · exact hsame
  · exact absurd rfl (hq k phase message)

/-- After a create that is taken for a success there is a Secret: the one there was, or this. -/
theorem Serves.established {x : Secret} {r : Except KubeError Unit}
    (hs : Serves srv (.api (.createSecret x)) s r s') (hr : Established r) :
    s'.secrets x.metadata.key = some ((s.secrets x.metadata.key).getD x.stored) := by
  rcases (creates_secret srv x).served hs hr with ⟨hnone, hnew⟩ | ⟨hsome, rfl⟩
  · exact hnew.trans (by rw [hnone]; rfl)
  · obtain ⟨y, hy⟩ := Option.isSome_iff_exists.mp hsome
    exact hy.trans (by rw [hy]; rfl)

/-- The Secret has a password if it is there. -/
theorem Published.published (hI : Published e sem u s) :
    (s.secrets u.secretKey = none ∧ SdbController.published u s = none) ∨
      ∃ p, u.MayChoose p ∧ SdbController.published u s = some p.toUTF8 := by
  rcases hI.secret with hnone | ⟨p, hp, hsome⟩
  · exact .inl ⟨hnone, by rw [SdbController.published, hnone]; rfl⟩
  · exact .inr ⟨p, hp, by rw [SdbController.published, hsome]; rfl⟩

theorem PasswordWorks.congr (hw : PasswordWorks e sem u s)
    (hlast : lastIntended s'.audit = lastIntended s.audit)
    (hheld : ∀ t, SdbController.held e sem t s'.audit = SdbController.held e sem t s.audit)
    (hpub : SdbController.published u s' = SdbController.published u s) :
    PasswordWorks e sem u s' := by
  obtain ⟨t, p, ht, hp, hs⟩ := hw
  exact ⟨t, p, hlast.trans ht, (hheld t).trans hp, hpub.trans hs⟩

theorem Agreed.congr {password : String} (hw : Agreed e sem u password s)
    (hlast : lastIntended s'.audit = lastIntended s.audit)
    (hheld : ∀ t, SdbController.held e sem t s'.audit = SdbController.held e sem t s.audit)
    (hpub : SdbController.published u s' = SdbController.published u s) :
    Agreed e sem u password s' := by
  obtain ⟨t, p, ht, hp, hs⟩ := hw
  exact ⟨t, p, hlast.trans ht, (hheld t).trans hp, by rw [hpub]; exact hs⟩

/-- Agreement with a published password is what a Ready User promises. -/
theorem Agreed.works {password : String} (hw : Agreed e sem u password s)
    (hpub : SdbController.published u s' =
      some ((SdbController.published u s).getD password.toUTF8))
    (hlast : lastIntended s'.audit = lastIntended s.audit)
    (hheld : ∀ t, SdbController.held e sem t s'.audit = SdbController.held e sem t s.audit) :
    PasswordWorks e sem u s' := by
  obtain ⟨t, p, ht, hp, hs⟩ := hw
  exact ⟨t, p, hlast.trans ht, (hheld t).trans hp, by rw [hpub, hs]⟩

/-! ### One call -/

/-- A call that neither defines a user nor creates a Secret nor writes a status keeps the store
invariant. -/
theorem Published.frame (hI : Published e sem u s) (hs : Serves srv q s r s')
    (hdef : defines e q = none) (hint : intended q = none) (hsec : ∀ x, q ≠ .api (.createSecret x))
    (husr : ∀ k phase message, q ≠ .api (.mergeUserStatus k phase message)) :
    Published e sem u s' := by
  obtain ⟨hlast, hheld⟩ := hs.held e sem hdef hint
  have hsecret := hs.secrets hsec u.secretKey
  have huser := hs.users husr u.key
  have hpub : SdbController.published u s' = SdbController.published u s := by
    rw [SdbController.published, hsecret, SdbController.published]
  refine ⟨?_, ?_, fun t p hp => hI.chosen t p ((hheld t).symm.trans hp), fun hready => ?_⟩
  · rw [huser]
    exact hI.stored
  · rw [hsecret]
    exact hI.secret
  · rw [Store.userPhase, huser] at hready
    exact (hI.ready hready).congr hlast hheld hpub

/-- A password that may be chosen is read as it is if that of the spec is: a generated one has
nothing to escape. -/
theorem User.MayChoose.unescaped {password : String} (h : u.MayChoose password)
    (hspec : ∀ p, u.spec.password = some p → Unescaped '\'' p) : Unescaped '\'' password := by
  cases hp : u.spec.password with
  | some p => exact h.1 p hp ▸ hspec p hp
  | none =>
    obtain ⟨d, rfl⟩ := h.2 hp
    have hfree {c : Char} (hc : c ∈ delimiters) : c ∉ d.password.toList := fun hmem =>
      (visible_of_mem (d.mem_password hmem)).2 hc
    exact ⟨hfree (by decide), hfree (by decide)⟩

/-- The statement of an invocation defines one database user, with the password it is built from. -/
theorem defines_of_asks {nsName dbName password : String} {q : HttpRequest}
    (hq : Asks libs client u.cluster (u.userSql nsName dbName password) q)
    (hnames : q.body.NamesUnescaped) (hpassword : Unescaped '\'' password) :
    defines e (.http q) = some (⟨q.uri, nsName, dbName, u.username⟩, password) := by
  rw [hq.body] at hnames
  rw [defines, hq.body]
  exact readUser_of_reads ((reads_defineDatabaseUser_iff e nsName dbName u.username password).mpr
    ⟨hnames.1, hnames.2.1, hnames.2.2, hpassword⟩) q.uri

theorem intended_of_asks {nsName dbName password : String} {q : HttpRequest}
    (hq : Asks libs client u.cluster (u.userSql nsName dbName password) q) :
    intended (.http q) = some ⟨q.uri, nsName, dbName, u.username⟩ := by
  rw [intended, hq.body]
  rfl

/-- Where a new password may be sent, the one that is held then is, or will be, published. -/
theorem Redefinition.Admits.apply {old : Option String} {published : Option ByteArray}
    (h : sem.Admits old published) (new : String) :
    (sem.apply old new).toUTF8 = published.getD new.toUTF8 := by
  cases sem with
  | overwrite =>
    obtain rfl : published = none := h
    rfl
  | keep =>
    obtain rfl : published = old.map String.toUTF8 := h
    cases old <;> rfl

/-- What SurrealDB holds after a statement is a password that may be chosen. -/
theorem chosen_apply {old : Option String} {new : String} (hold : ∀ p, old = some p → u.MayChoose p)
    (hnew : u.MayChoose new) : u.MayChoose (sem.apply old new) := by
  cases sem with
  | overwrite => exact hnew
  | keep =>
    cases old with
    | none => exact hnew
    | some p => exact hold p rfl

/-- The statement keeps the store invariant, for the phase is not `Ready` when it is sent. -/
theorem Published.statement (hI : Published e sem u s) (hnot : s.userPhase u.key ≠ some .ready)
    {request : HttpRequest} {t : DatabaseUser} {new : String}
    (hdef : defines e (.http request) = some (t, new)) (hnew : u.MayChoose new)
    (heff : TookEffect srv (.http request) s s') : Published e sem u s' := by
  obtain ⟨rfl, ha⟩ := heff
  refine ⟨hI.stored, hI.secret, fun t' p hp => ?_, fun hready => absurd hready hnot⟩
  rw [ha, held_cons_of_some hdef] at hp
  split at hp
  · cases hp
    exact chosen_apply (hI.chosen t') hnew
  · exact hI.chosen t' p hp

/-- A statement that took effect as it should leaves agreement behind. -/
theorem Published.agreed (hI : Published e sem u s) {request : HttpRequest} {t : DatabaseUser}
    {new : String} (hint : intended (.http request) = some t)
    (hdef : defines e (.http request) = some (t, new)) (hnew : u.MayChoose new)
    (heff : TookEffect srv (.http request) s s')
    (hok : u.spec.password.isSome ∨ (sem.apply (SdbController.held e sem t s.audit) new).toUTF8 =
      (SdbController.published u s).getD new.toUTF8) : Agreed e sem u new s' := by
  obtain ⟨rfl, ha⟩ := heff
  refine ⟨t, sem.apply (SdbController.held e sem t s.audit) new, ?_, ?_, ?_⟩
  · rw [ha, lastIntended_cons_of_some hint]
  · rw [ha, held_cons_of_some hdef, if_pos rfl]
  · rcases hok with hsome | heq
    · -- every password in play is that of the spec
      obtain ⟨p₀, hp₀⟩ := Option.isSome_iff_exists.mp hsome
      have happly : sem.apply (SdbController.held e sem t s.audit) new = p₀ :=
        (chosen_apply (hI.chosen t) hnew).1 p₀ hp₀
      have hpub : (SdbController.published u s).getD new.toUTF8 = p₀.toUTF8 := by
        rcases hI.published with ⟨-, hnone⟩ | ⟨p, hp, hsome⟩
        · rw [hnone, hnew.1 p₀ hp₀]
          rfl
        · rw [hsome, hp.1 p₀ hp₀]
          rfl
      rw [happly]
      exact hpub.symm
    · exact heq

/-- Creating the Secret keeps the store invariant. -/
theorem Published.create (hI : Published e sem u s) {p : String} (hp : u.MayChoose p)
    {r : Reply (.api (.createSecret (u.secret p)))}
    (hs : Serves srv (.api (.createSecret (u.secret p))) s r s') : Published e sem u s' := by
  obtain ⟨hlast, hheld⟩ := hs.held e sem rfl rfl
  have huser : s'.users u.key = s.users u.key :=
    hs.users (fun _ _ _ heq => nomatch heq) u.key
  have hsecret : s'.secrets u.secretKey = s.secrets u.secretKey ∨
      (s.secrets u.secretKey = none ∧ s'.secrets u.secretKey = some (u.secret p).stored) := by
    rcases hs.cases with rfl | ⟨rfl, -⟩
    · exact .inl rfl
    · rcases secrets_effect srv (.api (.createSecret (u.secret p))) s u.secretKey with hsame | hnew
      · exact .inl hsame
      · obtain ⟨x, heq, -, hnone, hsome⟩ := hnew
        cases heq
        exact .inr ⟨hnone, hsome⟩
  refine ⟨huser ▸ hI.stored, ?_, fun t p' hp' => hI.chosen t p' ((hheld t).symm.trans hp'),
    fun hready => ?_⟩
  · rcases hsecret with hsame | ⟨-, hnew⟩
    · rw [hsame]
      exact hI.secret
    · exact .inr ⟨p, hp, hnew⟩
  · rw [Store.userPhase, huser] at hready
    have hw := hI.ready hready
    rcases hsecret with hsame | ⟨hnone, -⟩
    · refine hw.congr hlast hheld ?_
      rw [SdbController.published, hsame, SdbController.published]
    · obtain ⟨t, p', -, -, hpub⟩ := hw
      rw [SdbController.published, hnone] at hpub
      cases hpub

/-- The Secret, once established, holds what was published before or the password of this run. -/
theorem Serves.published {p : String} {r : Except KubeError Unit}
    (hs : Serves srv (.api (.createSecret (u.secret p))) s r s') (hr : Established r)
    (hI : Published e sem u s) :
    SdbController.published u s' = some ((SdbController.published u s).getD p.toUTF8) := by
  have hsecret : s'.secrets u.secretKey =
      some ((s.secrets u.secretKey).getD (u.secret p).stored) := hs.established hr
  rcases hI.secret with hnone | ⟨p', -, hsome⟩
  · rw [SdbController.published, hsecret, SdbController.published, hnone]
    rfl
  · rw [SdbController.published, hsecret, SdbController.published, hsome]
    rfl

/-- Writing a phase keeps the store invariant if `Ready` is written on a published password. -/
theorem Published.conclude (hI : Published e sem u s) {phase : UserPhase} {message : Option String}
    {r : Reply (.api (.mergeUserStatus u.key phase message))}
    (hw : phase = .ready → PasswordWorks e sem u s)
    (hs : Serves srv (.api (.mergeUserStatus u.key phase message)) s r s') :
    Published e sem u s' := by
  obtain ⟨hlast, hheld⟩ := hs.held e sem rfl rfl
  have hsecret : s'.secrets u.secretKey = s.secrets u.secretKey :=
    hs.secrets (fun _ heq => nomatch heq) u.secretKey
  have hpub : SdbController.published u s' = SdbController.published u s := by
    rw [SdbController.published, hsecret, SdbController.published]
  have huser : s'.users u.key = s.users u.key ∨
      s'.users u.key = (s.users u.key).map (User.mergeStatus · phase message) := by
    rcases hs.cases with rfl | ⟨rfl, -⟩
    · exact .inl rfl
    · rcases users_effect srv _ s u.key with hsame | ⟨_, _, heq, hnew⟩
      · exact .inl hsame
      · cases heq
        exact .inr hnew
  obtain ⟨status, hstored⟩ := hI.stored
  rw [hstored, Option.map_some] at huser
  refine ⟨?_, hsecret ▸ hI.secret, fun t p hp => hI.chosen t p ((hheld t).symm.trans hp),
    fun hready => ?_⟩
  · rcases huser with hsame | hnew
    · exact ⟨_, hsame⟩
    · exact ⟨_, hnew⟩
  · refine PasswordWorks.congr ?_ hlast hheld hpub
    rcases huser with hsame | hnew
    · refine hI.ready ?_
      rw [Store.userPhase, hstored, ← hsame]
      exact hready
    · refine hw ?_
      rw [Store.userPhase, hnew] at hready
      exact Option.some.inj hready

/-- A call that leaves the store alone and is not the last of a stage teaches nothing. -/
theorem Publishing.idle (hT : Publishing libs client e sem u l h s)
    (hq : ∀ request, q ≠ .http request) (hsec : ∀ x, q ≠ .api (.createSecret x))
    (hcm : ∀ x, q ≠ .api (.createConfigMap x)) (hphase : Quiet (⟨q, r⟩ :: h) →
      s'.userPhase u.key = some l.phase) : Publishing libs client e sem u l (⟨q, r⟩ :: h) s' where
  same := hT.same
  early := hphase
  user p hp := by
    obtain ⟨-, _, _, q', _, _, heq, -⟩ := hp
    cases heq
    exact absurd rfl (hq q')
  secret p hp := by
    obtain ⟨_, _, heq, -⟩ := hp
    cases heq
    exact absurd rfl (hsec (u.secret p))
  configMap p hp := by
    obtain ⟨_, _, heq, -⟩ := hp
    cases heq
    exact absurd rfl (hcm u.ownConfigMap)

/-- A statement with a good verdict was accepted, unless the direct client took a rejection for
one. -/
theorem isSuccess_of_verdict {r : HttpOutcome} (hr : client.verdict r = .ok ())
    (hno : client = .kube ∨ ¬ HttpOutcome.IsRejection r) : HttpOutcome.IsSuccess r := by
  rcases Client.verdict_eq_ok_iff.mp hr with hr | ⟨hc, hrej⟩
  · exact hr
  · rcases hno with hk | hno
    · rw [hk] at hc
      cases hc
    · exact absurd hrej hno

/-- The statement of an invocation. A good verdict leaves agreement behind. -/
theorem Publishing.statement (hI : Published e sem u s) (hT : Publishing libs client e sem u l h s)
    (hphase : l.phase = .new ∨ l.phase = .error) {request : HttpRequest} {r : HttpOutcome}
    (hq : u.Conduct libs client h (.http request)) {c : UserRun} (hc : c.store = s)
    (hok : Undisturbed e sem client u c (.call () l h (.http request) r s'))
    (hs : Serves srv (.http request) s r s') :
    Published e sem u s' ∧ Publishing libs client e sem u l (⟨.http request, r⟩ :: h) s' := by
  obtain ⟨hquiet, nsName, dbName, password, hasks, hchoose⟩ := hq
  obtain ⟨htransport, hnames, hspec, hadmits⟩ := hok
  have hint := intended_of_asks hasks
  have hdef := defines_of_asks (e := e) hasks hnames (hchoose.unescaped hspec)
  have hnot : s.userPhase u.key ≠ some .ready := by
    rw [hT.early hquiet]
    rcases hphase with hp | hp <;> rw [hp] <;> decide
  refine ⟨?_, hT.same, fun hquiet' => (hquiet' _ List.mem_cons_self).elim, ?_, ?_, ?_⟩
  · rcases hs.cases with rfl | heff
    · exact hI
    · exact hI.statement hnot hdef hchoose heff
  · rintro p ⟨hp, ns', db', q', r', h', heq, hasks', hr', -⟩
    cases heq
    obtain rfl : p = password := by
      have hsql := hasks'.body.symm.trans hasks.body
      cases hsql
      rfl
    have heff := hs.accepted (isSuccess_of_verdict hr' htransport)
    refine hI.agreed hint hdef hp heff (hadmits.imp_right fun hall => ?_)
    rcases hall with hsame | hall
    · have hlen := congrArg List.length heff.audit
      rw [hsame, hc] at hlen
      simp at hlen
    · rw [← hc]
      exact (hall _ hint).apply p
  · rintro p ⟨_, _, heq, -⟩
    cases heq
  · rintro p ⟨_, _, heq, -⟩
    cases heq

/-- The creation of the Secret. Once established, its password works. -/
theorem Publishing.createSecret (hI : Published e sem u s)
    (hT : Publishing libs client e sem u l h s) {password : String}
    (hhas : u.HasUser libs client h password)
    {r : Reply (.api (.createSecret (u.secret password)))}
    (hs : Serves srv (.api (.createSecret (u.secret password))) s r s') :
    Published e sem u s' ∧
      Publishing libs client e sem u l (⟨.api (.createSecret (u.secret password)), r⟩ :: h) s' := by
  obtain ⟨hlast, hheld⟩ := hs.held e sem rfl rfl
  refine ⟨hI.create hhas.1 hs, hT.same, fun hquiet => ?_, ?_, ?_, ?_⟩
  · exact absurd trivial (hquiet _ List.mem_cons_self)
  · rintro p ⟨-, _, _, _, _, _, heq, -⟩
    cases heq
  · rintro p ⟨r', h', heq, hr', hhas'⟩
    obtain ⟨hcall, rfl⟩ := List.cons_eq_cons.mp heq
    have hs' : Serves srv (.api (.createSecret (u.secret p))) s r' s' := by
      have hall : (fun e : Σ q, Reply q => Serves srv e.1 s e.2 s') ⟨_, r⟩ := hs
      rw [hcall] at hall
      exact hall
    exact (hT.user p hhas').works (hs'.published hr' hI) hlast hheld
  · rintro p ⟨_, _, heq, -⟩
    cases heq

/-- The creation of the ConfigMap changes nothing for the password. -/
theorem Publishing.createConfigMap (hI : Published e sem u s)
    (hT : Publishing libs client e sem u l h s) {r : Reply (.api (.createConfigMap u.ownConfigMap))}
    (hs : Serves srv (.api (.createConfigMap u.ownConfigMap)) s r s') :
    Published e sem u s' ∧
      Publishing libs client e sem u l (⟨.api (.createConfigMap u.ownConfigMap), r⟩ :: h) s' := by
  obtain ⟨hlast, hheld⟩ := hs.held e sem rfl rfl
  have hI' : Published e sem u s' :=
    hI.frame hs rfl rfl (fun _ heq => nomatch heq) fun _ _ _ heq => nomatch heq
  refine ⟨hI', hT.same, fun hquiet => ?_, ?_, ?_, ?_⟩
  · exact absurd trivial (hquiet _ List.mem_cons_self)
  · rintro p ⟨-, _, _, _, _, _, heq, -⟩
    cases heq
  · rintro p ⟨_, _, heq, -⟩
    cases heq
  · rintro p ⟨_, h', heq, -, hhas'⟩
    cases heq
    refine (hT.secret p hhas').congr hlast hheld ?_
    rw [SdbController.published, hs.secrets (fun _ heq => nomatch heq), SdbController.published]

/-- One call of an invocation keeps the store invariant and what the invocation knows. -/
theorem Publishing.call (hI : Published e sem u s) (hT : Publishing libs client e sem u l h s)
    (hphase : l.phase = .new ∨ l.phase = .error) (hq : u.Conduct libs client h q)
    {c : UserRun} (hc : c.store = s) (hok : Undisturbed e sem client u c (.call () l h q r s'))
    (hs : Serves srv q s r s') :
    Published e sem u s' ∧ Publishing libs client e sem u l (⟨q, r⟩ :: h) s' := by
  match q, r with
  | .draw n, r =>
    obtain rfl : s' = s := hs
    exact ⟨hI, hT.idle (fun _ heq => nomatch heq) (fun _ heq => nomatch heq)
      (fun _ heq => nomatch heq) fun _ => hT.early hq.2⟩
  | .http request, r => exact hT.statement hI hphase hq hc hok hs
  | .api q, r =>
    obtain ⟨hread, hquiet⟩ | ⟨password, rfl, hhas⟩ | ⟨rfl, -⟩ |
      ⟨phase, message, rfl, hready⟩ := hq.api
    · obtain rfl : s' = s := hs.read hread
      refine ⟨hI, hT.idle (fun _ heq => nomatch heq) (fun x heq => ?_) (fun x heq => ?_)
        fun _ => hT.early hquiet⟩
      · cases heq
        exact hread trivial
      · cases heq
        exact hread trivial
    · exact hT.createSecret hI hhas hs
    · exact hT.createConfigMap hI hs
    · refine ⟨hI.conclude (fun hp => ?_) hs, hT.idle (fun _ heq => nomatch heq)
        (fun _ heq => nomatch heq) (fun _ heq => nomatch heq) fun hquiet => ?_⟩
      · rcases hready with ⟨-, password, hhas⟩ | herr
        · exact hT.configMap password hhas
        · rw [hp] at herr
          cases herr
      · exact absurd trivial (hquiet _ List.mem_cons_self)

end Invariant

/-- The outline of the proof. -/
def publicationOutline (libs : Externals) (client : Client) (e : Escapes) (sem : Redefinition)
    (u : User) :
    Outline User Reply (Except Error Action) Store where
  store s _ := Published e sem u s
  task l h s := Publishing libs client e sem u l h s
  guard l h q := (l.phase = .new ∨ l.phase = .error) ∧ l.Conduct libs client h q

/-- Undisturbed runs keep the invariant. -/
theorem publication_preserves (libs : Externals) (client : Client) (srv : Server) (e : Escapes)
    (sem : Redefinition) (u : User) :
    (userSystem libs client srv u).Preserves (Unpublished u) (Undisturbed e sem client u)
      (publicationOutline libs client e sem u) where
  init {s} hs := by
    refine ⟨⟨⟨u.status, hs.user⟩, .inl hs.secret, fun t p hp => ?_, fun hready => ?_⟩, trivial⟩
    · rw [hs.audit] at hp
      cases hp
    · rw [Store.userPhase, hs.user, Option.map_some, hs.phase] at hready
      cases hready
  env {c s'} hc _ he := by
    have hpub : published u s' = published u c.store := by
      rw [published, he.secret, published]
    have hphase : s'.userPhase u.key = c.store.userPhase u.key := by
      rw [Store.userPhase, he.user, Store.userPhase]
    have hlast : lastIntended s'.audit = lastIntended c.store.audit := by rw [he.audit]
    have hheld (t : DatabaseUser) : held e sem t s'.audit = held e sem t c.store.audit := by
      rw [he.audit]
    refine ⟨⟨?_, ?_, fun t p hp => hc.store.chosen t p (he.audit ▸ hp), fun hready => ?_⟩,
      fun i l h p hi => ?_, fun _ _ => trivial⟩
    · rw [he.user]
      exact hc.store.stored
    · rw [he.secret]
      exact hc.store.secret
    · exact (hc.store.ready (hphase ▸ hready)).congr hlast hheld hpub
    · have hT : Publishing libs client e sem u l h c.store := hc.task hi
      exact ⟨hT.same, fun hq => hphase.trans (hT.early hq),
        fun p hp => (hT.user p hp).congr hlast hheld hpub,
        fun p hp => (hT.secret p hp).congr hlast hheld hpub,
        fun p hp => (hT.configMap p hp).congr hlast hheld hpub⟩
  start {c i l p} hc _ _ hs := by
    obtain ⟨hl, rfl⟩ := hs
    obtain ⟨status, hstored⟩ := hc.store.stored
    obtain rfl : l = { u with status := status } := Option.some.inj (hl.symm.trans hstored)
    refine ⟨hc.store, ⟨⟨status, rfl⟩, fun _ => ?_, ?_, ?_, ?_⟩,
      (User.reconcile_meets libs client _).mono (fun _ _ hq => hq) fun _ _ _ => trivial⟩
    · rw [Store.userPhase, hl]
      rfl
    · rintro p ⟨-, _, _, _, _, _, heq, -⟩
      cases heq
    · rintro p ⟨_, _, heq, -⟩
      cases heq
    · rintro p ⟨_, _, heq, -⟩
      cases heq
  call {c i l h q k r s'} hc hi hG hm hs := by
    have hT : Publishing libs client e sem u l h c.store := hc.task hi
    obtain ⟨status, rfl⟩ := hT.same
    exact hT.call hc.store hG.1 hG.2 rfl hm hs
  frame _ _ _ _ _ hij := absurd (Subsingleton.elim _ _) hij
  finish _ _ _ _ := trivial
  crash _ _ _ := trivial

/-- **A Ready User's published password works**, in every run in which statements take effect only
where a new password may be sent, and are read as they are meant. -/
theorem ready_password_works (libs : Externals) (client : Client) (srv : Server) (e : Escapes)
    (sem : Redefinition) (u : User) {c : UserRun}
    (hc : (userSystem libs client srv u).Reachable (Unpublished u) (Undisturbed e sem client u) c)
    (hready : c.store.userPhase u.key = some .ready) : PasswordWorks e sem u c.store :=
  ((publication_preserves libs client srv e sem u).sound hc).store.ready hready

/-! ### Three runs -/

/-- The store after one invocation for `u`. -/
def publishOnce (u : User) (pick : (n : ℕ) → Draws n) (lost : Call → Bool) (s : Store) : Store :=
  match s.users u.key with
  | some l => ((l.reconcile sampleExternals .kube).run.eval (respondWith ⟨false⟩ pick lost) s).2
  | none => s

/-- The calls that create a ConfigMap. -/
def createsConfigMap : Call → Bool
  | .api (.createConfigMap _) => true
  | _ => false

/-- Draws other than the usual ones. -/
def otherDraws (n : ℕ) : Draws n := .constant n 'b' (by decide)

instance (sql : Sql) : Decidable sql.NamesUnescaped := by
  cases sql <;> unfold Sql.NamesUnescaped <;> infer_instance

instance (sem : Redefinition) (old : Option String) (published : Option ByteArray) :
    Decidable (sem.Admits old published) :=
  haveI : DecidableEq ByteArray := ByteArray.instDecidableEq
  match sem with
  | .overwrite => inferInstanceAs (Decidable (_ = _))
  | .keep => inferInstanceAs (Decidable (_ = _))

/-- A request is about names that are read as they are, and is sent where one may be. -/
def sentWell (e : Escapes) (sem : Redefinition) (u : User) : Call → Store → Bool
  | .http q, s => decide q.body.NamesUnescaped && (intended (.http q)).all fun t =>
      decide (sem.Admits (held e sem t s.audit) (published u s))
  | _, _ => true

/-- The statement takes effect, the ConfigMap is lost, and a new password is sent. SurrealDB keeps
the old one, which is published. -/
theorem ready_password_works_kept : ∃ c : UserRun,
    c.store = publishOnce sampleUser otherDraws (fun _ => false)
      (publishOnce sampleUser (fun _ => default) createsConfigMap (tenantStore sampleUser)) ∧
      PasswordWorks .verbatim .keep sampleUser c.store := by
  have hok (pick : (n : ℕ) → Draws n) (lost : Call → Bool) (l : User) (c : UserRun)
      (m : Move Unit User Reply Store)
      (hm : System.Played (respondWith ⟨false⟩ pick lost) () l
        (l.reconcile sampleExternals .kube).run c m)
      (htest : ∀ i l h q r s', m = .call i l h q r s' →
        sentWell .verbatim .keep sampleUser q c.store) :
      Undisturbed .verbatim .keep .kube sampleUser c m := by
    cases hm with
    | start | finish => trivial
    | @call h q k hp =>
      match q with
      | .http q =>
        obtain ⟨hnames, hadmits⟩ := Bool.and_eq_true_iff.mp (htest _ _ _ _ _ _ rfl)
        refine ⟨.inl rfl, of_decide_eq_true hnames, fun p hp => ?_, .inr (.inr ?_)⟩
        · cases hp
        · intro t hint
          rw [hint] at hadmits
          exact of_decide_eq_true hadmits
      | .api q => trivial
      | .draw n => trivial
  have h₀ : (userSystem sampleExternals .kube ⟨false⟩ sampleUser).Settles (Unpublished sampleUser)
      (Undisturbed .verbatim .keep .kube sampleUser) (tenantStore sampleUser) :=
    .initial ⟨rfl, rfl, rfl, rfl⟩
  have h₁ := h₀.play_whole (l := sampleUser)
    (serves_respondWith ⟨false⟩ (fun _ => default) createsConfigMap) (hok _ _ _)
    ⟨rfl, rfl⟩ (by decide +kernel)
  obtain ⟨c, hc, -, hs⟩ := h₁.play_whole
    (serves_respondWith ⟨false⟩ otherDraws fun _ => false) (hok _ _ _) ⟨rfl, rfl⟩
    (by decide +kernel)
  refine ⟨c, hs,
    ready_password_works sampleExternals .kube ⟨false⟩ .verbatim .keep sampleUser hc ?_⟩
  rw [hs]
  decide +kernel

/-- A new password is sent while the old one stays published. -/
theorem ready_password_stale : ∃ c : UserRun,
    (userSystem sampleExternals .kube ⟨false⟩ sampleUser).Reachable (Unpublished sampleUser)
      System.anyMove c ∧ c.store.userPhase sampleUser.key = some .ready ∧
      ¬ PasswordWorks .verbatim .overwrite sampleUser c.store := by
  have h₀ : (userSystem sampleExternals .kube ⟨false⟩ sampleUser).Settles (Unpublished sampleUser)
      System.anyMove (tenantStore sampleUser) := .initial ⟨rfl, rfl, rfl, rfl⟩
  have h₁ := h₀.play (l := sampleUser)
    (serves_respondWith ⟨false⟩ (fun _ => default) createsConfigMap) (fun _ _ _ => trivial)
    ⟨rfl, rfl⟩
  obtain ⟨c, hc, -, hs⟩ := h₁.play
    (serves_respondWith ⟨false⟩ otherDraws fun _ => false) (fun _ _ _ => trivial) ⟨rfl, rfl⟩
  refine ⟨c, hc, ?_, ?_⟩
  · rw [hs]
    decide +kernel
  · rw [hs]
    decide +kernel

/-- `sampleUser` with a backslash in the password of its spec. -/
def escapedUser : User :=
  { sampleUser with spec := { sampleUser.spec with password := some "a\\nb" } }

/-- Every call is answered, and SurrealDB reads another password than the one that is published. -/
theorem ready_password_misread : ∃ c : UserRun,
    (userSystem sampleExternals .kube ⟨false⟩ escapedUser).Reachable (Unpublished escapedUser)
      System.anyMove c ∧ c.store.userPhase escapedUser.key = some .ready ∧
      ¬ PasswordWorks .verbatim .overwrite escapedUser c.store := by
  have h₀ : (userSystem sampleExternals .kube ⟨false⟩ escapedUser).Settles
      (Unpublished escapedUser) System.anyMove (tenantStore escapedUser) :=
    .initial ⟨rfl, rfl, rfl, rfl⟩
  obtain ⟨c, hc, -, hs⟩ := h₀.play (l := escapedUser)
    (serves_respondWith ⟨false⟩ (fun _ => default) fun _ => false) (fun _ _ _ => trivial) ⟨rfl, rfl⟩
  refine ⟨c, hc, ?_, ?_⟩
  · rw [hs]
    decide +kernel
  · rw [hs]
    decide +kernel

end SdbController
