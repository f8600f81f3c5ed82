import SdbController.Database.Recovery
import SdbController.Json.Merge
import SdbController.User.Publication

/-!
# The message in a status

A status has a phase and perhaps a message, and both controllers write them together in one merge
patch. A message that is absent is not part of the patch, so what was written with phase `Error`
stays when `Ready` is written next. A Database is never reconciled out of `Error`, so there nothing
is written over a message; a User is.

`ShowsStatus.merge` connects `mergeStatus` with the patch as it is serialised and merged.

## Main results

* `message_belongs` — the runs in which a message is there with phase `Error` only
* `ready_with_stale_message` — one lost statement, and a Ready User says that provisioning failed
-/

namespace SdbController

open Interaction Program Json

/-! ### The patch as a document -/

/-- The name that a phase is serialised as. -/
def DbPhase.name : DbPhase → String
  | new => "New"
  | inProgress => "InProgress"
  | ready => "Ready"
  | error => "Error"

def UserPhase.name : UserPhase → String
  | new => "New"
  | ready => "Ready"
  | error => "Error"

/-- `StatusPatch` of both controllers. An absent message is skipped. -/
def statusPatch (phase : String) (message : Option String) : Document :=
  .obj [("status", .obj (("phase", .str phase) ::
    (message.map fun m => ("message", Document.str m)).toList))]

/-- The stored document of a resource has a status with this phase and this message. -/
structure ShowsStatus (d : Document) (phase message : Option String) : Prop where
  object : ∃ ms, d = .obj ms ∧ ∀ st, ms.lookup "status" = some st → st = .null ∨ ∃ l, st = .obj l
  phase : d.optional ["status", "phase"] = phase.map Document.str
  message : d.optional ["status", "message"] = message.map Document.str

/-- What the status has, read with a path or member by member. -/
theorem lookup_members {ms : List (String × Document)}
    (h : ∀ st, ms.lookup "status" = some st → st = .null ∨ ∃ l, st = .obj l) (token : String) :
    (Document.members (ms.lookup "status")).lookup token =
      Document.get ["status", token] (.obj ms) := by
  rw [Document.get, Document.child]
  cases hst : ms.lookup "status" with
  | none => rfl
  | some st =>
    rcases h st hst with rfl | ⟨l, rfl⟩
    · rfl
    · rw [Option.bind_some, Document.get, Document.child]
      exact (Option.bind_fun_some _).symm

/-- Merging the patch writes the phase, and the message if there is one to write. -/
theorem ShowsStatus.merge {d : Document} {phase message : Option String}
    (hd : ShowsStatus d phase message) (phase' : String) (message' : Option String) :
    ShowsStatus (d.merge (statusPatch phase' message')) (some phase') (message' <|> message) := by
  obtain ⟨⟨ms, rfl, hobject⟩, -, hmessage⟩ := hd
  have hnames : ((("phase", Document.str phase') ::
      (message'.map fun m => ("message", Document.str m)).toList).map Prod.fst).Nodup := by
    cases message' <;> simp
  have hget (token : String) : Document.get ["status", token]
      ((Document.obj ms).merge (statusPatch phase' message')) =
      Document.mergeMember (Document.get ["status", token] (.obj ms))
        ((("phase", Document.str phase') ::
          (message'.map fun m => ("message", Document.str m)).toList).lookup token) := by
    rw [Document.merge, statusPatch, Document.get_mergeAt_cons (by simp), List.lookup_cons_self,
      Document.mergeMember, Option.bind_some, Document.get_mergeAt_cons hnames,
      ← lookup_members hobject]
    · exact Option.bind_fun_some _
    · exact Document.noConfusion
  refine ⟨⟨_, rfl, fun st hst => ?_⟩, ?_, ?_⟩
  · rw [Document.lookup_mergeMembers (by simp), List.lookup_cons_self] at hst
    cases hst
    exact .inr ⟨_, rfl⟩
  · rw [Document.optional, hget, List.lookup_cons_self]
    rfl
  · rw [Document.optional, hget]
    cases message' with
    | none => exact hmessage
    | some m => rfl

/-! ### Where a message belongs -/

namespace Database

variable (d : Database)

def message : Option String := d.status.bind DbStatus.message

/-- A message is there with phase `Error` only. -/
def MessageBelongs : Prop := d.message.isSome → d.phase = .error

instance : DecidablePred MessageBelongs := fun d =>
  inferInstanceAs (Decidable (d.message.isSome → d.phase = .error))

/-- The document of the Database shows its status. -/
def Shown (x : Document) : Prop :=
  ShowsStatus x ((d.status.bind DbStatus.phase).map DbPhase.name) d.message

/-- `mergeStatus` is the merge of the patch. -/
theorem Shown.mergeStatus {d : Database} {x : Document} (hx : d.Shown x) (phase : DbPhase)
    (message : Option String) :
    (d.mergeStatus phase message).Shown (x.merge (statusPatch phase.name message)) :=
  hx.merge phase.name message

end Database

namespace User

variable (u : User)

def message : Option String := u.status.bind UserStatus.message

/-- A message is there with phase `Error` only. -/
def MessageBelongs : Prop := u.message.isSome → u.phase = .error

instance : DecidablePred MessageBelongs := fun u =>
  inferInstanceAs (Decidable (u.message.isSome → u.phase = .error))

/-- The document of the User shows its status. -/
def Shown (x : Document) : Prop :=
  ShowsStatus x ((u.status.bind UserStatus.phase).map UserPhase.name) u.message

/-- `mergeStatus` is the merge of the patch. -/
theorem Shown.mergeStatus {u : User} {x : Document} (hx : u.Shown x) (phase : UserPhase)
    (message : Option String) :
    (u.mergeStatus phase message).Shown (x.merge (statusPatch phase.name message)) :=
  hx.merge phase.name message

end User

/-! ### What is written -/

/-- A message is written with phase `Error` only. -/
def Call.MessageBelongs : Call → Prop
  | .api (.mergeDatabaseStatus _ phase message) => message.isSome → phase = .error
  | .api (.mergeUserStatus _ phase message) => message.isSome → phase = .error
  | _ => True

theorem Call.IsRead.messageBelongs : ∀ {q : Call}, q.IsRead → q.MessageBelongs
  | .api q, hq => by
    cases q with
    | mergeDatabaseStatus k phase m | mergeUserStatus k phase m => exact absurd trivial hq
    | _ => trivial
  | .http _, hq => hq.elim
  | .draw _, hq => hq.elim

section Calls

variable (libs : Externals) (client : Client)

theorem Database.reconcile_messageBelongs (d : Database) :
    Reconciler.Calls Call.MessageBelongs (d.reconcile libs client) := by
  have provision : Reconciler.Calls Call.MessageBelongs (d.provision libs client) := by
    refine .bind ((getRootCredentials_calls _ _).mono fun _ => Call.IsRead.messageBelongs)
      fun ⟨user, pass⟩ => ?_
    refine .bind (.attempt (calls_sendSql fun _ _ => trivial)) ?_
    rintro (e | ⟨⟩)
    · exact .discard (.call fun _ => rfl) _
    refine .bind (.attempt (calls_sendSql fun _ _ => trivial)) ?_
    rintro (e | ⟨⟩)
    · exact .discard (.call fun _ => rfl) _
    · exact .discard (.call fun hm => (by cases hm)) _
  rw [reconcile]
  split
  · exact provision
  · exact provision
  · exact .pure _
  · exact .pure _

theorem User.reconcile_messageBelongs (u : User) :
    Reconciler.Calls Call.MessageBelongs (u.reconcile libs client) := by
  have provision : Reconciler.Calls Call.MessageBelongs (u.provision libs client) := by
    refine .bind (.call trivial) fun db => ?_
    refine .bind ((Database.getRootCredentials_calls _ _).mono
      fun _ => Call.IsRead.messageBelongs) fun ⟨user, pass⟩ => ?_
    refine .bind (u.choosePassword_calls trivial) fun password => ?_
    refine .bind (.attempt (calls_sendSql fun _ _ => trivial)) ?_
    rintro (e | ⟨⟩)
    · exact .discard (.call fun _ => rfl) _
    · exact u.publish_calls password trivial trivial (fun _ _ => rfl) fun hm => (by cases hm)
  rw [reconcile]
  split
  · exact provision
  · exact provision
  · exact .pure _

end Calls

/-! ### Databases -/

/-- A Database that was never reconciled, in a store. -/
structure UntouchedDatabase (k : ObjectKey) (s : Store) : Prop extends FreshDatabase k s where
  message : ∀ {d}, s.databases k = some d → d.message = none

/-- No status of a Database has been written. -/
def Unwritten (h : History Reply) : Prop :=
  ∀ e ∈ h, ∀ k phase m, e.1 ≠ .api (.mergeDatabaseStatus k phase m)

section Database

variable {libs : Externals} {client : Client} {srv : Server} {k : ObjectKey} {d l : Database}
  {h : History Reply} {q : Call} {r : Reply q} {s s' : Store}

theorem Unwritten.of_cons (hh : Unwritten (⟨q, r⟩ :: h)) : Unwritten h :=
  fun e he => hh e (List.mem_cons_of_mem _ he)

theorem Quiet.unwritten (hh : Quiet h) : Unwritten h := by
  rintro e he k phase m heq
  have hpassive := hh e he
  rw [heq] at hpassive
  exact hpassive trivial

/-- When `Ready` is written, no status has been written before. -/
theorem Database.HasDatabase.unwritten (hh : d.HasDatabase libs client h) : Unwritten h := by
  obtain ⟨q, r, h', rfl, -, -, q', r', h'', rfl, -, -, hquiet⟩ := hh
  rintro e he k phase m heq
  rcases List.mem_cons.mp he with rfl | he
  · cases heq
  · rcases List.mem_cons.mp he with rfl | he
    · cases heq
    · exact hquiet.unwritten e he k phase m heq

/-- A status keeps its message in place if `Ready` is written over no message. -/
theorem Database.MessageBelongs.mergeStatus {phase : DbPhase} {message : Option String}
    (hwrite : message.isSome → phase = .error) (hover : phase = .error ∨ d.message = none) :
    (d.mergeStatus phase message).MessageBelongs := by
  intro hm
  have hsome : (message <|> d.message).isSome := hm
  rcases hover with rfl | hnone
  · rfl
  · rw [hnone] at hsome
    exact hwrite (by simpa using hsome)

/-- An invocation provisions a Database without a message, and writes its status once. -/
theorem databaseMessage_preserves (libs : Externals) (client : Client) (srv : Server)
    (k : ObjectKey) :
    (databaseSystem libs client srv k).Preserves (UntouchedDatabase k) (System.anyMove (ι := Unit))
      { store := fun s _ => ∃ d, s.databases k = some d ∧ d.MessageBelongs
        task := fun l h s => l.phase = .new ∨ l.phase = .inProgress → Unwritten h →
          ∀ d, s.databases k = some d → d.message = none
        guard := fun l h q => ((l.phase = .new ∨ l.phase = .inProgress) ∧
          l.Conduct libs client h q) ∧ q.MessageBelongs } where
  init hs := by
    obtain ⟨d, hd, -⟩ := hs.stored
    refine ⟨⟨d, hd, fun hm => ?_⟩, trivial⟩
    rw [hs.message hd] at hm
    cases hm
  env hc _ he := by
    obtain ⟨d, hd, hbelongs⟩ := hc.store
    obtain ⟨spec, hspec⟩ := he.database hd
    refine ⟨⟨_, hspec, hbelongs⟩, fun i l h p hi hphase hh d' hd' => ?_, fun _ _ => trivial⟩
    obtain rfl := Option.some.inj (hd'.symm.trans hspec)
    exact hc.task hi hphase hh d hd
  start hc _ _ hs := by
    obtain ⟨hl, rfl⟩ := hs
    obtain ⟨d, hd, hbelongs⟩ := hc.store
    refine ⟨⟨d, hd, hbelongs⟩, fun hphase _ d' hd' => ?_, ?_⟩
    · obtain rfl := Option.some.inj (hl.symm.trans hd')
      obtain rfl := Option.some.inj (hl.symm.trans hd)
      by_contra hm
      have herror := hbelongs (Option.isSome_iff_ne_none.mpr hm)
      rw [herror] at hphase
      rcases hphase with hp | hp <;> cases hp
    · exact ((Database.reconcile_meets libs client _).and
        (Database.reconcile_messageBelongs libs client _ _)).mono (fun _ _ hq => hq)
        fun _ _ _ => trivial
  call {c i l h q k' r s'} hc hi hG _ hs := by
    obtain ⟨⟨hphase, hq⟩, hwrite⟩ := hG
    obtain ⟨d, hd, hbelongs⟩ := hc.store
    have hT := hc.task hi hphase
    rcases hs.database hd with hsame | ⟨phase, message, rfl, hnew⟩
    · refine ⟨⟨d, hsame, hbelongs⟩, fun _ hh d' hd' => hT hh.of_cons d' ?_⟩
      rw [hd, ← hsame, hd']
    · refine ⟨⟨_, hnew, .mergeStatus hwrite ?_⟩, fun _ hh => ?_⟩
      · rcases hq.2 with ⟨-, hhas⟩ | ⟨rfl, -⟩
        · exact .inr (hT hhas.unwritten d hd)
        · exact .inl rfl
      · exact absurd rfl (hh _ List.mem_cons_self k phase message)
  frame _ _ _ _ _ hij := absurd (Subsingleton.elim _ _) hij
  finish _ _ _ _ := trivial
  crash _ _ _ := trivial

end Database

/-! ### Users -/

/-- What the environment may do: anything but write the status of the User or remove it. -/
def UserStatusEnv (k : ObjectKey) (s s' : Store) : Prop :=
  ∀ {u}, s.users k = some u → ∃ spec, s'.users k = some { u with spec := spec }

/-- A User that was never reconciled, in a store. -/
def UntouchedUser (k : ObjectKey) (s : Store) : Prop :=
  ∃ u, s.users k = some u ∧ u.phase = .new ∧ u.message = none

/-- Invocations of `User.reconcile`, each started from the stored User, which may be edited. -/
def userStatusSystem (libs : Externals) (client : Client) (srv : Server) (k : ObjectKey) :
    System User Reply (Except Error Action) Store where
  start s l p := s.users k = some l ∧ p = (l.reconcile libs client).run
  serve := Serves srv
  env := UserStatusEnv k

/-- No phase but `Error` takes effect on a User that has a message. -/
def NotOverMessage {ι : Type} (k : ObjectKey)
    (c : Config ι User Reply (Except Error Action) Store) (m : Move ι User Reply Store) : Prop :=
  ∀ i l h phase message r s', m = .call i l h (.api (.mergeUserStatus k phase message)) r s' →
    phase ≠ .error → s' = c.store ∨ ∀ u, c.store.users k = some u → u.message = none

section User

variable {ι : Type} {libs : Externals} {client : Client} {srv : Server} {k : ObjectKey} {q : Call}
  {r : Reply q} {s s' : Store}

/-- The stored User changes only by a status write. -/
theorem Serves.user (hs : Serves srv q s r s') {u : User} (hu : s.users k = some u) :
    s'.users k = some u ∨ ∃ phase message, q = .api (.mergeUserStatus k phase message) ∧
      s'.users k = some (u.mergeStatus phase message) := by
  rcases hs.cases with rfl | ⟨rfl, -⟩
  · exact .inl hu
  rcases users_effect srv q s k with hsame | ⟨phase, message, rfl, hnew⟩
  · exact .inl (hsame.trans hu)
  · rw [hu] at hnew
    exact .inr ⟨phase, message, rfl, hnew⟩

/-- Runs in which nothing but `Error` is written over a message. -/
theorem userMessage_preserves [DecidableEq ι] (libs : Externals) (client : Client) (srv : Server)
    (k : ObjectKey) :
    (userStatusSystem libs client srv k).Preserves (UntouchedUser k) (NotOverMessage (ι := ι) k)
      { store := fun s _ => ∃ u, s.users k = some u ∧ u.MessageBelongs
        task := fun _ _ _ => True
        guard := fun _ _ q => q.MessageBelongs } where
  init hs := by
    obtain ⟨u, hu, -, hnone⟩ := hs
    refine ⟨⟨u, hu, fun hm => ?_⟩, trivial⟩
    rw [hnone] at hm
    cases hm
  env hc _ he := by
    obtain ⟨u, hu, hbelongs⟩ := hc.store
    obtain ⟨spec, hspec⟩ := he hu
    exact ⟨⟨_, hspec, hbelongs⟩, fun _ _ _ _ _ => trivial, fun _ _ => trivial⟩
  start hc _ _ hs := by
    obtain ⟨-, rfl⟩ := hs
    exact ⟨hc.store, trivial, User.reconcile_messageBelongs libs client _ _⟩
  call {c i l h q k' r s'} hc hi hwrite hok hs := by
    obtain ⟨u, hu, hbelongs⟩ := hc.store
    refine ⟨?_, trivial⟩
    rcases hs.user hu with hsame | ⟨phase, message, rfl, hnew⟩
    · exact ⟨u, hsame, hbelongs⟩
    by_cases hphase : phase = .error
    · exact ⟨_, hnew, fun _ => hphase⟩
    rcases hok i l h phase message r s' rfl hphase with rfl | hnone
    · exact ⟨u, hu, hbelongs⟩
    refine ⟨_, hnew, fun hm => ?_⟩
    have hsome : (message <|> u.message).isSome := hm
    rw [hnone u hu] at hsome
    exact hwrite (by simpa using hsome)
  frame _ _ _ _ _ _ := ⟨fun _ _ _ _ => trivial, fun _ => trivial⟩
  finish _ _ _ _ := trivial
  crash _ _ _ := trivial

/-- A step that writes another phase over a message leaves it where it does not belong. -/
theorem notOverMessage_of_belongs [DecidableEq ι]
    {c c' : Config ι User Reply (Except Error Action) Store} {m : Move ι User Reply Store}
    (h : (userStatusSystem libs client srv k).Step c m c')
    (hbelongs : ∀ u, c'.store.users k = some u → u.MessageBelongs) : NotOverMessage k c m := by
  rintro i l h phase message r s' rfl hphase
  cases h with
  | call hi hs =>
    have hserves : Serves srv (.api (.mergeUserStatus k phase message)) c.store r s' := hs
    rcases hserves.cases with hsame | ⟨heff, -⟩
    · exact .inl hsame
    refine .inr fun u hu => ?_
    by_contra hm
    have hnew : s'.users k = some (u.mergeStatus phase message) := by
      rw [heff]
      simp only [effect, answer, hu, Option.map_some, patched, Store.log]
      exact Function.update_self ..
    have hsome : (message <|> u.message).isSome := by
      cases message with
      | none => exact Option.isSome_iff_ne_none.mpr hm
      | some m => rfl
    exact hphase (hbelongs _ hnew hsome)

end User

/-- **Where messages belong.** A Database that is reconciled by one process has a message with phase
`Error` only. A User has, in the runs in which no other phase is written over a message; and a step
that writes one over a message leads to a status where it does not belong. -/
theorem message_belongs (libs : Externals) (client : Client) (srv : Server) (k : ObjectKey) :
    (∀ c : DatabaseRun Unit, (databaseSystem libs client srv k).Reachable (UntouchedDatabase k)
      System.anyMove c → ∀ d, c.store.databases k = some d → d.MessageBelongs) ∧
    (∀ (ι : Type) [DecidableEq ι] (c : Config ι User Reply (Except Error Action) Store),
      (userStatusSystem libs client srv k).Reachable (UntouchedUser k) (NotOverMessage k) c →
        ∀ u, c.store.users k = some u → u.MessageBelongs) ∧
    ∀ (ι : Type) [DecidableEq ι] (c c' : Config ι User Reply (Except Error Action) Store)
      (m : Move ι User Reply Store), (userStatusSystem libs client srv k).Step c m c' →
        (∀ u, c'.store.users k = some u → u.MessageBelongs) → NotOverMessage k c m := by
  refine ⟨fun c hc d hd => ?_, fun ι _ c hc u hu => ?_, fun ι _ c c' m h hbelongs => ?_⟩
  · obtain ⟨d', hd', hbelongs⟩ := ((databaseMessage_preserves libs client srv k).sound hc).store
    rwa [Option.some.inj (hd.symm.trans hd')]
  · obtain ⟨u', hu', hbelongs⟩ := ((userMessage_preserves libs client srv k).sound hc).store
    rwa [Option.some.inj (hu.symm.trans hu')]
  · exact notOverMessage_of_belongs h hbelongs

/-! ### Two runs -/

/-- A status write of a User is one of `Error`. -/
def writesError : Call → Store → Bool
  | .api (.mergeUserStatus _ phase _), _ => decide (phase = .error)
  | _, _ => true

/-- One invocation each, whose statement is lost. The User stores the failure. -/
theorem message_belongs_lost :
    (∃ c : DatabaseRun Unit, c.store = ((sampleDatabase.reconcile sampleExternals .kube).run.eval
        (respond ⟨false⟩ sendsStatement) (tenantStore sampleUser)).2 ∧
      ∀ d, c.store.databases sampleDatabase.key = some d → d.MessageBelongs) ∧
    ∃ c : UserRun, c.store = ((sampleUser.reconcile sampleExternals .kube).run.eval
        (respond ⟨false⟩ sendsStatement) (tenantStore sampleUser)).2 ∧
      (c.store.users sampleUser.key).bind User.message =
        some "provision failed: Kube Error: connection reset" ∧
      ∀ u, c.store.users sampleUser.key = some u → u.MessageBelongs := by
  have hdatabase := message_belongs sampleExternals .kube ⟨false⟩ sampleDatabase.key
  have huser := message_belongs sampleExternals .kube ⟨false⟩ sampleUser.key
  constructor
  · have h₀ : (databaseSystem sampleExternals .kube ⟨false⟩ sampleDatabase.key).Settles
        (UntouchedDatabase sampleDatabase.key) System.anyMove (tenantStore sampleUser) :=
      .initial ⟨⟨⟨sampleDatabase, rfl, rfl, rfl⟩, rfl⟩, fun hd => by cases hd; rfl⟩
    obtain ⟨c, hc, -, hs⟩ := h₀.play (l := sampleDatabase) (serves_respond ⟨false⟩ sendsStatement)
      (fun _ _ _ => trivial) ⟨rfl, rfl⟩
    exact ⟨c, hs, hdatabase.1 c hc⟩
  · have h₀ : (userStatusSystem sampleExternals .kube ⟨false⟩ sampleUser.key).Settles
        (UntouchedUser sampleUser.key) (NotOverMessage sampleUser.key) (tenantStore sampleUser) :=
      .initial ⟨sampleUser, rfl, rfl, rfl⟩
    have herror : ∀ c m, System.Played (respond ⟨false⟩ sendsStatement) () sampleUser
        (sampleUser.reconcile sampleExternals .kube).run c m →
        (∀ i l h q r s', m = .call i l h q r s' → writesError q c.store) →
        NotOverMessage sampleUser.key c m := by
      rintro c m - htest i l h phase message r s' rfl hphase
      exact absurd (of_decide_eq_true (htest i l h _ r s' rfl)) hphase
    obtain ⟨c, hc, -, hs⟩ := h₀.play_whole (l := sampleUser)
      (serves_respond ⟨false⟩ sendsStatement) herror ⟨rfl, rfl⟩ (by decide +kernel)
    refine ⟨c, hs, ?_, huser.2.1 Unit c hc⟩
    rw [hs]
    rfl

/-- The statement is lost once, and sent again. The User is Ready, and says that provisioning
failed. -/
theorem ready_with_stale_message : ∃ c : UserRun,
    (userStatusSystem sampleExternals .kube ⟨false⟩ sampleUser.key).Reachable
      (UntouchedUser sampleUser.key) System.anyMove c ∧
    ∃ u, c.store.users sampleUser.key = some u ∧ u.phase = .ready ∧
      u.message = some "provision failed: Kube Error: connection reset" ∧ ¬ u.MessageBelongs := by
  have h₀ : (userStatusSystem sampleExternals .kube ⟨false⟩ sampleUser.key).Settles
      (UntouchedUser sampleUser.key) System.anyMove (tenantStore sampleUser) :=
    .initial ⟨sampleUser, rfl, rfl, rfl⟩
  have h₁ := h₀.play (l := sampleUser) (serves_respond ⟨false⟩ sendsStatement)
    (fun _ _ _ => trivial) ⟨rfl, rfl⟩
  obtain ⟨c, hc, -, hs⟩ := h₁.play (serves_respond ⟨false⟩ fun _ => false)
    (fun _ _ _ => trivial) ⟨rfl, rfl⟩
  refine ⟨c, hc, ?_⟩
  rw [hs]
  exact ⟨_, rfl, rfl, rfl, by decide⟩

end SdbController
