import SdbController.Kubernetes.Create
import SdbController.Provisioning

/-!
# What an invocation of the User reconciler may do

`User.reconcile` is gone through once, here. A password is chosen, the database user is defined with
it, the Secret is created with it unless there is one, then the ConfigMap, and one phase is written
at the end. The `Has*` predicates say how far a run has got and with which password.

## Main results

* `User.reconcile_meets` — every invocation conducts itself so, and follows its verdicts
-/

namespace SdbController

open Interaction Program

namespace User

variable (libs : Externals) (client : Client) (u : User)

/-- The Cluster that the User refers to. -/
def cluster : ObjectKey := ⟨u.clusterNs, u.spec.clusterRef.name⟩

/-- Where the Secret of the User is. -/
def secretKey : ObjectKey := ⟨u.ns, u.secretName⟩

/-- A statement that defines the database user. -/
def userSql (nsName dbName password : String) : Sql :=
  .defineDatabaseUser nsName dbName u.username password

/-- The password may be chosen: that of the spec, and a generated one if the spec has none. -/
def MayChoose (password : String) : Prop :=
  (∀ p, u.spec.password = some p → password = p) ∧
    (u.spec.password = none → ∃ d : Draws 20, password = d.password)

/-- The write of a phase, as a call. -/
def PhaseWrite (phase : UserPhase) (q : Call) : Prop :=
  ∃ message, q = .api (.mergeUserStatus u.key phase message)

/-- The ConfigMap that an invocation creates. -/
def ownConfigMap : ConfigMap := u.configMap u.username u.clusterNs u.spec.clusterRef.name

/-- The last call was the statement for the user, with a good verdict. -/
def HasUser (h : History Reply) (password : String) : Prop :=
  u.MayChoose password ∧ ∃ nsName dbName q r h', h = sent q r :: h' ∧
    Asks libs client u.cluster (u.userSql nsName dbName password) q ∧ client.verdict r = .ok () ∧
    Quiet h'

/-- The last call was the creation of the Secret, and now there is one. -/
def HasSecret (h : History Reply) (password : String) : Prop :=
  ∃ (r : Except KubeError Unit) (h' : History Reply),
    h = ⟨.api (.createSecret (u.secret password)), r⟩ :: h' ∧ Established r ∧
      u.HasUser libs client h' password

/-- The last call was the creation of the ConfigMap, and now there is one. -/
def HasConfigMap (h : History Reply) (password : String) : Prop :=
  ∃ (r : Except KubeError Unit) (h' : History Reply),
    h = ⟨.api (.createConfigMap u.ownConfigMap), r⟩ :: h' ∧ Established r ∧
      u.HasSecret libs client h' password

/-- When a call is issued. -/
def Conduct (h : History Reply) : Call → Prop
  | .api (.mergeUserStatus k phase _) => k = u.key ∧
    ((phase = .ready ∧ ∃ password, u.HasConfigMap libs client h password) ∨ phase = .error)
  | .api (.createSecret x) => ∃ password, x = u.secret password ∧ u.HasUser libs client h password
  | .api (.createConfigMap x) => x = u.ownConfigMap ∧ ∃ password, u.HasSecret libs client h password
  | .http q => Quiet h ∧ ∃ nsName dbName password,
    Asks libs client u.cluster (u.userSql nsName dbName password) q ∧ u.MayChoose password
  | .api q => ¬ q.IsWrite ∧ Quiet h
  | .draw n => n = 20 ∧ Quiet h

section Meets

variable {G : History Reply → Call → Prop} {h : History Reply}

/-- A phase is written last, and whatever comes of it. -/
@[simp] theorem meets_conclude (phase : UserPhase) (message : Option String) (a : Action)
    {Q : History Reply → Except Error Action → Prop} :
    Meets G Q h (do
        let _ ← Reconciler.attempt (u.setPhaseMsg phase message)
        pure a : Reconciler Action).run ↔
      G h (.api (.mergeUserStatus u.key phase message)) ∧ ∀ r : Except KubeError Unit,
        Q (⟨.api (.mergeUserStatus u.key phase message), r⟩ :: h) (.ok a) := Iff.rfl

/-- A helper that creates one object and returns its name. -/
theorem meets_create (q : ApiRequest) (name : String)
    {Q : History Reply → Except Error String → Prop}
    (hG : G h (.api q))
    (hok : ∀ r : Except KubeError q.Object, Established r → Q (⟨.api q, r⟩ :: h) (.ok name))
    (herr : ∀ (r : Except KubeError q.Object) e, Q (⟨.api q, r⟩ :: h) (.error e)) :
    Meets G Q h (do
      Reconciler.createIfAbsent q
      pure name : Reconciler String).run := by
  rw [meets_except_bind, Reconciler.meets_createIfAbsent]
  have hfound (e : KubeError) (he : e.hasCode 409) :
      Q (⟨.api q, (.error e : Except KubeError q.Object)⟩ :: h) (.ok name) := by
    refine hok (.error e) fun e' he' => ?_
    cases he'
    exact he
  refine ⟨hG, fun o => ?_, fun e => ?_⟩
  · exact hok (.ok o) fun e he => nomatch he
  · by_cases he : e.hasCode 409
    · rw [if_pos he]
      exact hfound e he
    · rw [if_neg he]
      exact herr _ _

/-- The password is chosen without a call that matters. -/
theorem meets_choosePassword {Q : History Reply → Except Error String → Prop} (hh : Quiet h)
    (hG : ∀ h', Quiet h' → G h' (.draw 20))
    (hQ : ∀ h' password, Quiet h' → u.MayChoose password → Q h' (.ok password)) :
    Meets G Q h u.choosePassword.run := by
  rw [choosePassword]
  cases hp : u.spec.password with
  | some password =>
    refine hQ h password hh ⟨fun p hsome => ?_, fun hnone => ?_⟩
    · exact Option.some.inj (hp.symm.trans hsome)
    · cases hp.symm.trans hnone
  | none =>
    have hdrawn (d : Draws 20) : u.MayChoose d.password := by
      refine ⟨fun p hsome => ?_, fun _ => ⟨d, rfl⟩⟩
      cases hp.symm.trans hsome
    simp only [meets_except_bind, Reconciler.meets_draw, Reconciler.meets_pure]
    exact ⟨hG h hh, fun d => hQ _ _ (hh.cons (q := .draw 20) trivial d) (hdrawn d)⟩

end Meets

section Calls

variable {P : Call → Prop}

theorem choosePassword_calls (hP : P (.draw 20)) : Reconciler.Calls P u.choosePassword := by
  rw [choosePassword]
  cases u.spec.password with
  | some password => exact .pure _
  | none => exact .bind (.draw hP) fun _ => .pure _

/-- Publishing makes two creates and writes one phase. -/
theorem publish_calls (password : String) (hsecret : P (.api (.createSecret (u.secret password))))
    (hconfigMap : P (.api (.createConfigMap u.ownConfigMap)))
    (herror : ∀ m, P (.api (.mergeUserStatus u.key .error (some m))))
    (hready : P (.api (.mergeUserStatus u.key .ready none))) :
    Reconciler.Calls P (u.publish password) := by
  refine .bind (.attempt (.bind (.createIfAbsent hsecret) fun _ => .pure _)) ?_
  rintro (e | _)
  · exact .discard (.call (herror _)) _
  refine .bind (.attempt (.bind (.createIfAbsent hconfigMap) fun _ => .pure _)) ?_
  rintro (e | _)
  · exact .discard (.call (herror _)) _
  · exact .discard (.call hready) _

end Calls

theorem conduct_read {h : History Reply} {q : ApiRequest} (hq : ¬ q.IsWrite) (hh : Quiet h) :
    u.Conduct libs client h (.api q) := by
  cases q with
  | getCluster k | getDatabase k | getSecret k | getDeployment k | getTidbCluster k =>
    exact ⟨hq, hh⟩
  | _ => exact absurd trivial hq

/-- A request to the API server is a read before the statement, or one of the three writes. -/
theorem Conduct.api {libs : Externals} {client : Client} {u : User} {h : History Reply}
    {q : ApiRequest} (hq : u.Conduct libs client h (.api q)) :
    (¬ q.IsWrite ∧ Quiet h) ∨
      (∃ password, q = .createSecret (u.secret password) ∧ u.HasUser libs client h password) ∨
      (q = .createConfigMap u.ownConfigMap ∧ ∃ password, u.HasSecret libs client h password) ∨
      ∃ phase message, q = .mergeUserStatus u.key phase message ∧
        ((phase = .ready ∧ ∃ password, u.HasConfigMap libs client h password) ∨
          phase = .error) := by
  cases q with
  | createSecret x =>
    obtain ⟨password, rfl, hhas⟩ := hq
    exact .inr (.inl ⟨password, rfl, hhas⟩)
  | createConfigMap x =>
    obtain ⟨rfl, hhas⟩ := hq
    exact .inr (.inr (.inl ⟨rfl, hhas⟩))
  | mergeUserStatus k phase message =>
    obtain ⟨rfl, hphase⟩ := hq
    exact .inr (.inr (.inr ⟨phase, message, rfl, hphase⟩))
  | _ => exact .inl hq

/-- What holds of a finished invocation. -/
abbrev Ends (h : History Reply) : Prop :=
  Follows client (u.PhaseWrite .ready) (u.PhaseWrite .error) h

/-- The write of `Error` is not the write of `Ready`. -/
theorem not_ready_of_error {message : Option String} :
    ¬ u.PhaseWrite .ready (.api (.mergeUserStatus u.key .error message)) := by
  rintro ⟨m, hm⟩
  cases hm

theorem Quiet.not_phaseWrite {h : History Reply} (hh : Quiet h) (phase : UserPhase) :
    ∀ e ∈ h, ¬ u.PhaseWrite phase e.1 := by
  rintro e he ⟨m, hm⟩
  have hpassive := hh e he
  rw [hm] at hpassive
  exact hpassive trivial

/-- From a good verdict on: the Secret, the ConfigMap and the phase. -/
theorem publish_meets {password : String} {h : History Reply}
    (hh : u.HasUser libs client h password) (hgoing : Going client h) :
    (u.publish password).run.Meets (u.Conduct libs client) (fun h _ => u.Ends client h) h := by
  -- a phase written right after something was created
  have concluded {h : History Reply} (hh : Going client h)
      (hlast : ∀ q r older, h ≠ sent q r :: older) {q : ApiRequest} {a : Reply (.api q)} :
      u.Ends client (⟨.api q, a⟩ :: h) := by
    refine (hh.cons_api a).follows ?_
    rintro w q r older heq -
    cases heq
    exact hlast q r older rfl
  rw [publish, meets_except_bind, Reconciler.meets_attempt]
  refine meets_create (.createSecret (u.secret password)) _ ⟨password, rfl, hh⟩ (fun r hr => ?_)
    fun r e => ?_
  · have hgoing' := hgoing.cons_api (q := .createSecret (u.secret password)) r
    have hsecret : u.HasSecret libs client (⟨.api (.createSecret (u.secret password)), r⟩ :: h)
        password := ⟨r, h, rfl, hr, hh⟩
    dsimp only
    rw [meets_except_bind, Reconciler.meets_attempt]
    refine meets_create (.createConfigMap u.ownConfigMap) _ ⟨rfl, password, hsecret⟩
      (fun r' hr' => ?_) fun r' e => ?_
    · refine (u.meets_conclude .ready none ⟨120⟩).mpr
        ⟨⟨rfl, .inl ⟨rfl, password, r', _, rfl, hr', hsecret⟩⟩, fun _ => ?_⟩
      refine concluded (hgoing'.cons_api (q := .createConfigMap u.ownConfigMap) r') ?_
      intro q r'' older heq
      cases heq
    · refine (u.meets_conclude .error _ ⟨20⟩).mpr ⟨⟨rfl, .inr rfl⟩, fun _ => ?_⟩
      refine concluded (hgoing'.cons_api (q := .createConfigMap u.ownConfigMap) r') ?_
      intro q r'' older heq
      cases heq
  · refine (u.meets_conclude .error _ ⟨20⟩).mpr ⟨⟨rfl, .inr rfl⟩, fun _ => ?_⟩
    refine concluded (hgoing.cons_api (q := .createSecret (u.secret password)) r) ?_
    intro q r' older heq
    cases heq

theorem provision_meets :
    (u.provision libs client).run.Meets (u.Conduct libs client)
      (fun h _ => u.Ends client h) [] := by
  -- an invocation that stops without a statement just sent
  have stopped {h : History Reply} (hh : Quiet h) : u.Ends client h := by
    refine (hh.going client).follows ?_
    rintro w q r older rfl -
    exact hh _ (List.mem_cons_of_mem _ List.mem_cons_self)
  have hdb : (Call.api (.getDatabase ⟨u.dbNs, u.spec.databaseRef.name⟩)).IsPassive := id
  simp only [provision, meets_except_bind, Reconciler.meets_call_api]
  refine ⟨u.conduct_read libs client id .nil, fun db => ?_, fun e => stopped (Quiet.nil.cons hdb _)⟩
  refine Database.meets_getRootCredentials _ _ (Quiet.nil.cons hdb _)
    (fun h' q hh hq => u.conduct_read libs client hq hh) ?_
  rintro h (e | ⟨user, pass⟩) hh
  · exact stopped hh
  refine u.meets_choosePassword hh (fun _ hh => ⟨rfl, hh⟩) fun h password hh hp => ?_
  simp only [provisionUser, ↓meets_conclude, Reconciler.meets_attempt, meets_sendSql]
  refine ⟨fun request hreq => ⟨⟨hh, _, _, password, ⟨user, pass, request, hreq, rfl⟩, hp⟩,
    fun r => ?_⟩, fun e he => ?_⟩
  · cases hr : client.verdict r with
    | error e =>
      have hbad : client.verdict r ≠ .ok () := by simp [hr]
      rw [meets_conclude]
      exact ⟨⟨rfl, .inr rfl⟩, fun _ => (hh.going client).follows_of_refused hbad ⟨_, rfl⟩
        ⟨u.not_ready_of_error, (by rintro ⟨_, hm⟩; cases hm), Quiet.not_phaseWrite u hh .ready⟩⟩
    | ok =>
      exact u.publish_meets libs client
        ⟨hp, _, _, _, r, h, rfl, ⟨user, pass, request, hreq, rfl⟩, hr, hh⟩
        ((hh.going client).cons_sent hr)
  · refine ⟨⟨rfl, .inr rfl⟩, fun _ => ((hh.going client).cons_api _).follows ?_⟩
    rintro w q r older heq -
    cases heq
    exact hh _ List.mem_cons_self

/-- **Every invocation of `User.reconcile` conducts itself**, and it calls only if the phase is one
that provisions. -/
theorem reconcile_meets :
    (u.reconcile libs client).run.Meets
      (fun h q => (u.phase = .new ∨ u.phase = .error) ∧ u.Conduct libs client h q)
      (fun h _ => u.Ends client h) [] := by
  have idle : u.Ends client [] := (Quiet.nil.going client).follows fun heq => nomatch heq
  rw [reconcile]
  split
  · next hp =>
    exact (u.provision_meets libs client).mono (fun _ _ hq => ⟨.inl hp, hq⟩) fun _ _ => id
  · next hp =>
    exact (u.provision_meets libs client).mono (fun _ _ hq => ⟨.inr hp, hq⟩) fun _ _ => id
  · exact idle

end User

end SdbController
