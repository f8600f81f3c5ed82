import SdbController.Cluster.Reconcile

/-!
# What an invocation of the Cluster reconciler may do

`Cluster.reconcile` is gone through once, here. `Conduct c h q` says what is true whenever an
invocation started from snapshot `c` issues the call `q` with history `h` behind it: which phases it
may write and on what evidence, which mode it deploys, what it reads and creates. `Ends` says what
is true when it returns. Every result about runs of the Cluster controller is derived from these
two, so a change to one branch of the source is a change to one clause and one case below.

## Reading the clauses

Histories are newest first. A clause such as `h = ⟨q, r⟩ :: _` says that `q` is the call made just
before, so the clauses pin down the order of the calls within a branch and not only their presence.

## Main results

* `Cluster.reconcile_meets` — every invocation conducts itself so
-/

namespace SdbController

open Interaction Program

namespace Cluster

variable (c : Cluster)

/-- The status write of `set_phase`, as a call. -/
def phaseWrite (phase : Phase) : Call := .api (.mergeClusterStatus c.key phase)

/-- The Deployment write in one mode, as a call. -/
def deployCall (m : Bool) : Call := .api (.applyDeployment (c.buildSurrealDeployment c.name m))

/-- The Service write, as a call. -/
def serviceCall : Call := .api (.applyService (c.buildSurrealService c.name))

/-- The status read of `check_ready`, as a call. -/
def readyCall : Call := .api (.getDeployment c.workloadKey)

/-- A reply to a request. -/
def replied (q : ApiRequest) (r : Except KubeError q.Object) : Σ q, Reply q := ⟨.api q, r⟩

/-- The successful reply to a Deployment write. -/
def deployed (m : Bool) : Σ q, Reply q :=
  replied (.applyDeployment (c.buildSurrealDeployment c.name m)) (.ok ())

/-- The successful reply to a Service write. -/
def served : Σ q, Reply q := replied (.applyService (c.buildSurrealService c.name)) (.ok ())

/-- A reply to a status write. -/
def wrote (phase : Phase) (r : Except KubeError Unit) : Σ q, Reply q :=
  replied (.mergeClusterStatus c.key phase) r

/-- A reply to a status read. -/
def observed (r : Except KubeError LiveDeployment) : Σ q, Reply q :=
  replied (.getDeployment c.workloadKey) r

/-- A reply to a bootstrap request. -/
def bootstrapped (user pass : String) (r : HttpOutcome) : Σ q, Reply q :=
  ⟨.http (c.bootstrapRequest c.name user pass), r⟩

/-- The phase that a call writes, if it writes one. -/
def written : (Σ q, Reply q) → Option Phase
  | ⟨.api (.mergeClusterStatus _ phase), _⟩ => some phase
  | _ => none

@[simp] theorem written_wrote (phase : Phase) (r : Except KubeError Unit) :
    written (c.wrote phase r) = some phase := rfl

/-- The last call was one for the root Secret, and it failed. -/
def Blocked (h : History Reply) : Prop :=
  ∃ (e : KubeError) (h' : History Reply),
    (∃ password, e.hasCode 409 = false ∧
      h = replied (.createSecret (c.rootSecret password)) (.error e) :: h') ∨
    h = replied (.replaceRootSecret c.key ⟨some c.rootSecretName, some c.ns⟩) (.error e) :: h'

/-- When a phase is written: from which phase, and on what evidence. -/
def Writes (h : History Reply) (phase : Phase) : Prop :=
  match c.phase, phase with
  | .new, .error => c.tikvBackendConfigured ≠ .ok () ∨ c.Blocked h
  | .new, .preparing =>
    c.tikvBackendConfigured = .ok () ∧ c.spec.tidbCluster.isSome ∧
      ∃ sel, Returns c.ensureRootSecret.run h (.ok sel)
  | .new, .inCreation =>
    c.tikvBackendConfigured = .ok () ∧ c.spec.tidbCluster = none ∧
      ∃ sel, Returns c.ensureRootSecret.run h (.ok sel)
  | .preparing, .inCreation => True
  | .inCreation, .inProgress => ∃ u p r h', h = c.bootstrapped u p r :: h' ∧ r.IsSuccess
  | .inProgress, .ready | .notReady, .ready =>
    ∃ dp, h = [c.observed (.ok dp), c.served, c.deployed false] ∧ dp.pods ≠ []
  | .inProgress, .notReady | .ready, .notReady =>
    ∃ r, h = [c.observed r, c.served, c.deployed false] ∧ ∀ dp, r = .ok dp → dp.pods = []
  | _, _ => False

/-- When a Deployment is applied, and in which mode. -/
def Deploys (h : History Reply) (m : Bool) : Prop :=
  match c.phase with
  | .new => m = true ∧ ∃ h', h = c.wrote .inCreation (.ok ()) :: h'
  | .preparing => m = true ∧ ∃ r h', h = c.wrote .inCreation r :: h'
  | .inCreation => m = false ∧
    ∃ r u p r' h', h = c.wrote .inProgress r :: c.bootstrapped u p r' :: h' ∧ r'.IsSuccess
  | _ => m = false ∧ h = []

/-- When a call is issued. -/
def Conduct (h : History Reply) : Call → Prop
  | .api (.mergeClusterStatus k phase) => k = c.key ∧ c.Writes h phase
  | .api (.applyDeployment x) => ∃ m, x = c.buildSurrealDeployment c.name m ∧ c.Deploys h m
  | .api (.applyService x) => x = c.buildSurrealService c.name ∧
    ∃ m h', h = c.deployed m :: h' ∧ c.Deploys h' m
  | .api (.createSecret x) => c.phase = .new ∧ c.spec.rootSecret = none ∧
    ∃ password, x = c.rootSecret password
  | .api (.replaceRootSecret k r) => c.phase = .new ∧ c.spec.rootSecret = none ∧ k = c.key ∧
    r = ⟨some c.rootSecretName, some c.ns⟩
  | .api (.createTidbCluster x) => c.phase = .preparing ∧
    ∃ spec, c.spec.tidbCluster = some spec ∧ x = c.tidbClusterObject c.name spec
  | .api (.getTidbCluster k) => c.phase = .preparing ∧ k = c.key
  | .api (.getDeployment k) => k = c.workloadKey ∧
    (c.phase = .inCreation ∨ h = [c.served, c.deployed false])
  | .api (.getSecret k) => c.phase = .inCreation ∧ k.ns = c.ns ∧
    c.spec.rootSecret.bind SecretReference.name = some k.name
  | .http q => c.phase = .inCreation ∧ ∃ u p, q = c.bootstrapRequest c.name u p
  | .draw _ => c.phase = .new
  | _ => False

/-- An error that ends an invocation on its way into `InCreation`. The branch for `Preparing` goes
on after a failed status write. -/
def Stops (x : Σ q, Reply q) : Prop :=
  ∃ e, x = replied (.applyDeployment (c.buildSurrealDeployment c.name true)) (.error e) ∨
    x = replied (.applyService (c.buildSurrealService c.name)) (.error e) ∨
    (c.phase = .new ∧ x = c.wrote .inCreation (.error e))

/-- When an invocation returns: one that meant to enter `InCreation` has applied both parts of the
open workload, or was stopped. -/
def Ends (h : History Reply) : Prop :=
  (c.phase = .new ∨ c.phase = .preparing) → .inCreation ∈ h.filterMap written →
    (∃ h', h = c.served :: c.deployed true :: h') ∨ ∃ x h', h = x :: h' ∧ c.Stops x

/-! ### The helpers -/

section Helpers

variable {G : History Reply → Call → Prop} {h : History Reply}

@[simp] theorem meets_setPhase (phase : Phase) {Q : History Reply → Except Error Unit → Prop} :
    Meets G Q h (c.setPhase phase).run ↔
      G h (c.phaseWrite phase) ∧ Q (c.wrote phase (.ok ()) :: h) (.ok ()) ∧
        ∀ e, Q (c.wrote phase (.error e) :: h) (.error (.kubeError e)) := by
  refine (Reconciler.meets_call_api (.mergeClusterStatus c.key phase)).trans ?_
  exact and_congr_right fun _ => and_congr_left fun _ => ⟨fun H => H (), fun H _ => H⟩

@[simp] theorem meets_persistRootSecretRef (hc : c.spec.rootSecret = none) (n : String)
    {Q : History Reply → Except Error Unit → Prop} :
    Meets G Q h (c.persistRootSecretRef n).run ↔
      G h (.api (.replaceRootSecret c.key ⟨some n, some c.ns⟩)) ∧
        Q (replied (.replaceRootSecret c.key ⟨some n, some c.ns⟩) (.ok ()) :: h) (.ok ()) ∧
        ∀ e, Q (replied (.replaceRootSecret c.key ⟨some n, some c.ns⟩) (.error e) :: h)
          (.error (.kubeError e)) := by
  have hcall : c.persistRootSecretRef n =
      Reconciler.call (.replaceRootSecret c.key ⟨some n, some c.ns⟩) := if_neg (by simp [hc])
  rw [hcall]
  refine (Reconciler.meets_call_api (.replaceRootSecret c.key ⟨some n, some c.ns⟩)).trans ?_
  exact and_congr_right fun _ => and_congr_left fun _ => ⟨fun H => H (), fun H _ => H⟩

@[simp] theorem meets_reconcileSurrealdbWithMode (m : Bool)
    {Q : History Reply → Except Error Unit → Prop} :
    Meets G Q h (c.reconcileSurrealdbWithMode c.name m).run ↔
      G h (c.deployCall m) ∧
      (∀ e, Q (replied (.applyDeployment (c.buildSurrealDeployment c.name m)) (.error e) :: h)
        (.error (.kubeError e))) ∧
      G (c.deployed m :: h) c.serviceCall ∧
      (∀ e, Q (replied (.applyService (c.buildSurrealService c.name)) (.error e) ::
        c.deployed m :: h) (.error (.kubeError e))) ∧
      Q (c.served :: c.deployed m :: h) (.ok ()) := by
  simp only [reconcileSurrealdbWithMode, meets_except_bind, Reconciler.meets_call_api,
    Reconciler.meets_pure]
  constructor
  · rintro ⟨hd, hok, herr⟩
    obtain ⟨hs, hok', herr'⟩ := hok ()
    exact ⟨hd, herr, hs, herr', hok' ()⟩
  · rintro ⟨hd, herr, hs, herr', hok⟩
    exact ⟨hd, fun _ => ⟨hs, fun _ => hok, herr'⟩, herr⟩

@[simp] theorem meets_checkReady {Q : History Reply → Except Error Bool → Prop} :
    Meets G Q h (c.checkReady c.name).run ↔
      G h c.readyCall ∧
      (∀ dp, Q (c.observed (.ok dp) :: h) (.ok (0 < dp.availableReplicas.getD 0))) ∧
      ∀ e, Q (c.observed (.error e) :: h) (.error (.kubeError e)) := by
  simp only [checkReady, meets_except_bind, Reconciler.meets_call_api, Reconciler.meets_pure]
  rfl

/-- The branches for `InProgress`, `Ready` and `NotReady` begin alike: apply the authenticated
workload, read its status, and go on with what was read. -/
theorem meets_steady {f : Except Error Bool → Reconciler Action}
    (hc : ∀ h, c.Deploys h false ↔ h = []) (hends : ∀ h, c.Ends h)
    (htrue : ∀ dp, dp.pods ≠ [] → (f (.ok true)).run.Meets c.Conduct (fun h _ => c.Ends h)
      [c.observed (.ok dp), c.served, c.deployed false])
    (hfalse : ∀ dp, dp.pods = [] → (f (.ok false)).run.Meets c.Conduct (fun h _ => c.Ends h)
      [c.observed (.ok dp), c.served, c.deployed false])
    (herr : ∀ e, (f (.error (.kubeError e))).run.Meets c.Conduct (fun h _ => c.Ends h)
      [c.observed (.error e), c.served, c.deployed false]) :
    (do let _ ← c.reconcileSurrealdbWithMode c.name false
        let b ← Reconciler.attempt (c.checkReady c.name)
        f b : Reconciler Action).run.Meets c.Conduct (fun h _ => c.Ends h) [] := by
  simp only [meets_except_bind, meets_reconcileSurrealdbWithMode, Reconciler.meets_attempt,
    meets_checkReady]
  refine ⟨⟨false, rfl, (hc _).mpr rfl⟩, fun e => hends _,
    ⟨rfl, false, [], rfl, (hc _).mpr rfl⟩, fun e => hends _, ⟨rfl, .inr rfl⟩, fun dp => ?_, herr⟩
  by_cases hpods : dp.pods = []
  · rw [show decide _ = false by simpa [LiveDeployment.availableReplicas_pos] using hpods]
    exact hfalse dp hpods
  · rw [show decide _ = true by simpa [LiveDeployment.availableReplicas_pos] using hpods]
    exact htrue dp hpods

end Helpers

/-! ### The branches -/

/-- `ensure_root_secret` writes no phase, and it fails only when one of its calls does. -/
theorem ensureRootSecret_meets (hc : c.phase = .new) :
    c.ensureRootSecret.run.Meets c.Conduct
      (fun h r => Returns c.ensureRootSecret.run h r ∧ .inCreation ∉ h.filterMap written ∧
        ∀ e, r = .error e → c.Blocked h) [] := by
  have key : c.ensureRootSecret.run.Meets c.Conduct
      (fun h r => .inCreation ∉ h.filterMap written ∧ ∀ e, r = .error e → c.Blocked h) [] := by
    rw [ensureRootSecret]
    split
    · exact ⟨List.not_mem_nil, fun _ he => by cases he⟩
    · next hnone =>
      have persist : ∀ h', .inCreation ∉ h'.filterMap written →
          ((do c.persistRootSecretRef c.rootSecretName
               pure ⟨some c.rootSecretName, some c.ns⟩ : Reconciler SecretReference).run.Meets
            c.Conduct (fun h r => .inCreation ∉ h.filterMap written ∧
              ∀ e, r = .error e → c.Blocked h) h') := by
        intro h' hh'
        simp only [meets_except_bind, c.meets_persistRootSecretRef hnone, Reconciler.meets_pure]
        exact ⟨⟨hc, hnone, rfl, rfl⟩,
          ⟨by simpa [replied, written] using hh', fun _ he => by cases he⟩,
          fun e => ⟨by simpa [replied, written] using hh', fun _ _ => ⟨e, h', .inr rfl⟩⟩⟩
      simp only [meets_except_bind, Reconciler.meets_draw, Reconciler.meets_createIfAbsent]
      refine ⟨hc, fun d => ⟨⟨hc, hnone, d.password, rfl⟩, fun _ => ?_, fun e => ?_⟩⟩
      · exact (meets_except_bind _ _).mp (persist _ (by simp [written]))
      · cases he : e.hasCode 409
        · exact ⟨by simp [written], fun _ _ => ⟨e, _, .inl ⟨d.password, he, rfl⟩⟩⟩
        · exact (meets_except_bind _ _).mp (persist _ (by simp [written]))
  exact (key.and (meets_returns _)).mono (fun _ _ h => h.1) fun _ _ h => ⟨h.2, h.1⟩

theorem reconcileNew_meets (hc : c.phase = .new) :
    c.reconcileNew.run.Meets c.Conduct (fun h _ => c.Ends h) [] := by
  rw [reconcileNew]
  split
  · next herr =>
    simp only [meets_except_bind, meets_setPhase, Reconciler.meets_pure]
    refine ⟨⟨rfl, ?_⟩, fun _ => by simp [wrote, replied, written],
      fun e _ => by simp [wrote, replied, written]⟩
    simp only [Writes, hc]
    exact .inl (by simp [herr])
  · next hb =>
    simp only [meets_except_bind, Reconciler.meets_attempt]
    refine (c.ensureRootSecret_meets hc).mono (fun _ _ h => h) fun h r hr => ?_
    obtain ⟨hret, hnot, hblocked⟩ := hr
    rcases r with e | sel
    · simp only [meets_except_bind, Reconciler.meets_attempt, meets_setPhase, Reconciler.meets_pure]
      refine ⟨⟨rfl, ?_⟩, fun _ hw => absurd hw (by simpa [written_wrote] using hnot),
        fun e _ hw => absurd hw (by simpa [written_wrote] using hnot)⟩
      simp only [Writes, hc]
      exact .inr (hblocked e rfl)
    · cases htidb : c.spec.tidbCluster with
      | some spec =>
        simp only [meets_except_bind, Reconciler.meets_attempt, meets_setPhase,
          Reconciler.meets_pure]
        refine ⟨⟨rfl, ?_⟩, fun _ hw => absurd hw (by simpa [written_wrote] using hnot),
          fun e _ hw => absurd hw (by simpa [written_wrote] using hnot)⟩
        simp only [Writes, hc]
        exact ⟨hb, by rw [htidb]; rfl, sel, hret⟩
      | none =>
        simp only [meets_except_bind, meets_setPhase, meets_reconcileSurrealdbWithMode,
          Reconciler.meets_pure]
        have hd : c.Deploys (c.wrote .inCreation (.ok ()) :: h) true := by
          simp only [Deploys, hc, true_and]
          exact ⟨h, rfl⟩
        refine ⟨⟨rfl, ?_⟩, ⟨⟨true, rfl, hd⟩, fun e _ _ => .inr ⟨_, _, rfl, e, .inl rfl⟩,
          ⟨rfl, true, _, rfl, hd⟩, fun e _ _ => .inr ⟨_, _, rfl, e, .inr (.inl rfl)⟩,
          fun _ _ => .inl ⟨_, rfl⟩⟩, fun e _ _ => .inr ⟨_, _, rfl, e, .inr (.inr ⟨hc, rfl⟩)⟩⟩
        simp only [Writes, hc]
        exact ⟨hb, htidb, sel, hret⟩

/-- Creating the TidbCluster writes no phase. -/
theorem reconcileTidbCluster_meets (hc : c.phase = .preparing) :
    (c.reconcileTidbCluster c.name).run.Meets c.Conduct
      (fun h _ => .inCreation ∉ h.filterMap written) [] := by
  rw [reconcileTidbCluster]
  split
  · exact List.not_mem_nil
  · next spec hspec =>
    simp only [Reconciler.meets_createIfAbsent]
    exact ⟨⟨hc, spec, hspec, rfl⟩, fun _ => by simp [written], fun _ => by simp [written]⟩

theorem reconcilePreparing_meets (hc : c.phase = .preparing) :
    c.reconcilePreparing.run.Meets c.Conduct (fun h _ => c.Ends h) [] := by
  simp only [reconcilePreparing, meets_except_bind, Reconciler.meets_attempt]
  refine (c.reconcileTidbCluster_meets hc).mono (fun _ _ h => h) fun h r hnot => ?_
  rcases r with e | _
  · exact fun _ hw => absurd hw hnot
  simp only [meets_except_bind, Reconciler.meets_api]
  refine ⟨⟨hc, rfl⟩, fun r => ?_⟩
  have hnot' : .inCreation ∉ (replied (.getTidbCluster c.key) r :: h).filterMap written := by
    simpa [replied, written] using hnot
  rcases r with e | _ | tc
  · exact fun _ hw => absurd hw hnot'
  · exact fun _ hw => absurd hw hnot'
  dsimp only
  split
  · simp only [meets_except_bind, Reconciler.meets_attempt, meets_setPhase,
      meets_reconcileSurrealdbWithMode, Reconciler.meets_pure]
    -- the workload is applied whether the phase was written or not
    have enter : ∀ r, c.Deploys (c.wrote .inCreation r ::
        replied (.getTidbCluster c.key) (.ok (some tc)) :: h) true := fun r => by
      simp only [Deploys, hc, true_and]
      exact ⟨r, _, rfl⟩
    refine ⟨⟨rfl, by simp [Writes, hc]⟩, ?_, fun e => ?_⟩ <;>
      exact ⟨⟨true, rfl, enter _⟩, fun e _ _ => .inr ⟨_, _, rfl, e, .inl rfl⟩,
        ⟨rfl, true, _, rfl, enter _⟩, fun e _ _ => .inr ⟨_, _, rfl, e, .inr (.inl rfl)⟩,
        fun _ _ => .inl ⟨_, rfl⟩⟩
  · exact fun _ hw => absurd hw hnot'

/-- The bootstrap, whose request is the last call when it succeeds. -/
theorem bootstrapRootUser_meets (hc : c.phase = .inCreation) (h : History Reply) :
    (c.bootstrapRootUser c.name).run.Meets c.Conduct
      (fun h r => r = .ok () → ∃ u p r' h', h = c.bootstrapped u p r' :: h' ∧ r'.IsSuccess) h := by
  simp only [bootstrapRootUser, bootstrapCredentials, meets_except_bind, Reconciler.meets_okOr,
    Reconciler.meets_call_api, Reconciler.meets_http, Reconciler.meets_ofExcept, reduceCtorEq,
    false_implies, implies_true, and_true]
  intro n hn
  refine ⟨⟨hc, rfl, hn⟩, fun sec => fun a ha => ⟨⟨hc, _, _, rfl⟩, fun r hr => ?_⟩⟩
  refine ⟨_, _, r, _, rfl, requestText_eq_ok_iff.mp ?_⟩
  cases hreq : requestText r with
  | ok _ => rfl
  | error e => rw [hreq] at hr; cases hr

theorem reconcileInCreation_meets (hc : c.phase = .inCreation) :
    c.reconcileInCreation.run.Meets c.Conduct (fun h _ => c.Ends h) [] := by
  have hends : ∀ h, c.Ends h := fun h => by simp [Ends, hc]
  simp only [reconcileInCreation, meets_except_bind, Reconciler.meets_attempt, meets_checkReady]
  refine ⟨⟨rfl, .inl hc⟩, fun dp => ?_, fun e => hends _⟩
  cases hready : decide (0 < dp.availableReplicas.getD 0) with
  | false => exact hends _
  | true =>
    simp only [meets_except_bind, Reconciler.meets_attempt]
    refine (c.bootstrapRootUser_meets hc _).mono (fun _ _ h => h) fun h r hr => ?_
    rcases r with e | _
    · exact hends _
    obtain ⟨u, p, r', h', rfl, hsucc⟩ := hr rfl
    simp only [meets_except_bind, Reconciler.meets_attempt, meets_setPhase,
      meets_reconcileSurrealdbWithMode, Reconciler.meets_pure, hends, implies_true, and_true,
      true_and]
    have close : ∀ r, c.Deploys (c.wrote .inProgress r :: c.bootstrapped u p r' :: h') false :=
      fun r => by
        simp only [Deploys, hc, true_and]
        exact ⟨r, u, p, r', h', rfl, hsucc⟩
    refine ⟨⟨rfl, ?_⟩, ⟨⟨false, rfl, close _⟩, rfl, false, _, rfl, close _⟩, fun e =>
      ⟨⟨false, rfl, close _⟩, rfl, false, _, rfl, close _⟩⟩
    simp only [Writes, hc]
    exact ⟨u, p, r', h', rfl, hsucc⟩

theorem reconcileInProgress_meets (hc : c.phase = .inProgress) :
    c.reconcileInProgress.run.Meets c.Conduct (fun h _ => c.Ends h) [] := by
  have hends : ∀ h, c.Ends h := fun h => by simp [Ends, hc]
  refine c.meets_steady (fun h => by simp [Deploys, hc]) hends (fun dp hdp => ?_) (fun dp hdp => ?_)
      fun e => ?_ <;>
    simp only [meets_except_bind, Reconciler.meets_attempt, meets_setPhase, Reconciler.meets_pure,
      hends, and_true, implies_true, phaseWrite, Conduct, true_and, Writes, hc]
  · exact ⟨dp, rfl, hdp⟩
  · exact ⟨.ok dp, rfl, by simpa using hdp⟩
  · exact ⟨.error e, rfl, by simp⟩

theorem reconcileReady_meets (hc : c.phase = .ready) :
    c.reconcileReady.run.Meets c.Conduct (fun h _ => c.Ends h) [] := by
  have hends : ∀ h, c.Ends h := fun h => by simp [Ends, hc]
  refine c.meets_steady (fun h => by simp [Deploys, hc]) hends (fun dp hdp => ?_) (fun dp hdp => ?_)
      fun e => ?_ <;>
    simp only [meets_except_bind, Reconciler.meets_attempt, meets_setPhase, Reconciler.meets_pure,
      hends, and_true, implies_true, phaseWrite, Conduct, true_and, Writes, hc]
  · exact ⟨.ok dp, rfl, by simpa using hdp⟩
  · exact ⟨.error e, rfl, by simp⟩

theorem reconcileNotReady_meets (hc : c.phase = .notReady) :
    c.reconcileNotReady.run.Meets c.Conduct (fun h _ => c.Ends h) [] := by
  have hends : ∀ h, c.Ends h := fun h => by simp [Ends, hc]
  refine c.meets_steady (fun h => by simp [Deploys, hc]) hends (fun dp hdp => ?_)
    (fun dp _ => hends _) fun e => hends _
  simp only [meets_except_bind, Reconciler.meets_attempt, meets_setPhase, Reconciler.meets_pure,
    hends, and_true, implies_true, phaseWrite, Conduct, true_and, Writes, hc]
  exact ⟨dp, rfl, hdp⟩

theorem reconcileError_meets (hc : c.phase = .error) :
    c.reconcileError.run.Meets c.Conduct (fun h _ => c.Ends h) [] := by
  have hends : ∀ h, c.Ends h := fun h => by simp [Ends, hc]
  simp only [reconcileError, meets_except_bind, Reconciler.meets_attempt,
    meets_reconcileSurrealdbWithMode, Reconciler.meets_pure, hends, implies_true, and_true,
    true_and]
  exact ⟨⟨false, rfl, by simp [Deploys, hc]⟩, rfl, false, [], rfl, by simp [Deploys, hc]⟩

/-- **The conduct of the Cluster reconciler.** -/
theorem reconcile_meets : c.reconcile.run.Meets c.Conduct (fun h _ => c.Ends h) [] := by
  rw [reconcile]
  split
  · next hc => exact c.reconcileNew_meets hc
  · next hc => exact c.reconcilePreparing_meets hc
  · next hc => exact c.reconcileInCreation_meets hc
  · next hc => exact c.reconcileInProgress_meets hc
  · next hc => exact c.reconcileReady_meets hc
  · next hc => exact c.reconcileNotReady_meets hc
  · next hc => exact c.reconcileError_meets hc

end Cluster

end SdbController
