import SdbController.Cluster.Progress

/-!
# Where a settled Cluster converges to

`InProgress`, `Ready` and `NotReady` have a branch each. All three apply the authenticated workload
and count its available replicas; they differ in which outcome they write down. If every request is
answered, they come to the same: the workload built from the spec, and the phase that the count
calls for. The environment may move between any two calls, so what counts is the spec that the
invocation started from and the number that it read.

When requests fail, this is no longer so, but no invocation moves a Cluster to `Ready` without the
evidence for it.

## Main results

* `completes_settled` — one invocation from any of the three phases
* `steady_state` — any sequence of them, and what stands behind a Cluster that becomes `Ready`
-/

namespace SdbController

open Interaction Program

/-! ### Answered invocations among moves of the environment -/

/-- Every request is answered, after the environment has moved. What becomes of a statement is up to
`http`. -/
def AnswersAmid (srv : Server) (http : HttpRequest → Store → HttpOutcome → Store → Prop)
    (k : ObjectKey) (q : Call) (s : Store) (r : Reply q) (s' : Store) : Prop :=
  ∃ t, ClusterEnv k s t ∧ Answers srv http q t r s'

/-- Some replica is available, as `check_ready` puts it. -/
def LiveDeployment.isAvailable (d : LiveDeployment) : Bool :=
  decide (0 < d.availableReplicas.getD 0)

/-- The phase that the available replicas call for. -/
def steadyPhase (available : Bool) : Phase := if available then .ready else .notReady

/-- What a Cluster converges to: the workload in normal mode, and a phase that tells whether some
replica was available. -/
structure Steady (c : Cluster) (available : Bool) (s : Store) : Prop where
  deployment : s.deployment c.key = some (c.buildSurrealDeployment c.name false)
  service : s.services c.key.workload = some (c.buildSurrealService c.name)
  phase : s.phase c.key = some (steadyPhase available)

/-- The phases in which the workload is kept as it should be. -/
def Phase.Settled (p : Phase) : Prop := p = .inProgress ∨ p = .ready ∨ p = .notReady

namespace Cluster

variable {c : Cluster} {srv : Server} {http : HttpRequest → Store → HttpOutcome → Store → Prop}
  {s s' : Store} {h h' : History Reply} {p : Phase}

/-- The Cluster is stored with phase `p`. Its spec may have been edited. -/
def Stays (c : Cluster) (p : Phase) (s : Store) : Prop :=
  ∃ x, s.clusters c.key = some x ∧ x.key = c.key ∧ x.uid = c.uid ∧ x.phase = p

/-- The workload is stored, and so is the Cluster with phase `p`. -/
structure Applied (c : Cluster) (p : Phase) (s : Store) : Prop where
  deployment : s.deployment c.key = some (c.buildSurrealDeployment c.name false)
  service : s.services c.key.workload = some (c.buildSurrealService c.name)
  stays : c.Stays p s

theorem Stays.phase (hs : c.Stays p s) : s.phase c.key = some p := by
  obtain ⟨x, hx, -, -, hp⟩ := hs
  rw [Store.phase, hx, Option.map_some, hp]

theorem Applied.steady {available : Bool} (hs : c.Applied (steadyPhase available) s) :
    Steady c available s := ⟨hs.deployment, hs.service, hs.stays.phase⟩

theorem Stays.env (hs : c.Stays p s) (he : ClusterEnv c.key s s') : c.Stays p s' := by
  obtain ⟨x, hx, hk, hu, hp⟩ := hs
  obtain ⟨spec, hspec⟩ := he.cluster hx
  exact ⟨_, hspec, hk, hu, hp⟩

theorem Stays.congr (hs : c.Stays p s) (heq : s'.clusters = s.clusters) : c.Stays p s' := by
  obtain ⟨x, hx, hrest⟩ := hs
  exact ⟨x, by rw [heq, hx], hrest⟩

theorem Applied.env (hs : c.Applied p s) (he : ClusterEnv c.key s s') : c.Applied p s' :=
  ⟨he.deployment.trans hs.deployment, he.service.trans hs.service, hs.stays.env he⟩

/-- A request, answered. -/
theorem completes_amid (q : ApiRequest) {x : Except Error q.Object}
    (hrun : Completes (logged (AnswersAmid srv http c.key)) (Reconciler.call q).run (s, h) x
      (s', h')) :
    ∃ t, ClusterEnv c.key s t ∧ x = (answer srv q t).1.mapError .kubeError ∧
      s' = (answer srv q t).2 ∧ h' = replied q (answer srv q t).1 :: h := by
  obtain ⟨r, ⟨⟨t, he, hr⟩, hh⟩, rfl⟩ := (Reconciler.completes_call_api q).mp hrun
  have hr' : (r, s') = answer srv q t := hr
  refine ⟨t, he, ?_⟩
  rw [← hr']
  exact ⟨rfl, rfl, hh⟩

/-- `reconcile_surrealdb_with_mode` on a stored Cluster. -/
theorem completes_amid_deploy (hs : c.Stays p s) {x : Except Error Unit}
    (hrun : Completes (logged (AnswersAmid srv http c.key))
      (c.reconcileSurrealdbWithMode c.name false).run (s, h) x (s', h')) :
    x = .ok () ∧ c.Applied p s' ∧ h' = c.served :: c.deployed false :: h := by
  rw [reconcileSurrealdbWithMode] at hrun
  obtain ⟨y, ⟨t, g⟩, hdp, hrest⟩ := (completes_except_bind ..).mp hrun
  obtain ⟨t', he, rfl, rfl, rfl⟩ := completes_amid (.applyDeployment _) hdp
  obtain ⟨y, ⟨u, g⟩, hsvc, hdone⟩ := (completes_except_bind ..).mp hrest
  obtain ⟨u', he', rfl, rfl, rfl⟩ := completes_amid (.applyService _) hsvc
  obtain ⟨rfl, heq⟩ := hdone
  obtain ⟨rfl, rfl⟩ := Prod.mk.inj heq
  -- what the first request stored is still there after the environment has moved
  have hlive : (effect srv (c.deployCall false) t').deployments c.key.workload =
      some (.applied (t'.deployments c.key.workload) (c.buildSurrealDeployment c.name false)) :=
    Function.update_self ..
  have hdeployed : (effect srv (c.deployCall false) t').deployment c.key =
      some (c.buildSurrealDeployment c.name false) :=
    congrArg (Option.map LiveDeployment.object) hlive
  have hstays : c.Stays p (effect srv (c.deployCall false) t') := (hs.env he).congr rfl
  have hserved : (effect srv c.serviceCall u').services c.key.workload =
      some (c.buildSurrealService c.name) := Function.update_self ..
  exact ⟨rfl, ⟨he'.deployment.trans hdeployed, hserved, (hstays.env he').congr rfl⟩, rfl⟩

/-- `check_ready` over an applied workload reads some number of replicas. -/
theorem completes_amid_checkReady (hs : c.Applied p s) {x : Except Error Bool}
    (hrun : Completes (logged (AnswersAmid srv http c.key)) (c.checkReady c.name).run (s, h) x
      (s', h')) :
    ∃ live, x = .ok (LiveDeployment.isAvailable live) ∧ c.Applied p s' ∧
      h' = c.observed (.ok live) :: h := by
  rw [checkReady] at hrun
  obtain ⟨y, ⟨t, g⟩, hget, hdone⟩ := (completes_except_bind ..).mp hrun
  obtain ⟨t', he, rfl, rfl, rfl⟩ := completes_amid (.getDeployment c.workloadKey) hget
  have hs' := hs.env he
  obtain ⟨live, hlive, -⟩ := Option.map_eq_some_iff.mp hs'.deployment
  rw [← c.workloadKey_eq] at hlive
  simp only [answer, lookup, hlive, Except.mapError] at hdone
  obtain ⟨rfl, heq⟩ := hdone
  obtain ⟨rfl, rfl⟩ := Prod.mk.inj heq
  exact ⟨live, rfl, hs', rfl⟩

/-- `set_phase` over an applied workload. -/
theorem completes_amid_setPhase {q : Phase} (hs : c.Applied p s) {x : Except Error Unit}
    (hrun : Completes (logged (AnswersAmid srv http c.key)) (c.setPhase q).run (s, h) x (s', h')) :
    x = .ok () ∧ c.Applied q s' ∧ h <:+ h' := by
  obtain ⟨t, he, rfl, rfl, rfl⟩ := completes_amid (.mergeClusterStatus c.key q) hrun
  have hs' := hs.env he
  obtain ⟨x, hx, hk, hu, -⟩ := hs'.stays
  simp only [answer, hx, Option.map_some, patched]
  have hstays : c.Stays q ({ t with
      clusters := Function.update t.clusters c.key (some (x.mergeStatus q)) }.log
        (.api (.mergeClusterStatus c.key q))) :=
    ⟨x.mergeStatus q, Function.update_self .., hk, hu, rfl⟩
  exact ⟨rfl, ⟨hs'.deployment, hs'.service, hstays⟩, List.suffix_cons _ _⟩

/-- The branches for the three phases begin alike. -/
theorem completes_amid_steady (hs : c.Stays p s) {f : Except Error Bool → Reconciler Action}
    {x : Except Error Action} (hrun : Completes (logged (AnswersAmid srv http c.key)) (do
      let _ ← c.reconcileSurrealdbWithMode c.name false
      let b ← Reconciler.attempt (c.checkReady c.name)
      f b : Reconciler Action).run (s, []) x (s', h')) :
    ∃ live t, c.Applied p t ∧ Completes (logged (AnswersAmid srv http c.key))
      (f (.ok (LiveDeployment.isAvailable live))).run
      (t, [c.observed (.ok live), c.served, c.deployed false]) x (s', h') := by
  obtain ⟨y, ⟨t, g⟩, hdp, hrest⟩ := (completes_except_bind ..).mp hrun
  obtain ⟨rfl, ht, rfl⟩ := completes_amid_deploy hs hdp
  obtain ⟨y, ⟨u, g⟩, hready, hrest'⟩ := (completes_except_bind ..).mp hrest
  obtain ⟨b, hcheck, rfl⟩ := (Reconciler.completes_attempt ..).mp hready
  obtain ⟨live, rfl, hu, rfl⟩ := completes_amid_checkReady ht hcheck
  exact ⟨live, u, hu, hrest'⟩

/-- Writing a phase down and returning. -/
theorem completes_amid_conclude {q : Phase} {a : Action} (hs : c.Applied p s)
    {x : Except Error Action} (hrun : Completes (logged (AnswersAmid srv http c.key)) (do
      let _ ← Reconciler.attempt (c.setPhase q)
      pure a : Reconciler Action).run (s, h) x (s', h')) : c.Applied q s' ∧ h <:+ h' := by
  obtain ⟨y, ⟨t, g⟩, hph, hdone⟩ := (completes_except_bind ..).mp hrun
  obtain ⟨_, hset, rfl⟩ := (Reconciler.completes_attempt ..).mp hph
  obtain ⟨-, ht, hsuf⟩ := completes_amid_setPhase hs hset
  obtain ⟨-, heq⟩ := hdone
  obtain ⟨rfl, rfl⟩ := Prod.mk.inj heq
  exact ⟨ht, hsuf⟩

/-- **One invocation** from any of the three phases: the three branches come to the same. -/
theorem completes_settled (hx : s.clusters c.key = some c) (hp : c.phase.Settled)
    {x : Except Error Action}
    (hrun : Completes (logged (AnswersAmid srv http c.key)) c.reconcile.run (s, []) x (s', h')) :
    ∃ live, [c.observed (.ok live), c.served, c.deployed false] <:+ h' ∧
      c.Applied (steadyPhase live.isAvailable) s' := by
  have hs : c.Stays c.phase s := ⟨c, hx, rfl, rfl, rfl⟩
  rcases hp with hp | hp | hp <;> rw [hp] at hs
  · simp only [reconcile, hp, reconcileInProgress] at hrun
    obtain ⟨live, t, ht, hrest⟩ := completes_amid_steady hs hrun
    refine ⟨live, ?_⟩
    cases hlive : live.isAvailable <;> rw [hlive] at hrest
    · obtain ⟨hs', hsuf⟩ := completes_amid_conclude ht hrest
      exact ⟨hsuf, hs'⟩
    · obtain ⟨hs', hsuf⟩ := completes_amid_conclude ht hrest
      exact ⟨hsuf, hs'⟩
  · simp only [reconcile, hp, reconcileReady] at hrun
    obtain ⟨live, t, ht, hrest⟩ := completes_amid_steady hs hrun
    refine ⟨live, ?_⟩
    cases hlive : live.isAvailable <;> rw [hlive] at hrest
    · obtain ⟨hs', hsuf⟩ := completes_amid_conclude ht hrest
      exact ⟨hsuf, hs'⟩
    · -- nothing is written, and `Ready` is stored
      obtain ⟨-, heq⟩ := hrest
      obtain ⟨rfl, rfl⟩ := Prod.mk.inj heq
      exact ⟨List.suffix_refl _, ht⟩
  · simp only [reconcile, hp, reconcileNotReady] at hrun
    obtain ⟨live, t, ht, hrest⟩ := completes_amid_steady hs hrun
    refine ⟨live, ?_⟩
    cases hlive : live.isAvailable <;> rw [hlive] at hrest
    · -- nothing is written, and `NotReady` is stored
      obtain ⟨-, heq⟩ := hrest
      obtain ⟨rfl, rfl⟩ := Prod.mk.inj heq
      exact ⟨List.suffix_refl _, ht⟩
    · obtain ⟨hs', hsuf⟩ := completes_amid_conclude ht hrest
      exact ⟨hsuf, hs'⟩

end Cluster

/-! ### Any sequence of them -/

theorem settled_steadyPhase (available : Bool) : (steadyPhase available).Settled := by
  cases available with
  | false => exact .inr (.inr rfl)
  | true => exact .inr (.inl rfl)

/-- Answered invocations for the Cluster at `k`, each with the Cluster that it started from and the
Deployment that it read after it had applied both parts of the workload, newest first. -/
inductive Settlings (srv : Server) (http : HttpRequest → Store → HttpOutcome → Store → Prop)
    (k : ObjectKey) : Store → List (Cluster × LiveDeployment) → Store → Prop
  | nil {s} : Settlings srv http k s [] s
  | next {s t t' s' l c live x h} (hl : Settlings srv http k s l t) (he : ClusterEnv k t t')
    (hc : t'.clusters k = some c)
    (hrun : Completes (logged (AnswersAmid srv http k)) c.reconcile.run (t', []) x (s', h))
    (hread : [c.observed (.ok live), c.served, c.deployed false] <:+ h) :
    Settlings srv http k s ((c, live) :: l) s'

section Sequences

variable {srv : Server} {http : HttpRequest → Store → HttpOutcome → Store → Prop} {c c₀ : Cluster}
  {s s' t : Store} {l : List (Cluster × LiveDeployment)} {live : LiveDeployment} {p : Phase}

/-- A stored Cluster with the identity of `c₀` is `c₀` with another spec and another status. -/
theorem Cluster.Stays.eq_with (hs : c₀.Stays p s) (hc : s.clusters c₀.key = some c) :
    c = { c₀ with spec := c.spec, status := c.status } ∧ c.phase = p := by
  obtain ⟨x, hx, hk, hu, hp⟩ := hs
  obtain rfl : x = c := Option.some.inj (hx.symm.trans hc)
  obtain ⟨hns, hname⟩ := ObjectKey.mk.inj hk
  refine ⟨?_, hp⟩
  rw [← hns, ← hname, ← hu]

/-- Two readings of one invocation are the same. -/
theorem observed_unique {h : History Reply} {live' : LiveDeployment}
    (hlive : [c.observed (.ok live), c.served, c.deployed false] <:+ h)
    (hlive' : [c.observed (.ok live'), c.served, c.deployed false] <:+ h) : live = live' := by
  have heq := List.IsSuffix.eq_of_length (List.suffix_of_suffix_length_le hlive hlive' le_rfl) rfl
  injection heq with hhead
  injection hhead with _ hr
  injection hr

/-- **The step of a sequence**: whatever the three phases, the Cluster stays and is steady. -/
theorem Settlings.applied (hl : Settlings srv http c₀.key s l s') (hs : c₀.Stays p s)
    (hp : p.Settled) :
    (∃ p' : Phase, p'.Settled ∧ c₀.Stays p' s') ∧ ∀ c live l', l = (c, live) :: l' →
      Steady { c₀ with spec := c.spec } live.isAvailable s' := by
  induction hl with
  | nil => exact ⟨⟨p, hp, hs⟩, fun _ _ _ heq => by cases heq⟩
  | @next t t' s' l c live x h hl he hc hrun hread ih =>
    obtain ⟨⟨p', hp', ht⟩, -⟩ := ih
    obtain ⟨heq, hphase⟩ := (ht.env he).eq_with hc
    have hkey : c.key = c₀.key := by rw [heq]; rfl
    rw [← hkey] at hc hrun
    obtain ⟨live', hread', happlied⟩ := Cluster.completes_settled hc (hphase ▸ hp') hrun
    obtain rfl := observed_unique hread hread'
    refine ⟨⟨_, settled_steadyPhase live.isAvailable, ?_⟩, fun c' live' l' hcons => ?_⟩
    · obtain ⟨x, hx, hk, hu, hp⟩ := happlied.stays
      rw [hkey] at hx hk
      refine ⟨x, hx, hk, ?_, hp⟩
      rw [hu, heq]
    · cases hcons
      have hsteady := happlied.steady
      rw [heq] at hsteady
      exact ⟨hsteady.deployment, hsteady.service, hsteady.phase⟩

end Sequences

/-! ### When requests fail -/

/-- A Cluster is stored at `k`, in whatever phase. -/
def StoredAt (k : ObjectKey) (s : Store) : Prop := ∃ c, s.clusters k = some c ∧ c.key = k

/-- The obligations of the trivial invariant do not depend on the phase to begin with. -/
theorem storedAt_preserves {ι : Type} (srv : Server) (k : ObjectKey) :
    (clusterSystem srv k).Preserves (StoredAt k) (System.anyMove (ι := ι))
      (clusterOutline k (fun _ _ => True) (fun _ _ _ => True) fun _ => True) :=
  let fresh := (trivial_invariance (ι := ι) srv k).preserves
  ⟨fun hs => ⟨⟨hs, trivial⟩, trivial⟩, fresh.env, fresh.start, fresh.call, fresh.frame,
    fresh.finish, fresh.crash⟩

/-- What stands behind a Cluster that becomes `Ready`. -/
theorem becomes_ready {ι : Type} [DecidableEq ι] {srv : Server} {k : ObjectKey} {cfg cfg' : Run ι}
    {m : RunMove ι} (hcfg : (clusterSystem srv k).Reachable (StoredAt k) System.anyMove cfg)
    (hstep : (clusterSystem srv k).Step cfg m cfg') (hbefore : cfg.store.phase k ≠ some .ready)
    (hafter : cfg'.store.phase k = some .ready) :
    ∃ i l dp r, m = .call i l [l.observed (.ok dp), l.served, l.deployed false]
      (l.phaseWrite .ready) r cfg'.store ∧ dp.isAvailable := by
  have hsound := (storedAt_preserves (ι := ι) srv k).sound hcfg
  have hsome := isSome_phase hsound.store.1
  cases hstep with
  | env he => exact absurd ((ClusterEnv.phase he hsome).symm.trans hafter) hbefore
  | start hi hs => exact absurd hafter hbefore
  | @call i l h q _ r s' hi hs =>
    have hq : l.Conduct h q := (hsound.rest hi).1
    rcases Serves.phase_cases hs hsome hq with hsame | ⟨p, rfl, hw, hp⟩
    · exact absurd (hsame.symm.trans hafter) hbefore
    · obtain rfl : p = .ready := Option.some.inj (hp.symm.trans hafter)
      obtain ⟨dp, rfl, hpods⟩ : ∃ dp, h = [l.observed (.ok dp), l.served, l.deployed false] ∧
          dp.pods ≠ [] := by
        unfold Cluster.Writes at hw
        cases hl : l.phase <;> rw [hl] at hw <;> first | exact hw | exact hw.elim
      exact ⟨i, l, dp, r, rfl, decide_eq_true (LiveDeployment.availableReplicas_pos.mpr hpods)⟩
  | finish hi => exact absurd hafter hbefore
  | crash hi => exact absurd hafter hbefore

/-- **Steady state.** An answered invocation from `InProgress`, `Ready` or `NotReady` reads the
available replicas after it has applied both parts of the workload, and leaves the authenticated
workload of its spec and the phase that this reading calls for. What a sequence of them leaves
depends on the last spec and the last reading only. And whatever fails, with any number of
processes: what moves the stored phase to `Ready` is the write of an invocation that has applied
both parts and has read that replicas are available. -/
theorem steady_state {ι : Type} [DecidableEq ι] (srv : Server)
    (http : HttpRequest → Store → HttpOutcome → Store → Prop) (c₀ : Cluster) :
    (∀ c s x s' h, s.clusters c.key = some c → c.phase.Settled →
      Completes (logged (AnswersAmid srv http c.key)) c.reconcile.run (s, []) x (s', h) →
      ∃ live, [c.observed (.ok live), c.served, c.deployed false] <:+ h ∧
        Steady c live.isAvailable s') ∧
    (∀ c live l s s', s.clusters c₀.key = some c₀ → c₀.phase.Settled →
      Settlings srv http c₀.key s ((c, live) :: l) s' →
      Steady { c₀ with spec := c.spec } live.isAvailable s') ∧
    ∀ (cfg cfg' : Run ι) (m : RunMove ι),
      (clusterSystem srv c₀.key).Reachable (StoredAt c₀.key) System.anyMove cfg →
      (clusterSystem srv c₀.key).Step cfg m cfg' → cfg.store.phase c₀.key ≠ some .ready →
      cfg'.store.phase c₀.key = some .ready →
      ∃ i l dp r, m = .call i l [l.observed (.ok dp), l.served, l.deployed false]
        (l.phaseWrite .ready) r cfg'.store ∧ dp.isAvailable := by
  refine ⟨fun c s x s' h hx hp hrun => ?_, fun c live l s s' hx hp hl => ?_,
    fun cfg cfg' m hcfg hstep => becomes_ready hcfg hstep⟩
  · obtain ⟨live, hread, happlied⟩ := Cluster.completes_settled hx hp hrun
    exact ⟨live, hread, happlied.steady⟩
  · exact (hl.applied ⟨c₀, hx, rfl, rfl, rfl⟩ hp).2 c live l rfl

/-- A Cluster that is not ready yet. -/
def waitingCluster : Cluster :=
  { name := "db", ns := "prod", uid := "1", spec := {}, status := some { phase := some .notReady } }

/-- Its next invocation, if it is answered, leaves it steady. -/
theorem steady_state_waiting : ∃ live s', Steady waitingCluster live s' := by
  have hanswers : ∀ q (s : Store × History Reply), ∃ r t,
      logged (AnswersAmid ⟨false⟩ Accepts waitingCluster.key) q s r t := by
    intro q s
    have henv : ClusterEnv waitingCluster.key s.1 s.1 := ⟨fun hx => ⟨_, hx⟩, rfl, rfl, rfl⟩
    cases q with
    | api q => exact ⟨(answer ⟨false⟩ q s.1).1, (_, _), ⟨s.1, henv, rfl⟩, rfl⟩
    | http q =>
      have hok : HttpOutcome.IsSuccess (.response ⟨200, .inl (by decide)⟩ "") :=
        show 200 < 300 by decide
      exact ⟨.response ⟨200, .inl (by decide)⟩ "", (_, _), ⟨s.1, henv, hok, rfl⟩, rfl⟩
    | draw n =>
      let d : Draws n := default
      exact ⟨d, (s.1, ⟨.draw n, d⟩ :: s.2), ⟨s.1, henv, rfl⟩, rfl⟩
  let s : Store :=
    { clusters := Function.update (fun _ => none) waitingCluster.key (some waitingCluster) }
  obtain ⟨x, ⟨s', h⟩, hrun⟩ := exists_completes hanswers waitingCluster.reconcile.run (s, [])
  obtain ⟨live, -, hsteady⟩ := (steady_state (ι := Unit) ⟨false⟩ Accepts waitingCluster).1
    waitingCluster s x s' h rfl (.inr (.inr rfl)) hrun
  exact ⟨_, s', hsteady⟩

end SdbController
