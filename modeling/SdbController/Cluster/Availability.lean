import SdbController.Cluster.Authentication

/-!
# Which pods `Ready` is about

`check_ready` asks whether the Deployment has an available replica. The counter it reads covers the
pods of every template, so right after the switch to the authenticated workload it still counts the
open pods that have not been replaced yet, and `Ready` can be stored while all of them are open.

Nothing is assumed about the Deployment controller: the environment may put any pods in place, at
any time.

## Main results

* `ready_written_with_current_pod` — when each status read that counts a replica counts one of the
  applied template, `Ready` is written for the authenticated pods
-/

namespace SdbController

open Interaction

/-- Some available pod runs the template of the stored Deployment. -/
def CurrentPod (k : ObjectKey) (s : Store) : Prop :=
  ∃ live, s.deployments k.workload = some live ∧ live.object.template ∈ live.pods

/-- A status read of an `InProgress` or `NotReady` invocation that counts a replica counts one of
the applied template, and between that read and the next call of the invocation the environment does
not take the last such pod away. -/
def Watched (k : ObjectKey) (c : Run Unit) : RunMove Unit → Prop
  | .call _ l _ q r _ => l.phase = .inProgress ∨ l.phase = .notReady → ∀ dp,
      (⟨q, r⟩ : Σ q, Reply q) = l.observed (.ok dp) → dp.pods ≠ [] → dp.object.template ∈ dp.pods
  | .env s' => ∀ {l h p}, c.running () = some ⟨l, h, p⟩ →
      l.phase = .inProgress ∨ l.phase = .notReady → ∀ dp,
        h.head? = some (l.observed (.ok dp)) → dp.pods ≠ [] → CurrentPod k c.store → CurrentPod k s'
  | _ => True

/-- The stored Deployment is the one applied last. -/
def LastApplied (k : ObjectKey) (s : Store) : Prop :=
  ∀ d ds, applied k s.audit = d :: ds → s.deployment k = some d

section Step

variable {srv : Server} {k : ObjectKey} {l : Cluster} {h : History Reply} {q : Call} {r : Reply q}
  {s s' : Store}

theorem LastApplied.call (hL : LastApplied k s) (hk : l.key = k) (hq : l.Conduct h q)
    (hs : Serves srv q s r s') : LastApplied k s' := by
  rcases hs.cases with rfl | ⟨rfl, ha⟩
  · exact hL
  intro d ds happ
  by_cases hd : ∃ m, q = l.deployCall m
  · obtain ⟨m, rfl⟩ := hd
    rw [ha, applied_deployCall hk] at happ
    have hstored : (effect srv (l.deployCall m) s).deployments l.key.workload =
        some (.applied (s.deployments l.key.workload) (l.buildSurrealDeployment l.name m)) :=
      Function.update_self ..
    rw [← (List.cons_eq_cons.mp happ).1, ← hk, Store.deployment, hstored]
    rfl
  · have hsame : (effect srv q s).deployment k = s.deployment k := by
      rcases deployments_effect srv q s k.workload with hsame | ⟨x, rfl, -⟩
      · exact congrArg (Option.map LiveDeployment.object) hsame
      · obtain ⟨m, rfl, -⟩ := hq
        exact absurd ⟨m, rfl⟩ hd
    have happ' : applied k (effect srv q s).audit = applied k s.audit := by
      rcases hs.applied_cases hk hq with hsame | ⟨m, hm, -⟩
      · exact hsame
      · exact absurd ⟨m, hm⟩ hd
    rw [hsame]
    exact hL d ds (happ' ▸ happ)

/-- A successful status read returns the stored Deployment. -/
theorem Serves.observed {dp : LiveDeployment} (hs : Serves srv q s r s')
    (hr : (⟨q, r⟩ : Σ q, Reply q) = l.observed (.ok dp)) (hk : l.key = k) :
    s.deployments k.workload = some dp ∧ s' = s := by
  subst hk
  cases hr
  rcases hs with hans | ⟨e, -, he, -⟩
  · have hr := congrArg Prod.fst hans
    have hs' : s' = s := congrArg Prod.snd hans
    refine ⟨?_, hs'⟩
    rw [← Cluster.workloadKey_eq]
    cases hd : s.deployments l.workloadKey with
    | none =>
      simp only [answer, lookup, hd] at hr
      cases hr
    | some live =>
      simp only [answer, lookup, hd] at hr
      rw [Except.ok.inj hr]
  · cases he

end Step

/-- What an invocation knows about the pods once it has read a positive count. -/
def Counted (k : ObjectKey) (l : Cluster) (h : History Reply) (s : Store) : Prop :=
  l.phase = .inProgress ∨ l.phase = .notReady → ∀ dp,
    h = [l.observed (.ok dp), l.served, l.deployed false] → dp.pods ≠ [] → CurrentPod k s

/-- Watched sequential runs keep the count about pods of the applied template. -/
theorem counted_invariance (srv : Server) (k : ObjectKey) :
    Invariance (ι := Unit) srv k (Watched k) (fun s _ => Secured k s ∧ LastApplied k s)
      (fun l h s => Securing k l h s ∧ Counted k l h s) fun _ => True where
  init {s} hs := by
    refine ⟨⟨hs.secured, fun d ds happ => ?_⟩, trivial⟩
    rw [hs.audit] at happ
    cases happ
  env {c s'} hp hm he hI := by
    refine ⟨⟨hI.1.congr hp he.audit, fun d ds happ => ?_⟩, fun {i l h p} hi hT => ?_,
      fun _ => trivial⟩
    · rw [he.deployment]
      exact hI.2 d ds (he.audit ▸ happ)
    · refine ⟨hT.1.congr hp he.audit, fun hl dp hh hpods => ?_⟩
      exact hm hi hl dp (by rw [hh]; rfl) hpods (hT.2 hl dp hh hpods)
  start _ hl hI _ := by
    refine ⟨hI, hI.1.start hl, fun _ dp hh => ?_⟩
    cases hh
  call {c i l h q r s'} hsome hk _ hq hm hs hI hT := by
    refine ⟨⟨hI.1.call hT.1 hsome hk hq hs, hI.2.call hk hq hs⟩, hT.1.call hsome hk hq hs, ?_⟩
    intro hl dp hh hpods
    obtain ⟨heq, hrest⟩ := List.cons_eq_cons.mp hh
    obtain ⟨hlive, rfl⟩ := hs.observed heq hk
    exact ⟨dp, hlive, hm hl dp heq hpods⟩
  frame _ _ _ _ _ hij := absurd (Subsingleton.elim _ _) hij
  finish _ _ := trivial
  crash _ _ _ := trivial

/-- **`Ready` is reported for the authenticated pods.** In watched sequential runs, at every write
of `Ready` some available pod runs the template applied last, and that template is authenticated. -/
theorem ready_written_with_current_pod (srv : Server) (k : ObjectKey) {c c' : Run Unit}
    {l : Cluster} {h : History Reply} {r : Reply (l.phaseWrite .ready)} {s' : Store}
    (hc : (clusterSystem srv k).Reachable (Fresh k) (Watched k) c)
    (hstep : (clusterSystem srv k).Step c (.call () l h (l.phaseWrite .ready) r s') c') :
    ∃ live d ds, c.store.deployments k.workload = some live ∧
      applied k c.store.audit = d :: ds ∧ d.Authenticated ∧ d.template ∈ live.pods := by
  have hsound := (counted_invariance srv k).sound hc
  obtain ⟨-, -, hlast⟩ := hsound.store
  cases hstep with
  | @call _ _ _ _ f _ _ hi hs =>
    obtain ⟨-, hT, hcounted⟩ := hsound.task hi
    obtain ⟨-, hw⟩ := (hsound.rest hi).1
    have hready : (l.phase = .inProgress ∨ l.phase = .notReady) ∧
        ∃ dp, h = [l.observed (.ok dp), l.served, l.deployed false] ∧ dp.pods ≠ [] := by
      unfold Cluster.Writes at hw
      cases hp : l.phase <;> rw [hp] at hw
      case inProgress => exact ⟨.inl rfl, hw⟩
      case notReady => exact ⟨.inr rfl, hw⟩
      all_goals exact hw.elim
    obtain ⟨hl, dp, hh, hpods⟩ := hready
    have hlate : ¬ l.phase.Early := by
      rcases hl with hl | hl <;> rw [hl] <;> decide
    obtain ⟨d, ds, happ, hd⟩ := hT.deployed hlate (by rw [hh]; simp)
    obtain ⟨live, hlive, hmem⟩ := hcounted hl dp hh hpods
    have hobj := hlast d ds happ
    rw [Store.deployment, hlive, Option.map_some] at hobj
    rw [Option.some.inj hobj] at hmem
    exact ⟨live, d, ds, hlive, happ, hd, hmem⟩

/-! ### The write of `Ready` right after the switch -/

/-- The template of the authenticated workload of the sample Cluster. -/
def closedTemplate : PodTemplate :=
  (sampleCluster.buildSurrealDeployment sampleCluster.name false).template

/-- Only the branches for `InProgress` and `NotReady` are watched. -/
theorem watched_of_played {k : ObjectKey} {x : Cluster} {p : Phase} (hx : x.phase = p)
    (hp : ¬ (p = .inProgress ∨ p = .notReady)) {c : Run Unit} {m : RunMove Unit}
    (hm : System.Played (respond ⟨false⟩ fun _ => false) () x x.reconcile.run c m) :
    Watched k c m := by
  cases hm with
  | start | finish => trivial
  | call _ => exact fun hl => absurd (hx ▸ hl) hp

theorem watched_of_idle {k : ObjectKey} {c : Run Unit} (hi : c.running () = none) (s' : Store) :
    Watched k c (.env s') := by
  intro l h p hrun
  rw [hi] at hrun
  cases hrun

/-- Whatever the one pod runs, the next invocation writes `Ready`. The run is watched if the pod
runs the authenticated template. -/
theorem exists_ready_write (t : PodTemplate) : ∃ (c : Run Unit) (l : Cluster) (h : History Reply)
    (r : Reply (l.phaseWrite .ready)) (s' : Store) (c' : Run Unit),
    (clusterSystem ⟨false⟩ sampleCluster.key).Reachable (Fresh sampleCluster.key)
      (fun c m => t = closedTemplate → Watched sampleCluster.key c m) c ∧
    (clusterSystem ⟨false⟩ sampleCluster.key).Step c (.call () l h (l.phaseWrite .ready) r s') c' ∧
    (c.store.deployments sampleCluster.key.workload).map LiveDeployment.pods = some [t] := by
  have h₀ : Settles ⟨false⟩ sampleCluster.key
      (fun c m => t = closedTemplate → Watched sampleCluster.key c m) sampleStore :=
    .fresh fresh_sampleStore
  have h₁ := h₀.invoke (fun _ => false) (fun hx c m hm _ =>
    watched_of_played (phase_of_stored hx (p := .new) rfl) (by decide) hm) (by decide)
  have h₂ := h₁.env (clusterEnv_rollOut sampleCluster.key _) fun c hi _ => watched_of_idle hi _
  have h₃ := h₂.invoke (fun _ => false) (fun hx c m hm _ =>
    watched_of_played (phase_of_stored hx (p := .inCreation) (by decide)) (by decide) hm)
    (by decide)
  have h₄ := h₃.env (clusterEnv_withPods sampleCluster.key (fun _ => [t]) _) fun c hi _ =>
    watched_of_idle hi _
  obtain ⟨⟨s, run, record⟩, hc, hidle, rfl⟩ := h₄
  let x := sampleCluster.mergeStatus .inProgress
  have h₅ := hc.step (by intro _; trivial) (.start (i := ()) (l := x) hidle ⟨rfl, rfl⟩)
  have h₆ := h₅.step (by intro _ _ dp hr; cases hr)
    (step_call (i := ()) (q := x.deployCall false) (fun _ => false) rfl)
  have h₇ := h₆.step (by intro _ _ dp hr; cases hr)
    (step_call (i := ()) (q := x.serviceCall) (fun _ => false) rfl)
  have h₈ := h₇.step (by
      -- the read returns the stored Deployment, whose template is the closed one
      intro ht _ dp hr _
      cases hr
      rw [ht]
      exact List.mem_cons_self)
    (step_call (i := ()) (q := x.readyCall) (fun _ => false) rfl)
  exact ⟨_, x, _, _, _, _, h₈, step_call (q := x.phaseWrite .ready) (fun _ => false) rfl, rfl⟩

/-- The next invocation on a Cluster whose one pod still runs the open template writes `Ready`. -/
theorem ready_written_for_open_pod : ∃ (c : Run Unit) (l : Cluster) (h : History Reply)
    (r : Reply (l.phaseWrite .ready)) (s' : Store) (c' : Run Unit),
    (clusterSystem ⟨false⟩ sampleCluster.key).Reachable (Fresh sampleCluster.key) System.anyMove c ∧
    (clusterSystem ⟨false⟩ sampleCluster.key).Step c (.call () l h (l.phaseWrite .ready) r s') c' ∧
    ¬ ∃ live d ds, c.store.deployments sampleCluster.key.workload = some live ∧
      applied sampleCluster.key c.store.audit = d :: ds ∧ d.Authenticated ∧
      d.template ∈ live.pods := by
  obtain ⟨c, l, h, r, s', c', hc, hstep, hpods⟩ := exists_ready_write
    (sampleCluster.buildSurrealDeployment sampleCluster.name true).template
  refine ⟨c, l, h, r, s', c', hc.mono _ fun _ _ _ => trivial, hstep, ?_⟩
  rintro ⟨live, d, ds, hlive, -, hd, hmem⟩
  rw [hlive, Option.map_some] at hpods
  rw [Option.some.inj hpods] at hmem
  have hopen : ¬ (sampleCluster.buildSurrealDeployment sampleCluster.name true).Authenticated := by
    rw [Cluster.authenticated_build]
    decide
  have htemplate := List.mem_singleton.mp hmem
  rw [Deployment.Authenticated, htemplate] at hd
  exact hopen hd

/-- The write of `Ready` once the pod runs the authenticated template. -/
theorem ready_written_with_current_pod_sample : ∃ (c : Run Unit),
    (c.store.deployments sampleCluster.key.workload).map LiveDeployment.pods =
      some [closedTemplate] ∧
    ∃ live d ds, c.store.deployments sampleCluster.key.workload = some live ∧
      applied sampleCluster.key c.store.audit = d :: ds ∧ d.Authenticated ∧
      d.template ∈ live.pods := by
  obtain ⟨c, l, h, r, s', c', hc, hstep, hpods⟩ := exists_ready_write closedTemplate
  exact ⟨c, hpods, ready_written_with_current_pod ⟨false⟩ _ (hc.mono _ fun _ _ hm => hm rfl) hstep⟩

end SdbController
