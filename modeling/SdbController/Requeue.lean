import SdbController.Finalizers
import SdbController.Interaction.Queue

/-!
# When a resource is reconciled again

Whatever is applied says when the resource is to be looked at again, by `Action::requeue`, and
`error_policy` says so for whatever has failed. To wait for a change, by `Action::await_change`, is
left to the cleanups and to the finalizer.

The controllers watch their own resources and nothing else. That a Deployment has become available,
or that a Secret is there at last, they find out when the next reconciliation is due.

## Main results

* `Resource.reconcile_yields` — what is applied never waits for a change
* `reconciled_in_time` — a resource that needs attention is reconciled again within five minutes
-/

namespace SdbController

open Interaction Program Relation

/-! ### What reconcilers return -/

/-- What is returned satisfies `P`, whatever the replies are. -/
def Reconciler.Yields {α : Type} (m : Reconciler α) (P : α → Prop) : Prop :=
  ∀ h, m.run.Meets (fun _ _ => True) (fun _ r => ∀ a, r = .ok a → P a) h

section Yields

variable {α β : Type} {P : β → Prop}

theorem Reconciler.Yields.pure {b : β} (hb : P b) : (Pure.pure b : Reconciler β).Yields P :=
  fun _ _ heq => Except.ok.inj heq ▸ hb

/-- What is returned is up to what comes last. -/
theorem Reconciler.Yields.bind {m : Reconciler α} {f : α → Reconciler β}
    (hf : ∀ a, (f a).Yields P) : Reconciler.Yields (m >>= f) P := by
  intro h
  rw [meets_except_bind]
  refine (meets_extends m.run [] (List.nil_suffix (l := h))).mono (fun _ _ _ => trivial)
    fun h' r _ => ?_
  cases r with
  | error e => exact fun _ heq => nomatch heq
  | ok a => exact hf a h'

/-- The next reconciliation is due within some seconds. -/
def Action.Within (seconds : ℕ) (a : Action) : Prop := a.requeue ≤ seconds

/-- `Ok(Action::requeue(..))`. -/
theorem yields_requeue {seconds n : ℕ} (hn : n ≤ seconds) :
    (Pure.pure ⟨n⟩ : Reconciler Action).Yields (Action.Within seconds) := .pure hn

theorem Cluster.reconcile_yields (c : Cluster) : c.reconcile.Yields (Action.Within 120) := by
  rw [reconcile]
  split
  · rw [reconcileNew]
    split
    · exact .bind fun _ => yields_requeue (by decide)
    · refine .bind fun r => ?_
      split
      · exact .bind fun _ => yields_requeue (by decide)
      · split
        · exact .bind fun _ => yields_requeue (by decide)
        · exact .bind fun _ => .bind fun _ => yields_requeue (by decide)
  · refine .bind fun r => ?_
    split
    · exact yields_requeue (by decide)
    · refine .bind fun r => ?_
      split
      · split
        · exact .bind fun _ => .bind fun _ => yields_requeue (by decide)
        · exact yields_requeue (by decide)
      · exact yields_requeue (by decide)
      · exact yields_requeue (by decide)
  · refine .bind fun r => ?_
    split
    · refine .bind fun r => ?_
      split
      · exact yields_requeue (by decide)
      · exact .bind fun _ => .bind fun _ => yields_requeue (by decide)
    · exact yields_requeue (by decide)
    · exact yields_requeue (by decide)
  · refine .bind fun _ => .bind fun r => ?_
    split <;> exact .bind fun _ => yields_requeue (by decide)
  · refine .bind fun _ => .bind fun r => ?_
    split
    · exact yields_requeue (by decide)
    · exact .bind fun _ => yields_requeue (by decide)
    · exact .bind fun _ => yields_requeue (by decide)
  · refine .bind fun _ => .bind fun r => ?_
    split
    · exact .bind fun _ => yields_requeue (by decide)
    · exact yields_requeue (by decide)
    · exact yields_requeue (by decide)
  · exact .bind fun _ => yields_requeue (by decide)

theorem Database.reconcile_yields (libs : Externals) (client : Client) (d : Database) :
    (d.reconcile libs client).Yields (Action.Within 120) := by
  have hprovision : (d.provision libs client).Yields (Action.Within 120) := by
    refine .bind fun _ => .bind fun r => ?_
    split
    · exact .bind fun _ => yields_requeue (by decide)
    · refine .bind fun r => ?_
      split
      · exact .bind fun _ => yields_requeue (by decide)
      · exact .bind fun _ => yields_requeue (by decide)
  rw [reconcile]
  split
  · exact hprovision
  · exact hprovision
  · exact yields_requeue (by decide)
  · exact yields_requeue (by decide)

theorem User.reconcile_yields (libs : Externals) (client : Client) (u : User) :
    (u.reconcile libs client).Yields (Action.Within 180) := by
  have hpublish (password : String) : (u.publish password).Yields (Action.Within 180) := by
    refine .bind fun r => ?_
    split
    · exact .bind fun _ => yields_requeue (by decide)
    · refine .bind fun r => ?_
      split
      · exact .bind fun _ => yields_requeue (by decide)
      · exact .bind fun _ => yields_requeue (by decide)
  have hprovision : (u.provision libs client).Yields (Action.Within 180) := by
    refine .bind fun _ => .bind fun _ => .bind fun password => .bind fun r => ?_
    split
    · exact .bind fun _ => yields_requeue (by decide)
    · exact hpublish password
  rw [reconcile]
  split
  · exact hprovision
  · exact hprovision
  · exact yields_requeue (by decide)

end Yields

/-! ### When the next reconciliation is due -/

/-- `error_policy` of each controller, less the failure that the one for Clusters counts. -/
def Slot.errorPolicy (_ : FinalizerError Error KubeError) : Slot → Action
  | .cluster _ => ⟨5 * 60⟩
  | .database _ => ⟨60⟩
  | .user _ => ⟨60⟩

/-- When the next reconciliation is due, from what this one has returned. -/
def Slot.policy (i : Slot) :
    Except (FinalizerError Error KubeError) (Option Action) → Option ℕ
  | .ok a => a.map Action.requeue
  | .error e => some (i.errorPolicy e).requeue

/-- How long a resource waits at most. -/
def Slot.patience : Slot → ℕ
  | .cluster _ => 300
  | .database _ => 120
  | .user _ => 180

/-- What is applied never waits for a change, and is applied again in time. -/
theorem Resource.reconcile_yields (libs : Externals) (client : Client) (l : Resource) :
    (l.reconcile libs client).Yields (Action.Within l.slot.patience) := by
  cases l with
  | cluster c =>
    exact fun h => (c.reconcile_yields h).mono (fun _ _ => id)
      fun _ _ hr a ha => (hr a ha).trans (show 120 ≤ 300 by decide)
  | database d => exact d.reconcile_yields libs client
  | user u => exact u.reconcile_yields libs client

theorem timed_managed (libs : Externals) (client : Client) (srv : Server) (i : Slot)
    (env : World → World → Prop) :
    (managed libs client srv i env).Timed i.policy none i.patience where
  error e := by
    cases i with
    | cluster k => exact ⟨300, Nat.le_refl _, rfl⟩
    | database k => exact ⟨60, show 60 ≤ 120 by decide, rfl⟩
    | user k => exact ⟨60, show 60 ≤ 180 by decide, rfl⟩
  apply {l} hl := by
    obtain rfl : l.slot = i := hl
    refine (meets_except_bind _ _).mpr ((l.reconcile_yields libs client []).mono
      (fun _ _ _ => trivial) fun h r hr => ?_)
    cases r with
    | error e => exact fun _ heq => nomatch heq
    | ok a =>
      rintro _ ⟨⟩
      exact ⟨a.requeue, hr a rfl, rfl⟩
  cleanup {l} _ := by
    refine l.cleanup_meets.mono (fun _ _ _ => trivial) fun h r hends a ha d hd => ?_
    have hawait : a = none := by
      cases l with
      | cluster c =>
        subst ha
        exact hends.1
      | database d => exact Except.ok.inj (ha.symm.trans hends)
      | user u => exact Except.ok.inj (ha.symm.trans hends)
    subst hawait
    cases hd
  awaits _ hd := nomatch hd

/-- A controller at work on its resource, with its queue. -/
abbrev QueuedRun : Type :=
  Queued (Resource × Life) (LifeReply Reply CleanupReply KubeError)
    (Except (FinalizerError Error KubeError) (Option Action)) World

/-- **A resource that needs attention is reconciled again in time.** Take any run of a controller
with its queue, whatever calls fail, whatever others do to the resource and however late the watch
is, and a point where no reconciliation is running and no event is under way. Unless there is no
resource, or one that is being deleted and has been let go, a reconciliation is due: time does not
pass five minutes for a Cluster, two for a Database or three for a User before one is started. If
others leave the finalizer alone, the run is one of those that are spoken of elsewhere. -/
theorem reconciled_in_time (libs : Externals) (client : Client) (srv : Server) (i : Slot)
    (env : World → World → Prop) (others : Option Life → Option Life → Prop)
    {run : Finalizer Reply CleanupReply KubeError Error (Option Action)}
    (hrun : Documented i.finalizer none run) {s : Tracked World} {now : ℕ} {q : QueuedRun}
    (hruns : (managed libs client srv i env).Runs others run i.policy (.initial s now) q)
    (hidle : q.config.running () = none) (hseen : q.config.store.behind = [])
    (hwork : ¬ Resting i.finalizer q.config.store.stored) :
    ((∀ v w, others v w → LifeEnv i.finalizer v w) →
        ((managed libs client srv i env).system run).Reachable (· = s) System.anyMove q.config) ∧
      q.due.isSome ∧ ∀ q' : QueuedRun,
        ReflTransGen ((managed libs client srv i env).Passes others run i.policy) q q' →
          q'.now ≤ q.now + i.patience := by
  obtain ⟨t, hle, hdue⟩ := Managed.never_forgotten (timed_managed libs client srv i env) hrun hruns
    hidle hseen hwork
  refine ⟨fun ho => Managed.reachable_of_queue (ho _ _) hruns, by rw [hdue]; rfl,
    fun q' hpasses => ?_⟩
  have hnow := Managed.now_le hidle hdue hpasses
  omega

/-- Other clients do anything to a resource. -/
def anyChange (_ _ : Option Life) : Prop := True

/-- The sample Cluster gets its finalizer, which the watch shows, and is reconciled. -/
theorem reconciled_in_time_sample : ∃ q : QueuedRun,
    sampleManaged.Runs anyChange sampleFinalizer (Slot.cluster sampleCluster.key).policy
      (.initial sampleTracked 0) q ∧ q.due = some 20 ∧ ∀ q' : QueuedRun,
        ReflTransGen (sampleManaged.Passes anyChange sampleFinalizer
          (Slot.cluster sampleCluster.key).policy) q q' → q'.now ≤ q.now + 300 := by
  have hserve := serves_answerLife (KubeError.other "conflict") (serves_answerWorld ⟨false⟩)
    cleans_cleanWorld
  obtain ⟨cfg, hput, hidle, hstore⟩ := Managed.runs_play (m := sampleManaged) anyChange
    sampleFinalizer (Slot.cluster sampleCluster.key).policy hserve (q := .initial sampleTracked 0)
    (l := (.cluster sampleCluster, {})) rfl rfl (Nat.le_refl 0) rfl rfl
  have hbehind : cfg.store.behind ≠ [] := by
    rw [hstore]
    exact List.cons_ne_nil _ _
  have hcached : cfg.store.advance.cached = some ⟨[sampleManaged.name], false⟩ := by
    rw [hstore]
    rfl
  have hseen := hput.tail (.inl (.watch hbehind))
  rw [hcached] at hseen
  obtain ⟨cfg', hdone, hidle', hstore'⟩ := Managed.runs_play (m := sampleManaged) anyChange
    sampleFinalizer (Slot.cluster sampleCluster.key).policy hserve
    (q := ⟨{ cfg with store := cfg.store.advance }, 0, some 0⟩)
    (l := (.cluster sampleCluster, ⟨[sampleManaged.name], false⟩)) hidle rfl (Nat.le_refl 0) rfl
    hcached
  have hstored : cfg'.store.stored = some ⟨[sampleManaged.name], false⟩ ∧
      cfg'.store.behind = [] := by
    rw [hstore']
    dsimp only
    rw [hstore]
    exact ⟨rfl, rfl⟩
  have hwork : ¬ Resting sampleManaged.name cfg'.store.stored := by
    rw [hstored.1]
    exact fun hrests => Bool.false_ne_true (hrests _ rfl).2
  obtain ⟨-, -, htime⟩ := reconciled_in_time sampleExternals .kube ⟨false⟩
    (.cluster sampleCluster.key) sampleCluster.LeavesCleared anyChange (documented_finalizer _ none)
    (hseen.trans hdone) hidle' hstored.2 hwork
  refine ⟨_, hseen.trans hdone, ?_, htime⟩
  dsimp only
  rw [hstore]
  rfl

end SdbController
