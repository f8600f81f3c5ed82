import SdbController.Kubernetes.Api

/-!
# What one call changes

`Serves.cases` reduces every served call to two outcomes: the store is as before, or the call took
effect and stands at the head of the audit. A call that was answered with success took effect
(`Serves.accepted`).

`effect_cases` is the inversion: a call that changes anything is one of ten kinds of write. The
`*_effect` lemmas read it for one kind of object, so an invariant about that kind of object only
ever looks at the calls that write it.
-/

namespace SdbController

open Interaction

/-! ### Taking effect -/

/-- The requests that change the store when they succeed. -/
def ApiRequest.IsWrite : ApiRequest → Prop
  | getCluster _ | getDatabase _ | getSecret _ | getDeployment _ | getTidbCluster _ => False
  | _ => True

/-- The reply says that the write or the statement was accepted. -/
def Call.Accepted : (q : Call) → Reply q → Prop
  | .api q, r => q.IsWrite ∧ ∃ o : q.Object, r = .ok o
  | .http _, r => HttpOutcome.IsSuccess r
  | .draw _, _ => False

/-- The call took effect between `s` and `s'`. -/
structure TookEffect (srv : Server) (q : Call) (s s' : Store) : Prop where
  store : s' = effect srv q s
  audit : s'.audit = q :: s.audit

variable {srv : Server} {q : Call} {s s' : Store} {k : ObjectKey}

/-- An answer either records its request or is a read or an error that changes nothing. -/
def Answered (s : Store) (q : Call) {α : Type} (a : Except KubeError α × Store) : Prop :=
  a.2.audit = q :: s.audit ∨ (a.2 = s ∧ ∀ o, a.1 ≠ .ok o)

theorem answered_created {α : Type} (o : Option α) {f : α → Store}
    (hf : ∀ a, (f a).audit = q :: s.audit) : Answered s q (created s (o.map f)) := by
  cases o with
  | none => exact .inr ⟨rfl, fun _ h => nomatch h⟩
  | some a => exact .inl (hf a)

theorem answered_patched {α : Type} (o : Option α) {f : α → Store}
    (hf : ∀ a, (f a).audit = q :: s.audit) : Answered s q (patched s (o.map f)) := by
  cases o with
  | none => exact .inr ⟨rfl, fun _ h => nomatch h⟩
  | some a => exact .inl (hf a)

theorem answered_answer (srv : Server) {q : ApiRequest} (hq : q.IsWrite) (s : Store) :
    Answered s (.api q) (answer srv q s) := by
  cases q with
  | getCluster k | getDatabase k | getSecret k | getDeployment k | getTidbCluster k => exact hq.elim
  | applyDeployment x | applyService x => exact .inl rfl
  | createSecret x | createConfigMap x | createTidbCluster x =>
    exact answered_created _ fun _ => rfl
  | mergeClusterStatus k' phase | mergeDatabaseStatus k' phase m | mergeUserStatus k' phase m =>
    exact answered_patched _ fun _ => rfl
  | replaceRootSecret k r =>
    simp only [answer]
    split
    · exact .inr ⟨rfl, fun _ h => nomatch h⟩
    · split
      · exact .inl rfl
      · exact .inr ⟨rfl, fun _ h => nomatch h⟩

theorem answer_of_not_isWrite (srv : Server) {q : ApiRequest} (hq : ¬ q.IsWrite) (s : Store) :
    (answer srv q s).2 = s := by
  cases q with
  | getCluster k | getDatabase k | getSecret k | getDeployment k | getTidbCluster k => rfl
  | _ => exact absurd trivial hq

/-- A call that changes anything is recorded in the audit. -/
theorem effect_eq_or_audit (srv : Server) (q : Call) (s : Store) :
    effect srv q s = s ∨ (effect srv q s).audit = q :: s.audit := by
  cases q with
  | http q => exact .inr rfl
  | draw n => exact .inl rfl
  | api q =>
    by_cases hq : q.IsWrite
    · exact (answered_answer srv hq s).symm.imp_left And.left
    · exact .inl (answer_of_not_isWrite srv hq s)

/-- The two outcomes of a served call. -/
theorem Serves.cases {r : Reply q} (h : Serves srv q s r s') :
    s' = s ∨ TookEffect srv q s s' := by
  have key : s' = s ∨ s' = effect srv q s := by
    cases q with
    | http q => exact h.elim .inr fun h => .inl h.2
    | draw n => exact .inl h
    | api q =>
      rcases h with h | ⟨e, -, -, h⟩
      · exact .inr (congrArg Prod.snd h)
      · exact h
  rcases key with rfl | rfl
  · exact .inl rfl
  · exact (effect_eq_or_audit srv q s).imp_right fun ha => ⟨rfl, ha⟩

/-- An accepted call took effect. -/
theorem Serves.accepted {r : Reply q} (h : Serves srv q s r s') (hr : q.Accepted r) :
    TookEffect srv q s s' := by
  cases q with
  | http q => exact h.elim (fun h => ⟨h, h ▸ rfl⟩) fun h => absurd hr h.1
  | draw n => exact hr.elim
  | api q =>
    obtain ⟨hq, o, rfl⟩ := hr
    rcases h with h | ⟨e, -, h, -⟩
    · have hok : (answer srv q s).1 = .ok o := (congrArg Prod.fst h).symm
      have hs : s' = (answer srv q s).2 := congrArg Prod.snd h
      rcases answered_answer srv hq s with ha | ⟨-, hno⟩
      · exact ⟨hs, hs ▸ ha⟩
      · exact absurd hok (hno o)
    · cases h

/-- The API server answers every call. What becomes of a statement is up to `http`. -/
def Answers (srv : Server) (http : HttpRequest → Store → HttpOutcome → Store → Prop) :
    (q : Call) → Store → Reply q → Store → Prop
  | .api q, s, r, s' => (r, s') = answer srv q s
  | .http q, s, r, s' => http q s r s'
  | .draw _, s, _, s' => s' = s

/-- The statement is accepted. -/
def Accepts (q : HttpRequest) (s : Store) (r : HttpOutcome) (s' : Store) : Prop :=
  r.IsSuccess ∧ s' = s.log (.http q)

/-- A server that answers every call except those in `lost`, which fail before they take effect.
Draws come out as `pick` says. -/
def respondWith (srv : Server) (pick : (n : ℕ) → Draws n) (lost : Call → Bool) :
    (q : Call) → Store → Reply q × Store
  | .api q, s =>
    match lost (.api q) with
    | true => ((.error (.other "connection reset") : Except KubeError q.Object), s)
    | false => answer srv q s
  | .http q, s =>
    match lost (.http q) with
    | true => (HttpOutcome.failed "connection reset", s)
    | false => (HttpOutcome.response ⟨200, .inl (by decide)⟩ "", effect srv (.http q) s)
  | .draw n, s => (pick n, s)

/-- The same where the draws do not matter. -/
def respond (srv : Server) (lost : Call → Bool) : (q : Call) → Store → Reply q × Store :=
  respondWith srv (fun _ => default) lost

theorem serves_respondWith (srv : Server) (pick : (n : ℕ) → Draws n) (lost : Call → Bool) (q : Call)
    (s : Store) :
    Serves srv q s (respondWith srv pick lost q s).1 (respondWith srv pick lost q s).2 := by
  cases q with
  | draw n => rfl
  | api q =>
    cases h : lost (.api q) with
    | true =>
      rw [respondWith, h]
      exact .inr ⟨_, ⟨rfl, rfl⟩, rfl, .inl rfl⟩
    | false =>
      rw [respondWith, h]
      exact .inl rfl
  | http q =>
    cases h : lost (.http q) with
    | true =>
      rw [respondWith, h]
      exact .inr ⟨id, rfl⟩
    | false =>
      rw [respondWith, h]
      exact .inl rfl

theorem serves_respond (srv : Server) (lost : Call → Bool) (q : Call) (s : Store) :
    Serves srv q s (respond srv lost q s).1 (respond srv lost q s).2 :=
  serves_respondWith srv _ lost q s

/-- A success is the answer of the working server. -/
theorem Serves.answered {q : ApiRequest} {o : q.Object}
    (h : Serves srv (.api q) s (.ok o : Except KubeError q.Object) s') :
    answer srv q s = (.ok o, s') := by
  rcases h with h | ⟨e, -, h, -⟩
  · exact h.symm
  · cases h

theorem lookup_eq_ok {α : Type} {m : ObjectKey → Option α} {a : α} (h : lookup m k = .ok a) :
    m k = some a := by
  rw [lookup] at h
  cases hm : m k with
  | none =>
    rw [hm] at h
    cases h
  | some b =>
    rw [hm] at h
    exact congrArg some (Except.ok.inj h)

/-- A call that writes nothing leaves the store. -/
theorem Serves.read {q : ApiRequest} {r : Reply (.api q)} (h : Serves srv (.api q) s r s')
    (hq : ¬ q.IsWrite) : s' = s := by
  rcases h.cases with rfl | ⟨rfl, -⟩
  · rfl
  · exact answer_of_not_isWrite srv hq s

/-! ### Inversions -/

/-- What a call that takes effect leaves, one constructor for each kind of write. -/
inductive Leaves (srv : Server) (s : Store) : Call → Store → Prop
  | statement (q : HttpRequest) : Leaves srv s (.http q) (s.log (.http q))
  | secret {x} (hfree : s.secrets x.metadata.key = none) :
      Leaves srv s (.api (.createSecret x))
        ({ s with secrets := Function.update s.secrets x.metadata.key (some x.stored) }.log
          (.api (.createSecret x)))
  | configMap {x} (hfree : s.configMaps x.metadata.key = none) :
      Leaves srv s (.api (.createConfigMap x))
        ({ s with configMaps := Function.update s.configMaps x.metadata.key (some x) }.log
          (.api (.createConfigMap x)))
  | tidbCluster {x} (hfree : s.tidbClusters x.metadata.key = none) :
      Leaves srv s (.api (.createTidbCluster x))
        ({ s with tidbClusters := Function.update s.tidbClusters x.metadata.key (some x) }.log
          (.api (.createTidbCluster x)))
  | deployment (x) :
      Leaves srv s (.api (.applyDeployment x))
        ({ s with
            deployments := Function.update s.deployments x.metadata.key
              (some (LiveDeployment.applied (s.deployments x.metadata.key) x)) }.log
          (.api (.applyDeployment x)))
  | service (x) :
      Leaves srv s (.api (.applyService x))
        ({ s with services := Function.update s.services x.metadata.key (some x) }.log
          (.api (.applyService x)))
  | rootSecret {k r c} (hc : s.clusters k = some c)
      (hr : c.spec.rootSecret.isSome ∨ srv.replaceMissing) :
      Leaves srv s (.api (.replaceRootSecret k r))
        ({ s with clusters := Function.update s.clusters k (some (c.setRootSecret r)) }.log
          (.api (.replaceRootSecret k r)))
  | clusterStatus {k phase c} (hc : s.clusters k = some c) :
      Leaves srv s (.api (.mergeClusterStatus k phase))
        ({ s with clusters := Function.update s.clusters k (some (c.mergeStatus phase)) }.log
          (.api (.mergeClusterStatus k phase)))
  | databaseStatus {k phase m d} (hd : s.databases k = some d) :
      Leaves srv s (.api (.mergeDatabaseStatus k phase m))
        ({ s with databases := Function.update s.databases k (some (d.mergeStatus phase m)) }.log
          (.api (.mergeDatabaseStatus k phase m)))
  | userStatus {k phase m u} (hu : s.users k = some u) :
      Leaves srv s (.api (.mergeUserStatus k phase m))
        ({ s with users := Function.update s.users k (some (u.mergeStatus phase m)) }.log
          (.api (.mergeUserStatus k phase m)))

/-- A create either finds its key free or changes nothing. -/
theorem created_cases {α : Type} (m : ObjectKey → Option α) (x : ObjectKey) (a : α)
    (f : (ObjectKey → Option α) → Store) :
    (created s ((createIn m x a).map f)).2 = s ∨
      (m x = none ∧ (created s ((createIn m x a).map f)).2 = f (Function.update m x (some a))) := by
  rw [createIn]
  cases hx : m x with
  | none => exact .inr ⟨rfl, rfl⟩
  | some b => exact .inl rfl

theorem patched_cases {α : Type} (o : Option α) (f : α → Store) :
    (patched s (o.map f)).2 = s ∨ ∃ a, o = some a ∧ (patched s (o.map f)).2 = f a := by
  cases o with
  | none => exact .inl rfl
  | some a => exact .inr ⟨a, rfl, rfl⟩

/-- A call changes nothing, or what its kind of write changes. -/
theorem effect_cases (srv : Server) (q : Call) (s : Store) :
    effect srv q s = s ∨ Leaves srv s q (effect srv q s) := by
  cases q with
  | http q => exact .inr (.statement q)
  | draw n => exact .inl rfl
  | api q =>
    cases q with
    | getCluster k | getDatabase k | getSecret k | getDeployment k | getTidbCluster k =>
      exact .inl rfl
    | applyDeployment x => exact .inr (.deployment x)
    | applyService x => exact .inr (.service x)
    | createSecret x =>
      refine (created_cases s.secrets ..).imp_right fun ⟨hfree, h⟩ => ?_
      rw [show effect srv (.api (.createSecret x)) s = _ from h]
      exact .secret hfree
    | createConfigMap x =>
      refine (created_cases s.configMaps ..).imp_right fun ⟨hfree, h⟩ => ?_
      rw [show effect srv (.api (.createConfigMap x)) s = _ from h]
      exact .configMap hfree
    | createTidbCluster x =>
      refine (created_cases s.tidbClusters ..).imp_right fun ⟨hfree, h⟩ => ?_
      rw [show effect srv (.api (.createTidbCluster x)) s = _ from h]
      exact .tidbCluster hfree
    | mergeClusterStatus k phase =>
      refine (patched_cases (s.clusters k) _).imp_right fun ⟨c, hc, h⟩ => ?_
      rw [show effect srv (.api (.mergeClusterStatus k phase)) s = _ from h]
      exact .clusterStatus hc
    | mergeDatabaseStatus k phase m =>
      refine (patched_cases (s.databases k) _).imp_right fun ⟨d, hd, h⟩ => ?_
      rw [show effect srv (.api (.mergeDatabaseStatus k phase m)) s = _ from h]
      exact .databaseStatus hd
    | mergeUserStatus k phase m =>
      refine (patched_cases (s.users k) _).imp_right fun ⟨u, hu, h⟩ => ?_
      rw [show effect srv (.api (.mergeUserStatus k phase m)) s = _ from h]
      exact .userStatus hu
    | replaceRootSecret k r =>
      simp only [effect, answer]
      split
      · exact .inl rfl
      · next c hc =>
        split
        · next hr => exact .inr (.rootSecret hc (by simpa using hr))
        · exact .inl rfl

/-- The Cluster at `k` changes by a status write or by a root Secret reference. -/
theorem clusters_effect (srv : Server) (q : Call) (s : Store) (k : ObjectKey) :
    (effect srv q s).clusters k = s.clusters k ∨
      (∃ phase, q = .api (.mergeClusterStatus k phase) ∧
        (effect srv q s).clusters k = (s.clusters k).map (Cluster.mergeStatus · phase)) ∨
      ∃ r c, q = .api (.replaceRootSecret k r) ∧ s.clusters k = some c ∧
        (c.spec.rootSecret.isSome ∨ srv.replaceMissing) ∧
        (effect srv q s).clusters k = some (c.setRootSecret r) := by
  rcases effect_cases srv q s with h | h
  · exact .inl (by rw [h])
  · generalize effect srv q s = s' at h
    cases h with
    | @clusterStatus k' phase c hc =>
      rcases eq_or_ne k k' with rfl | hk
      · exact .inr (.inl ⟨phase, rfl, by rw [hc]; exact Function.update_self ..⟩)
      · exact .inl (Function.update_of_ne hk ..)
    | @rootSecret k' r c hc hr =>
      rcases eq_or_ne k k' with rfl | hk
      · exact .inr (.inr ⟨r, c, rfl, hc, hr, Function.update_self ..⟩)
      · exact .inl (Function.update_of_ne hk ..)
    | _ => exact .inl rfl

/-- The stored phase of the Cluster at `k`. -/
def Store.phase (s : Store) (k : ObjectKey) : Option Phase := (s.clusters k).map Cluster.phase

/-- The stored phase changes by a status write and by nothing else. -/
theorem phase_effect (srv : Server) (q : Call) (s : Store) (k : ObjectKey) :
    (effect srv q s).phase k = s.phase k ∨
      ∃ phase, q = .api (.mergeClusterStatus k phase) ∧
        (effect srv q s).phase k = (s.phase k).map fun _ => phase := by
  rcases clusters_effect srv q s k with h | ⟨phase, rfl, h⟩ | ⟨r, c, rfl, hc, -, h⟩
  · exact .inl (congrArg (Option.map Cluster.phase) h)
  · refine .inr ⟨phase, rfl, ?_⟩
    rw [Store.phase, h, Store.phase, Option.map_map, Option.map_map]
    rfl
  · left
    rw [Store.phase, h, Store.phase, hc]
    rfl

/-- The Database at `k` changes by a status write. -/
theorem databases_effect (srv : Server) (q : Call) (s : Store) (k : ObjectKey) :
    (effect srv q s).databases k = s.databases k ∨
      ∃ phase message, q = .api (.mergeDatabaseStatus k phase message) ∧
        (effect srv q s).databases k =
          (s.databases k).map (Database.mergeStatus · phase message) := by
  rcases effect_cases srv q s with h | h
  · exact .inl (by rw [h])
  · generalize effect srv q s = s' at h
    cases h with
    | @databaseStatus k' phase m d hd =>
      rcases eq_or_ne k k' with rfl | hk
      · exact .inr ⟨phase, m, rfl, by rw [hd]; exact Function.update_self ..⟩
      · exact .inl (Function.update_of_ne hk ..)
    | _ => exact .inl rfl

/-- The User at `k` changes by a status write. -/
theorem users_effect (srv : Server) (q : Call) (s : Store) (k : ObjectKey) :
    (effect srv q s).users k = s.users k ∨
      ∃ phase message, q = .api (.mergeUserStatus k phase message) ∧
        (effect srv q s).users k = (s.users k).map (User.mergeStatus · phase message) := by
  rcases effect_cases srv q s with h | h
  · exact .inl (by rw [h])
  · generalize effect srv q s = s' at h
    cases h with
    | @userStatus k' phase m u hu =>
      rcases eq_or_ne k k' with rfl | hk
      · exact .inr ⟨phase, m, rfl, by rw [hu]; exact Function.update_self ..⟩
      · exact .inl (Function.update_of_ne hk ..)
    | _ => exact .inl rfl

/-- The Deployment at `k` changes by a Deployment write. -/
theorem deployments_effect (srv : Server) (q : Call) (s : Store) (k : ObjectKey) :
    (effect srv q s).deployments k = s.deployments k ∨
      ∃ x, q = .api (.applyDeployment x) ∧ x.metadata.key = k ∧
        (effect srv q s).deployments k = some (LiveDeployment.applied (s.deployments k) x) := by
  rcases effect_cases srv q s with h | h
  · exact .inl (by rw [h])
  · generalize effect srv q s = s' at h
    cases h with
    | deployment x =>
      rcases eq_or_ne k x.metadata.key with rfl | hk
      · exact .inr ⟨x, rfl, rfl, Function.update_self ..⟩
      · exact .inl (Function.update_of_ne hk ..)
    | _ => exact .inl rfl

/-- The Service at `k` changes by a Service write. -/
theorem services_effect (srv : Server) (q : Call) (s : Store) (k : ObjectKey) :
    (effect srv q s).services k = s.services k ∨
      ∃ x, q = .api (.applyService x) ∧ x.metadata.key = k ∧
        (effect srv q s).services k = some x := by
  rcases effect_cases srv q s with h | h
  · exact .inl (by rw [h])
  · generalize effect srv q s = s' at h
    cases h with
    | service x =>
      rcases eq_or_ne k x.metadata.key with rfl | hk
      · exact .inr ⟨x, rfl, rfl, Function.update_self ..⟩
      · exact .inl (Function.update_of_ne hk ..)
    | _ => exact .inl rfl

/-- The Secret at `k` appears by a create, if there was none. -/
theorem secrets_effect (srv : Server) (q : Call) (s : Store) (k : ObjectKey) :
    (effect srv q s).secrets k = s.secrets k ∨
      ∃ x, q = .api (.createSecret x) ∧ x.metadata.key = k ∧ s.secrets k = none ∧
        (effect srv q s).secrets k = some x.stored := by
  rcases effect_cases srv q s with h | h
  · exact .inl (by rw [h])
  · generalize effect srv q s = s' at h
    cases h with
    | @secret x hfree =>
      rcases eq_or_ne k x.metadata.key with rfl | hk
      · exact .inr ⟨x, rfl, rfl, hfree, Function.update_self ..⟩
      · exact .inl (Function.update_of_ne hk ..)
    | _ => exact .inl rfl

end SdbController
