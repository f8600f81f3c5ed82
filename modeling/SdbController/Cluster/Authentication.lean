import SdbController.Cluster.Lifecycle

/-!
# Authentication

In sequential runs of the Cluster controller authentication never regresses: once the authenticated
workload has been applied the open one never is again, the phases from `InProgress` on are only
reached through a bootstrap, and the phases `Ready` and `NotReady` only with the authenticated
workload in place.

The invariant relates the stored phase to the audit. A lost status write does not hurt it, because
the only branches that apply the open workload are those of `New` and `Preparing`, and no branch
that applies the authenticated one ever leads back to them.

## Main results

* `authentication_never_regresses` — the three clauses above, in every reachable configuration
-/

namespace SdbController

open Interaction

/-- The phases in which the open workload may still be applied. -/
def Phase.Early (p : Phase) : Prop := p = .new ∨ p = .preparing

/-- The phases after the bootstrap. -/
def Phase.Late (p : Phase) : Prop := p = .inProgress ∨ p = .ready ∨ p = .notReady

instance : DecidablePred Phase.Early := fun _ => inferInstanceAs (Decidable (_ ∨ _))

instance : DecidablePred Phase.Late := fun _ => inferInstanceAs (Decidable (_ ∨ _ ∨ _))

/-- The Deployment applied last is authenticated. -/
def Closed (k : ObjectKey) (audit : List Call) : Prop :=
  ∃ d ds, applied k audit = d :: ds ∧ d.Authenticated

/-- No authenticated Deployment was applied. -/
def Open (k : ObjectKey) (audit : List Call) : Prop :=
  ∀ d ∈ applied k audit, ¬ d.Authenticated

theorem Closed.not_open {k : ObjectKey} {audit : List Call} (h : Closed k audit) :
    ¬ Open k audit := by
  obtain ⟨d, ds, happ, hd⟩ := h
  intro hopen
  have hmem : d ∈ applied k audit := by
    rw [happ]
    exact List.mem_cons_self
  exact hopen d hmem hd

/-! ### What the branches do about the mode -/

namespace Cluster

variable {c : Cluster} {h : History Reply} {m : Bool} {p : Phase}

/-- The open workload is applied in the early phases only, and nothing else is applied there. -/
theorem Deploys.early_iff (hd : c.Deploys h m) : c.phase.Early ↔ m = true := by
  rw [Deploys] at hd
  cases hp : c.phase <;> rw [hp] at hd <;> rw [hd.1] <;> simp [Phase.Early]

/-- An early phase is written from `New` only. -/
theorem Writes.of_early (hw : c.Writes h p) (hp : p.Early) : c.phase = .new ∧ p = .preparing := by
  unfold Writes at hw
  rcases hp with rfl | rfl <;> cases hc : c.phase <;> simp_all

/-- A late phase is written from a late phase, or right after a bootstrap. -/
theorem Writes.of_late (hw : c.Writes h p) (hp : p.Late) :
    (p = .inProgress ∧ ∃ u w r h', h = c.bootstrapped u w r :: h' ∧ r.IsSuccess) ∨
      (c.phase.Late ∧ c.deployed false ∈ h) := by
  unfold Writes at hw
  rcases hp with rfl | rfl | rfl <;> cases hc : c.phase <;> rw [hc] at hw <;> try exact hw.elim
  · exact .inl ⟨rfl, hw⟩
  all_goals
    obtain ⟨r, rfl, -⟩ := hw
    exact .inr ⟨by decide, by simp⟩

end Cluster

/-! ### The invariant -/

/-- What the store says about authentication. -/
structure Secured (k : ObjectKey) (s : Store) : Prop where
  modes : ∀ d ∈ applied k s.audit, ∃ m, d.BuiltIn m
  ordered : (applied k s.audit).Pairwise fun newer older =>
    older.Authenticated → newer.Authenticated
  early : ∀ {p}, s.phase k = some p → p.Early → Open k s.audit
  late : ∀ {p}, s.phase k = some p → p.Late → Bootstrapped k s.audit
  closed : ∀ {p}, s.phase k = some p → p = .ready ∨ p = .notReady → Closed k s.audit

/-- What a running invocation knows about authentication. -/
structure Securing (k : ObjectKey) (l : Cluster) (h : History Reply) (s : Store) : Prop where
  early : l.phase.Early → Open k s.audit
  past : ¬ l.phase.Early → ∀ {p}, s.phase k = some p → ¬ p.Early
  late : l.phase.Late → Bootstrapped k s.audit
  bootstrapped : ∀ {u p r}, l.bootstrapped u p r ∈ h → r.IsSuccess → Bootstrapped k s.audit
  deployed : ¬ l.phase.Early → l.deployed false ∈ h → Closed k s.audit

section Step

variable {srv : Server} {k : ObjectKey} {l : Cluster} {h : History Reply} {q : Call} {r : Reply q}
  {s s' : Store}

/-- Both depend on the stored phase and the audit only. -/
theorem Secured.congr (hS : Secured k s) (hp : s'.phase k = s.phase k) (ha : s'.audit = s.audit) :
    Secured k s' := by
  obtain ⟨modes, ordered, early, late, closed⟩ := hS
  rw [← hp, ← ha] at *
  exact ⟨modes, ordered, early, late, closed⟩

theorem Securing.congr (hT : Securing k l h s) (hp : s'.phase k = s.phase k)
    (ha : s'.audit = s.audit) : Securing k l h s' := by
  obtain ⟨early, past, late, bootstrapped, deployed⟩ := hT
  rw [← hp, ← ha] at *
  exact ⟨early, past, late, bootstrapped, deployed⟩

/-- The Deployment just applied in mode `m` decides whether the workload is open or closed. -/
theorem closed_of_applied {d : Deployment} (happ : applied k s'.audit = d :: applied k s.audit)
    (hd : d.Authenticated) : Closed k s'.audit := ⟨d, _, happ, hd⟩

theorem Open.applied {d : Deployment} (hopen : Open k s.audit)
    (happ : SdbController.applied k s'.audit = d :: SdbController.applied k s.audit)
    (hd : ¬ d.Authenticated) : Open k s'.audit := by
  intro x hx
  rw [happ] at hx
  rcases List.mem_cons.mp hx with rfl | hx
  · exact hd
  · exact hopen x hx

theorem Secured.call (hS : Secured k s) (hT : Securing k l h s) (hsome : (s.phase k).isSome)
    (hk : l.key = k) (hq : l.Conduct h q) (hs : Serves srv q s r s') : Secured k s' := by
  rcases hs.applied_cases hk hq with happ | ⟨m, rfl, hm, -, happ⟩
  · -- no Deployment is applied, so only the phase may move
    have hopen : Open k s.audit → Open k s'.audit := fun ho => by rwa [Open, happ]
    have hclosed : Closed k s.audit → Closed k s'.audit := fun ho => by rwa [Closed, happ]
    have hmodes := hS.modes
    have hordered := hS.ordered
    rw [← happ] at hmodes hordered
    rcases hs.phase_cases hsome hq with hp | ⟨p, rfl, hw, hp⟩
    · refine ⟨hmodes, hordered, ?_, ?_, ?_⟩
      · rw [hp]
        exact fun hp' he => hopen (hS.early hp' he)
      · rw [hp]
        exact fun hp' hl => (hS.late hp' hl).serves hs
      · rw [hp]
        exact fun hp' hr => hclosed (hS.closed hp' hr)
    · refine ⟨hmodes, hordered, ?_, ?_, ?_⟩ <;> rw [hp] <;> rintro _ ⟨⟩ hphase
      · exact hopen (hT.early (.inl (hw.of_early hphase).1))
      · rcases hw.of_late hphase with ⟨-, u, w, out, h', rfl, hout⟩ | ⟨hl, -⟩
        · exact (hT.bootstrapped List.mem_cons_self hout).serves hs
        · exact (hT.late hl).serves hs
      · have hlate : p.Late := .inr hphase
        rcases hw.of_late hlate with ⟨rfl, -⟩ | ⟨hl, hmem⟩
        · rcases hphase with h | h <;> cases h
        · refine hclosed (hT.deployed ?_ hmem)
          rcases hl with hl | hl | hl <;> rw [hl] <;> decide
  · -- a Deployment is applied, so the phase stays
    have hauth := l.authenticated_build l.name m
    have hp : s'.phase k = s.phase k := by
      rcases hs.phase_cases hsome hq with hp | ⟨p, hne, -, -⟩
      · exact hp
      · cases hne
    refine ⟨?_, ?_, ?_, ?_, ?_⟩
    · intro d hd
      rw [happ] at hd
      rcases List.mem_cons.mp hd with rfl | hd
      · exact ⟨m, l, rfl⟩
      · exact hS.modes d hd
    · rw [happ]
      refine List.pairwise_cons.mpr ⟨fun d hd hda => ?_, hS.ordered⟩
      cases m with
      | false => exact hauth.mpr rfl
      | true => exact absurd hda (hT.early (hm.early_iff.mpr rfl) d hd)
    · rw [hp]
      intro p hp' he
      refine (hS.early hp' he).applied happ fun ha => ?_
      rw [hauth.mp ha] at hm
      exact hT.past (fun hl => nomatch hm.early_iff.mp hl) hp' he
    · rw [hp]
      exact fun hp' hl => (hS.late hp' hl).serves hs
    · rw [hp]
      intro p hp' hr
      cases m with
      | false => exact closed_of_applied happ (hauth.mpr rfl)
      | true => exact absurd (hT.early (hm.early_iff.mpr rfl)) (hS.closed hp' hr).not_open

theorem Securing.call (hT : Securing k l h s) (hsome : (s.phase k).isSome)
    (hk : l.key = k) (hq : l.Conduct h q) (hs : Serves srv q s r s') :
    Securing k l (⟨q, r⟩ :: h) s' := by
  refine ⟨fun he => ?_, fun he => ?_, fun hl => (hT.late hl).serves hs, ?_, fun he hmem => ?_⟩
  · rcases hs.applied_cases hk hq with happ | ⟨m, rfl, hm, -, happ⟩
    · rw [Open, happ]
      exact hT.early he
    · refine (hT.early he).applied happ fun ha => ?_
      rw [(l.authenticated_build l.name m).mp ha] at hm
      exact nomatch hm.early_iff.mp he
  · rcases hs.phase_cases hsome hq with hp | ⟨p, rfl, hw, hp⟩
    · rw [hp]
      exact hT.past he
    · rw [hp]
      rintro _ ⟨⟩ hp'
      exact he (.inl (hw.of_early hp').1)
  · intro u p out hmem hout
    rcases List.mem_cons.mp hmem with heq | hmem
    · exact hs.bootstrapped hk heq.symm hout
    · exact (hT.bootstrapped hmem hout).serves hs
  · rcases List.mem_cons.mp hmem with heq | hmem
    · exact closed_of_applied (hs.deployed hk heq.symm)
        ((l.authenticated_build l.name false).mpr rfl)
    · rcases hs.applied_cases hk hq with happ | ⟨m, rfl, hm, -, happ⟩
      · rw [Closed, happ]
        exact hT.deployed he hmem
      · refine closed_of_applied happ ((l.authenticated_build l.name m).mpr ?_)
        cases m with
        | false => rfl
        | true => exact absurd (hm.early_iff.mpr rfl) he

theorem Fresh.secured (hs : Fresh k s) : Secured k s := by
  obtain ⟨c, hc, -, hnew⟩ := hs.stored
  have hnil : applied k s.audit = [] := congrArg (applied k) hs.audit
  refine ⟨?_, ?_, ?_, ?_, ?_⟩
  · rw [hnil]
    exact fun d hd => absurd hd List.not_mem_nil
  · rw [hnil]
    exact List.Pairwise.nil
  · intro p _ _
    rw [Open, hnil]
    exact fun d hd => absurd hd List.not_mem_nil
  all_goals
    intro p hp hphase
    rw [Store.phase, hc, Option.map_some, hnew] at hp
    cases hp
    exact absurd hphase (by decide)

/-- What an invocation knows when it starts, it knows from the store. -/
theorem Secured.start (hS : Secured k s) (hl : s.clusters k = some l) : Securing k l [] s := by
  have hp : s.phase k = some l.phase := congrArg (Option.map Cluster.phase) hl
  refine ⟨hS.early hp, fun he p hp' => ?_, hS.late hp, ?_, ?_⟩
  · cases hp.symm.trans hp'
    exact he
  · exact fun hmem => absurd hmem List.not_mem_nil
  · exact fun _ hmem => absurd hmem List.not_mem_nil

end Step

/-- Sequential runs keep the store secured. -/
theorem secured_invariance (srv : Server) (k : ObjectKey) :
    Invariance (ι := Unit) srv k System.anyMove (fun s _ => Secured k s) (Securing k)
      fun _ => True where
  init hs := ⟨hs.secured, trivial⟩
  env hp _ he hS := ⟨hS.congr hp he.audit, fun _ hT => hT.congr hp he.audit, fun _ => trivial⟩
  start _ hl hS _ := ⟨hS, hS.start hl⟩
  call hsome hk _ hq _ hs hS hT := ⟨hS.call hT hsome hk hq hs, hT.call hsome hk hq hs⟩
  frame _ _ _ _ _ hij := absurd (Subsingleton.elim _ _) hij
  finish _ _ := trivial
  crash _ _ _ := trivial

/-- **Authentication never regresses.** In every configuration of a sequential run: no open
Deployment was applied after an authenticated one; a late phase is stored only after a bootstrap
request was accepted; and `Ready` or `NotReady` is stored only while the Deployment applied last is
authenticated. -/
theorem authentication_never_regresses (srv : Server) (k : ObjectKey) {c : Run Unit}
    (hc : (clusterSystem srv k).Reachable (Fresh k) System.anyMove c) :
    ((applied k c.store.audit).Pairwise fun newer older =>
        older.BuiltIn false → ¬ newer.BuiltIn true) ∧
      (∀ p, c.store.phase k = some p → p = .inProgress ∨ p = .ready ∨ p = .notReady →
        Bootstrapped k c.store.audit) ∧
      ∀ p, c.store.phase k = some p → p = .ready ∨ p = .notReady →
        ∃ d ds, applied k c.store.audit = d :: ds ∧ d.Authenticated := by
  obtain ⟨-, hS⟩ := ((secured_invariance srv k).sound hc).store
  refine ⟨hS.ordered.imp fun hle hold hnew => ?_, fun p => hS.late, fun p => hS.closed⟩
  have hauth := hle (hold.authenticated_iff.mpr rfl)
  exact nomatch hnew.authenticated_iff.mp hauth

/-- The store of the sample Cluster after the open workload has become available, the bootstrap, and
one more invocation. -/
def readyStore : Store :=
  let step := invoke ⟨false⟩ sampleCluster.key fun _ => false
  step (step (rollOut sampleCluster.key (step sampleStore)))

/-- The sample Cluster gets to `readyStore` without an invocation in `Error`. -/
theorem settles_readyStore {ok : Run Unit → RunMove Unit → Prop}
    (hok : ∀ {x : Cluster} {c m}, x.phase ≠ .error →
      System.Played (respond ⟨false⟩ fun _ => false) () x x.reconcile.run c m → ok c m)
    (henv : ∀ c s', ok c (.env s')) : Settles ⟨false⟩ sampleCluster.key ok readyStore := by
  have h₀ : Settles ⟨false⟩ sampleCluster.key ok sampleStore := .fresh fresh_sampleStore
  have h₁ := h₀.invoke (fun _ => false) (fun hx c m => hok
    (ne_of_eq_of_ne (phase_of_stored hx (p := .new) rfl) (by decide))) (by decide)
  have h₂ := h₁.env (clusterEnv_rollOut sampleCluster.key _) fun c _ => henv c _
  have h₃ := h₂.invoke (fun _ => false) (fun hx c m => hok
    (ne_of_eq_of_ne (phase_of_stored hx (p := .inCreation) (by decide)) (by decide))) (by decide)
  exact h₃.invoke (fun _ => false) (fun hx c m => hok
    (ne_of_eq_of_ne (phase_of_stored hx (p := .inProgress) (by decide)) (by decide))) (by decide)

/-- The clauses at a run that has reached `Ready`. -/
theorem authentication_never_regresses_ready : ∃ c : Run Unit,
    c.store.phase sampleCluster.key = some .ready ∧
      Bootstrapped sampleCluster.key c.store.audit ∧
      ∃ d ds, applied sampleCluster.key c.store.audit = d :: ds ∧ d.Authenticated := by
  have hsettles : Settles ⟨false⟩ sampleCluster.key System.anyMove readyStore :=
    settles_readyStore (fun _ _ => trivial) fun _ _ => trivial
  obtain ⟨c, hc, -, hs⟩ := hsettles
  have hp : c.store.phase sampleCluster.key = some .ready := by
    rw [hs]
    decide
  obtain ⟨-, hlate, hclosed⟩ := authentication_never_regresses _ _ hc
  exact ⟨c, hp, hlate _ hp (.inr (.inl rfl)), hclosed _ hp (.inl rfl)⟩

/-! ### The gate before the authenticated workload -/

/-- An earlier invocation in `New`, where the two are asked for, passed the preflight and had a root
Secret. -/
def Evidence (record : List (Cluster × History Reply)) : Prop :=
  ∃ l h sel, (l, h) ∈ record ∧ l.phase = .new ∧ l.tikvBackendConfigured = .ok () ∧
    Program.Returns l.ensureRootSecret.run h (.ok sel)

/-- Every authenticated Deployment was applied on evidence and after a bootstrap. -/
def Gated (k : ObjectKey) (record : List (Cluster × History Reply)) (audit : List Call) : Prop :=
  ∀ newer older x, audit = newer ++ .api (.applyDeployment x) :: older →
    x.metadata.key = k.workload → x.BuiltIn false → Evidence record ∧ Bootstrapped k older

/-- The move is not a Deployment write of the `Error` branch that takes effect. -/
def NoHealing (c : Run Unit) : RunMove Unit → Prop
  | .call _ l _ (.api (.applyDeployment x)) _ s' =>
    l.phase = .error → s'.audit ≠ .api (.applyDeployment x) :: c.store.audit
  | _ => True

theorem Evidence.cons {record : List (Cluster × History Reply)} (h : Evidence record)
    (e : Cluster × History Reply) : Evidence (e :: record) := by
  obtain ⟨l, h, sel, hmem, hl⟩ := h
  exact ⟨l, h, sel, List.mem_cons_of_mem _ hmem, hl⟩

theorem Gated.record {k : ObjectKey} {record : List (Cluster × History Reply)} {audit : List Call}
    (hg : Gated k record audit) (e : Cluster × History Reply) : Gated k (e :: record) audit := by
  intro newer older x haudit hx hm
  obtain ⟨hev, hb⟩ := hg newer older x haudit hx hm
  exact ⟨hev.cons e, hb⟩

theorem Gated.audit {k : ObjectKey} {record : List (Cluster × History Reply)} {audit : List Call}
    (hg : Gated k record audit) {q : Call}
    (hq : ∀ x, q = .api (.applyDeployment x) → x.BuiltIn false →
      Evidence record ∧ Bootstrapped k audit) : Gated k record (q :: audit) := by
  intro newer older x haudit hx hm
  cases newer with
  | nil =>
    obtain ⟨rfl, rfl⟩ := List.cons_eq_cons.mp haudit
    exact hq x rfl hm
  | cons q' newer =>
    obtain ⟨-, rfl⟩ := List.cons_eq_cons.mp haudit
    exact hg newer older x rfl hx hm

namespace Cluster

variable {c : Cluster} {h : History Reply} {p : Phase}

/-- A phase other than `Error` is written on the evidence of this invocation or of an earlier
one. -/
theorem Writes.evidence (hw : c.Writes h p) (hp : p ≠ .error) :
    (c.phase ≠ .new ∧ c.phase ≠ .error) ∨ (c.phase = .new ∧ c.tikvBackendConfigured = .ok () ∧
      ∃ sel, Program.Returns c.ensureRootSecret.run h (.ok sel)) := by
  unfold Writes at hw
  cases hc : c.phase <;> rw [hc] at hw
  case new =>
    cases p with
    | preparing | inCreation => exact .inr ⟨rfl, hw.1, hw.2.2⟩
    | error => exact absurd rfl hp
    | _ => exact hw.elim
  case error => cases p <;> exact hw.elim
  all_goals exact .inl ⟨by decide, by decide⟩

/-- Outside the `Error` branch the authenticated workload is applied after a bootstrap. -/
theorem Deploys.gate (hd : c.Deploys h false) (hc : c.phase ≠ .error) :
    (c.phase ≠ .new ∧ c.phase ≠ .error) ∧
      (c.phase.Late ∨ ∃ u w r, c.bootstrapped u w r ∈ h ∧ r.IsSuccess) := by
  rw [Deploys] at hd
  cases hp : c.phase <;> rw [hp] at hd hc
  case new | preparing => exact absurd hd.1 Bool.false_ne_true
  case error => exact absurd rfl hc
  case inCreation =>
    obtain ⟨-, r, u, w, r', h', rfl, hr'⟩ := hd
    exact ⟨⟨by decide, by decide⟩, .inr ⟨u, w, r', by simp, hr'⟩⟩
  all_goals exact ⟨⟨by decide, by decide⟩, .inl (by decide)⟩

end Cluster

/-- Without healing, sequential runs keep the authenticated workload gated. -/
theorem gated_invariance (srv : Server) (k : ObjectKey) :
    Invariance (ι := Unit) srv k NoHealing
      (fun s record => Secured k s ∧
        (∀ {p}, s.phase k = some p → p ≠ .new → p ≠ .error → Evidence record) ∧
        (∀ {l h}, (l, h) ∈ record → l.phase ≠ .new → l.phase ≠ .error → Evidence record) ∧
        Gated k record s.audit)
      (Securing k) fun _ => True where
  init hs := by
    obtain ⟨c, hc, -, hnew⟩ := hs.stored
    refine ⟨⟨hs.secured, fun hp hne _ => ?_, fun hmem => ?_, ?_⟩, trivial⟩
    · rw [Store.phase, hc, Option.map_some, hnew] at hp
      exact absurd (Option.some.inj hp).symm hne
    · exact absurd hmem List.not_mem_nil
    · rw [hs.audit]
      intro newer older x haudit
      exact absurd haudit (by simp)
  env hp _ he hI := by
    obtain ⟨hS, hev, hrec, hg⟩ := hI
    refine ⟨⟨hS.congr hp he.audit, ?_, hrec, ?_⟩, fun _ hT => hT.congr hp he.audit,
      fun _ => trivial⟩
    · rw [hp]
      exact hev
    · rw [he.audit]
      exact hg
  start {c i l} _ hl hI _ := by
    obtain ⟨hS, hev, hrec, hg⟩ := hI
    have hp : c.store.phase k = some l.phase := congrArg (Option.map Cluster.phase) hl
    refine ⟨⟨hS, fun hp' hn he => (hev hp' hn he).cons _, fun hmem hn he => ?_, hg.record _⟩,
      hS.start hl⟩
    rcases List.mem_cons.mp hmem with heq | hmem
    · cases heq
      exact (hev hp hn he).cons _
    · exact (hrec hmem hn he).cons _
  call {c i l h q r s'} hsome hk hmem hq hm hs hI hT := by
    obtain ⟨hS, hev, hrec, hg⟩ := hI
    refine ⟨⟨hS.call hT hsome hk hq hs, fun hp hn he => ?_, fun hmem' hn he => ?_, ?_⟩,
      hT.call hsome hk hq hs⟩
    · rcases hs.phase_cases hsome hq with hsame | ⟨p, rfl, hw, hp'⟩
      · rw [hsame] at hp
        exact (hev hp hn he).cons _
      · cases hp'.symm.trans hp
        rcases hw.evidence he with ⟨hn', he'⟩ | ⟨hnew, htikv, sel, hret⟩
        · exact (hrec hmem hn' he').cons _
        · exact Evidence.cons ⟨l, h, sel, hmem, hnew, htikv, hret⟩ _
    · rcases List.mem_cons.mp hmem' with heq | hmem'
      · cases heq
        exact (hrec hmem hn he).cons _
      · exact (hrec hmem' hn he).cons _
    · rcases hs.audit_cases with ha | ha
      · rw [ha]
        exact hg.record _
      · rw [ha]
        refine (hg.record _).audit fun x hx hbuilt => ?_
        subst hx
        obtain ⟨m, rfl, hd⟩ := hq
        cases (l.authenticated_build l.name m).mp (hbuilt.authenticated_iff.mpr rfl)
        obtain ⟨⟨hn, he⟩, hboot⟩ := hd.gate fun herr => hm herr ha
        refine ⟨(hrec hmem hn he).cons _, ?_⟩
        rcases hboot with hlate | ⟨u, w, out, hout, hsucc⟩
        · exact hT.late hlate
        · exact hT.bootstrapped hout hsucc
  frame _ _ _ _ _ hij := absurd (Subsingleton.elim _ _) hij
  finish _ _ := trivial
  crash _ _ _ := trivial

/-- The phases before the bootstrap. -/
def Phase.Unproven (p : Phase) : Prop := p = .new ∨ p = .preparing ∨ p = .error

/-- Before the bootstrap there is none, and `Error` is entered before it: the phases up to it are
written from `New` only. -/
theorem unproven_invariance (srv : Server) (k : ObjectKey) :
    Invariance (ι := Unit) srv k System.anyMove
      (fun s _ => ∀ {p}, s.phase k = some p → p.Unproven → ¬ Bootstrapped k s.audit)
      (fun l _ s => (l.phase.Unproven → ¬ Bootstrapped k s.audit) ∧
        (¬ l.phase.Unproven → ∀ {p}, s.phase k = some p → ¬ p.Unproven))
      fun _ => True where
  init hs := by
    refine ⟨fun _ _ hb => ?_, trivial⟩
    obtain ⟨_, _, _, _, hmem⟩ := hb
    rw [hs.audit] at hmem
    exact absurd hmem List.not_mem_nil
  env hp _ he hI := by
    rw [hp, he.audit]
    exact ⟨hI, fun _ hT => hT, fun _ => trivial⟩
  start _ hl hI _ := by
    have hp : _ = some _ := congrArg (Option.map Cluster.phase) hl
    refine ⟨hI, hI hp, fun hn p hp' => ?_⟩
    cases hp.symm.trans hp'
    exact hn
  call {c i l h q r s'} hsome hk _ hq _ hs hI hT := by
    -- only the `InCreation` branch sends a bootstrap request
    have hkeep : l.phase.Unproven → ¬ Bootstrapped k s'.audit := by
      intro hl hb
      obtain ⟨c', u, w, hc', hmem⟩ := hb
      rcases hs.audit_cases with ha | ha
      · rw [ha] at hmem
        exact hT.1 hl ⟨c', u, w, hc', hmem⟩
      · rw [ha] at hmem
        rcases List.mem_cons.mp hmem with rfl | hmem
        · rw [hq.1] at hl
          exact absurd hl (by unfold Phase.Unproven; decide)
        · exact hT.1 hl ⟨c', u, w, hc', hmem⟩
    have hphase : ¬ l.phase.Unproven → ∀ {p}, s'.phase k = some p → ¬ p.Unproven := by
      intro hl p hp
      rcases hs.phase_cases hsome hq with hsame | ⟨p', rfl, hw, hp'⟩
      · exact hT.2 hl (hsame ▸ hp)
      · cases hp'.symm.trans hp
        unfold Cluster.Writes at hw
        rintro (rfl | rfl | rfl) <;> cases hc : l.phase <;> simp_all [Phase.Unproven]
    refine ⟨fun hp hun => ?_, hkeep, hphase⟩
    by_cases hl : l.phase.Unproven
    · exact hkeep hl
    · exact absurd hun (hphase hl hp)
  frame _ _ _ _ _ hij := absurd (Subsingleton.elim _ _) hij
  finish _ _ := trivial
  crash _ _ _ := trivial

/-- **The gate before the authenticated workload.** In runs in which no Deployment write of the
`Error` branch takes effect, every authenticated Deployment is applied on the evidence of an earlier
preflight and root Secret and after an accepted bootstrap request. The first such write in any run
breaks this. -/
theorem authenticated_workload_gated (srv : Server) (k : ObjectKey) :
    (∀ c, (clusterSystem srv k).Reachable (Fresh k) NoHealing c →
      Gated k c.record c.store.audit) ∧
    ∀ c m c', (clusterSystem srv k).Reachable (Fresh k) System.anyMove c →
      (clusterSystem srv k).Step c m c' → ¬ NoHealing c m → ¬ Gated k c'.record c'.store.audit := by
  refine ⟨fun c hc => ((gated_invariance srv k).sound hc).store.2.2.2.2, ?_⟩
  intro c m c' hc hstep hm hg
  cases hstep with
  | call hi hs =>
    next i l h q kk r s' =>
    have hsound := (unproven_invariance srv k).sound hc
    obtain ⟨hkey, hT⟩ := hsound.task hi
    cases q with
    | api q =>
      cases q with
      | applyDeployment x =>
        simp only [NoHealing, not_forall, not_not] at hm
        obtain ⟨herr, ha⟩ := hm
        obtain ⟨m, rfl, hd⟩ := (hsound.rest hi).1
        simp only [Cluster.Deploys, herr] at hd
        obtain ⟨rfl, -⟩ := hd
        have hx : (l.buildSurrealDeployment l.name false).metadata.key = k.workload := by
          rw [Cluster.buildSurrealDeployment_key, Cluster.workloadKey_eq, hkey]
        obtain ⟨-, hb⟩ := hg [] _ _ ha hx ⟨l, rfl⟩
        exact hT.1 (.inr (.inr herr)) hb
      | _ => exact hm trivial
    | _ => exact hm trivial
  | _ => exact hm trivial

/-- The gate at a run that has reached `Ready`. -/
theorem authenticated_workload_gated_ready : ∃ c : Run Unit,
    (clusterSystem ⟨false⟩ sampleCluster.key).Reachable (Fresh sampleCluster.key) NoHealing c ∧
      c.store.phase sampleCluster.key = some .ready ∧
      Gated sampleCluster.key c.record c.store.audit := by
  have hok : ∀ {x : Cluster} {c m}, x.phase ≠ .error →
      System.Played (respond ⟨false⟩ fun _ => false) () x x.reconcile.run c m → NoHealing c m := by
    intro x c m hx hm
    cases hm with
    | @call h q k hp =>
      cases q with
      | api q => cases q <;> first | trivial | exact fun he => absurd he hx
      | _ => trivial
    | _ => trivial
  obtain ⟨c, hc, -, hs⟩ := settles_readyStore hok fun _ _ => trivial
  refine ⟨c, hc, ?_, (authenticated_workload_gated ⟨false⟩ sampleCluster.key).1 c hc⟩
  rw [hs]
  decide

/-- The move does not edit the spec. -/
def SpecKept (k : ObjectKey) (c : Run Unit) : RunMove Unit → Prop
  | .env s' => (s'.clusters k).map Cluster.spec = (c.store.clusters k).map Cluster.spec
  | _ => True

/-- A Cluster without a storage backend. -/
def bareCluster : Cluster := { name := "db", ns := "prod", uid := "1", spec := {} }

def bareStore : Store :=
  { clusters := Function.update (fun _ => none) bareCluster.key (some bareCluster) }

/-- Two clean invocations on a Cluster without a backend: the preflight of the first stores `Error`,
and the second applies the authenticated workload. No bootstrap request was ever sent. -/
theorem bare_cluster_ungated : ∃ c : Run Unit,
    (clusterSystem ⟨false⟩ bareCluster.key).Reachable (Fresh bareCluster.key)
      (SpecKept bareCluster.key) c ∧ ¬ Gated bareCluster.key c.record c.store.audit := by
  have hok (c : Run Unit) (x : Cluster) (m : RunMove Unit)
      (hm : System.Played (respond ⟨false⟩ fun _ => false) () x x.reconcile.run c m) :
      SpecKept bareCluster.key c m := by
    cases hm <;> trivial
  have h₀ : Settles ⟨false⟩ bareCluster.key (SpecKept bareCluster.key) bareStore :=
    .fresh ⟨⟨bareCluster, rfl, rfl, rfl⟩, rfl⟩
  have h₁ := h₀.invoke (fun _ => false) (fun _ c m => hok c _ m) (by decide)
  obtain ⟨c, hc, -, hs⟩ := h₁.invoke (fun _ => false) (fun _ c m => hok c _ m) (by decide)
  refine ⟨c, hc, fun hg => ?_⟩
  have haudit : c.store.audit = [bareCluster.serviceCall] ++ bareCluster.deployCall false ::
      [bareCluster.phaseWrite .error] := by
    rw [hs]
    rfl
  obtain ⟨-, l, u, w, -, hmem⟩ := hg _ _ _ haudit rfl ⟨bareCluster, rfl⟩
  rcases List.mem_singleton.mp hmem with ⟨⟩

end SdbController
