import SdbController.Kubernetes.Deletion
import SdbController.Reconciler

/-!
# Cleaning up after a Cluster

`Cluster::cleanup` runs when a Cluster is being deleted. It deletes the Deployment, the Service and
the root Secret, and the TidbCluster with the policy that orphans what is below it, each only if it
finds itself among the owners. The finalizer that holds the Cluster goes when it returns `Ok`.

`Conduct` of a cleanup is one property of `delete_if_exists`, proved once: an object is deleted
right after it was seen to be owned, and an `Ok` means that it has been dealt with.

## Main results

* `Cluster.cleanup_meets` — every attempt conducts itself so
* `cleanup_complete` — whatever fails and however often it is restarted, the cleanup deletes what is
  owned and nothing else, and it says `Ok` if and only if nothing failed
-/

namespace SdbController

open Interaction Program

/-! ### The program -/

/-- An async function of the cleanup. -/
abbrev Cleaner (α : Type) : Type := ExceptT Error (Program CleanupReply) α

namespace Cleaner

def get (kind : Kind) (k : ObjectKey) : Cleaner (Except KubeError ObjectMeta) :=
  ExceptT.mk (Except.ok <$> perform (R := CleanupReply) (.get kind k))

def delete (kind : Kind) (k : ObjectKey) (policy : PropagationPolicy) :
    Cleaner (Except KubeError Unit) :=
  ExceptT.mk (Except.ok <$> perform (R := CleanupReply) (.delete kind k policy))

def publish (event : Event) : Cleaner (Except KubeError Unit) :=
  ExceptT.mk (Except.ok <$> perform (R := CleanupReply) (.publish event))

end Cleaner

namespace Cluster

variable (c : Cluster)

/-- `object_ref`. -/
def objectRef : ObjectReference := ⟨apiVersion, kind, c.name, c.ns, c.uid⟩

/-- Some owner has the uid of the Cluster, or else its kind, name and API version. -/
def owns (m : ObjectMeta) : Bool :=
  m.ownerReferences.any fun o =>
    o.uid == c.uid || (o.kind == kind && o.name == c.name && o.apiVersion == apiVersion)

def deleteIfExists (kind : Kind) (name : String) (propagationPolicy : Option PropagationPolicy) :
    Cleaner Unit := do
  match ← Cleaner.get kind ⟨c.ns, name⟩ with
  | .ok item =>
    if !c.owns item then pure ()
    else
      match ← Cleaner.delete kind ⟨c.ns, name⟩ (propagationPolicy.getD .background) with
      | .ok () => pure ()
      | .error e => if e.hasCode 404 then pure () else throw (.kubeError e)
  | .error e => if e.hasCode 404 then pure () else throw (.kubeError e)

/-- The event at the end of a cleanup. -/
def deleteRequested : Event :=
  { type := "Normal", reason := "DeleteRequested", note := some ("Delete `" ++ c.name ++ "`")
    action := "Deleting", regarding := c.objectRef }

/-- `Cluster::cleanup`. `none` is `Action::await_change`. -/
def cleanup : Cleaner (Option Action) := do
  c.deleteIfExists .deployment (c.name ++ "-surrealdb") none
  c.deleteIfExists .service (c.name ++ "-surrealdb") none
  c.deleteIfExists .secret (c.name ++ "-surrealdb-root") none
  c.deleteIfExists .tidbCluster c.name (some .orphan)
  match ← Cleaner.publish c.deleteRequested with
  | .ok () => pure none
  | .error e => throw (.kubeError e)

/-! ### What an attempt may do -/

/-- The object of each kind. -/
def cleanupKey : Kind → ObjectKey
  | .deployment => ⟨c.ns, c.name ++ "-surrealdb"⟩
  | .service => ⟨c.ns, c.name ++ "-surrealdb"⟩
  | .secret => ⟨c.ns, c.name ++ "-surrealdb-root"⟩
  | .tidbCluster => ⟨c.ns, c.name⟩

end Cluster

/-- What is below a TidbCluster is orphaned. -/
def Kind.policy : Kind → PropagationPolicy
  | .tidbCluster => .orphan
  | _ => .background

/-- A reply to a read of metadata. -/
def looked (kind : Kind) (k : ObjectKey) (r : Except KubeError ObjectMeta) :
    Σ q, CleanupReply q := ⟨.get kind k, r⟩

/-- A reply to a DELETE. -/
def deleted (kind : Kind) (k : ObjectKey) (policy : PropagationPolicy) (r : Except KubeError Unit) :
    Σ q, CleanupReply q := ⟨.delete kind k policy, r⟩

/-- The call failed with `e`. To a read or a DELETE, *not found* is an answer. -/
def FailedWith (e : KubeError) : (Σ q, CleanupReply q) → Prop
  | ⟨.get _ _, r⟩ => r = .error e ∧ e.hasCode 404 = false
  | ⟨.delete _ _ _, r⟩ => r = .error e ∧ e.hasCode 404 = false
  | ⟨.publish _, r⟩ => r = .error e

/-- Every call was answered. -/
def Clean (h : History CleanupReply) : Prop := ∀ x ∈ h, ∀ e, ¬ FailedWith e x

/-- The last call failed with `e`, the first to do so. -/
def BrokeOff (h : History CleanupReply) (e : KubeError) : Prop :=
  ∃ x older, h = x :: older ∧ FailedWith e x ∧ Clean older

theorem Clean.cons {h : History CleanupReply} (hh : Clean h) {x : Σ q, CleanupReply q}
    (hx : ∀ e, ¬ FailedWith e x) : Clean (x :: h) := by
  intro y hy
  rcases List.mem_cons.mp hy with rfl | hy
  · exact hx
  · exact hh y hy

theorem BrokeOff.not_clean {h : History CleanupReply} {e : KubeError} (hh : BrokeOff h e) :
    ¬ Clean h := by
  obtain ⟨x, older, rfl, hx, -⟩ := hh
  exact fun hclean => hclean x List.mem_cons_self e hx

namespace Cluster

variable (c : Cluster)

/-- The object of the kind has been dealt with: it is not there, not owned, or its DELETE was
accepted. -/
def Deals (kind : Kind) : (Σ q, CleanupReply q) → Prop
  | ⟨.get kind' _, r⟩ => kind' = kind ∧
      ((∃ e : KubeError, r = .error e ∧ e.hasCode 404) ∨ ∃ m, r = .ok m ∧ c.owns m = false)
  | ⟨.delete kind' _ _, r⟩ => kind' = kind ∧
      (r = .ok () ∨ ∃ e : KubeError, r = .error e ∧ e.hasCode 404)
  | ⟨.publish _, _⟩ => False

def DealtWith (h : History CleanupReply) (kind : Kind) : Prop := ∃ x ∈ h, c.Deals kind x

/-- When a call of a cleanup is issued. A DELETE comes right after the look that it rests on. -/
def CleanupConduct (h : History CleanupReply) : CleanupCall → Prop
  | .get kind k => k = c.cleanupKey kind
  | .delete kind k policy => k = c.cleanupKey kind ∧ policy = kind.policy ∧
      ∃ m h', h = looked kind k (.ok m) :: h' ∧ c.owns m
  | .publish event => event = c.deleteRequested ∧ ∀ kind, c.DealtWith h kind

/-- When a cleanup returns, and what. -/
def CleanupEnds (h : History CleanupReply) : Except Error (Option Action) → Prop
  | .ok a => a = none ∧ Clean h ∧ ∀ kind, c.DealtWith h kind
  | .error e => ∃ e', e = .kubeError e' ∧ BrokeOff h e'

variable {c}

theorem DealtWith.mono {h h' : History CleanupReply} {kind : Kind} (hh : c.DealtWith h kind)
    (hsuf : h <:+ h') : c.DealtWith h' kind := by
  obtain ⟨x, hx, hdeals⟩ := hh
  exact ⟨x, hsuf.subset hx, hdeals⟩

section Meets

variable {α : Type} {G : History CleanupReply → CleanupCall → Prop} {h : History CleanupReply}

theorem meets_get (kind : Kind) (k : ObjectKey)
    {Q : History CleanupReply → Except Error (Except KubeError ObjectMeta) → Prop} :
    Meets G Q h (Cleaner.get kind k).run ↔
      G h (.get kind k) ∧ ∀ r, Q (looked kind k r :: h) (.ok r) := Iff.rfl

theorem meets_delete (kind : Kind) (k : ObjectKey) (policy : PropagationPolicy)
    {Q : History CleanupReply → Except Error (Except KubeError Unit) → Prop} :
    Meets G Q h (Cleaner.delete kind k policy).run ↔
      G h (.delete kind k policy) ∧ ∀ r, Q (deleted kind k policy r :: h) (.ok r) := Iff.rfl

/-- An error other than *not found* ends the function, and *not found* does not. -/
theorem meets_unlessNotFound {Q : History CleanupReply → Except Error Unit → Prop} (e : KubeError)
    (hok : e.hasCode 404 → Q h (.ok ()))
    (herr : e.hasCode 404 = false → Q h (.error (.kubeError e))) :
    Meets G Q h
      (if e.hasCode 404 then pure () else throw (.kubeError e) : Cleaner Unit).run := by
  by_cases he : e.hasCode 404
  · rw [if_pos he]
    exact hok he
  · rw [if_neg he]
    exact herr (Bool.eq_false_of_not_eq_true he)

end Meets

theorem not_failedWith_of_notFound {e : KubeError} (he : e.hasCode 404) {e' : KubeError} :
    ¬ ((.error e : Except KubeError α) = .error e' ∧ e'.hasCode 404 = false) := by
  rintro ⟨heq, hcode⟩
  cases heq
  rw [he] at hcode
  cases hcode

/-- `delete_if_exists` conducts itself, and what comes next may rely on it. -/
theorem deleteIfExists_meets {β : Type} {f : Unit → Cleaner β} {h : History CleanupReply}
    {Q : History CleanupReply → Except Error β → Prop} (kind : Kind) {name : String}
    {policy : Option PropagationPolicy} (hkey : ⟨c.ns, name⟩ = c.cleanupKey kind)
    (hpolicy : policy.getD .background = kind.policy) (hh : Clean h)
    (hbroke : ∀ h' e, BrokeOff h' e → Q h' (.error (.kubeError e)))
    (hnext : ∀ h', Clean h' → h <:+ h' → c.DealtWith h' kind →
      Meets c.CleanupConduct Q h' (f ()).run) :
    Meets c.CleanupConduct Q h (c.deleteIfExists kind name policy >>= f).run := by
  rw [meets_except_bind, deleteIfExists, meets_except_bind, hkey, hpolicy, meets_get]
  refine ⟨rfl, fun look => ?_⟩
  cases look with
  | error e =>
    refine meets_unlessNotFound e (fun he => ?_) fun he => ?_
    · exact hnext _ (hh.cons fun _ => not_failedWith_of_notFound he) (List.suffix_cons _ _)
        ⟨_, List.mem_cons_self, rfl, .inl ⟨e, rfl, he⟩⟩
    · exact hbroke _ e ⟨_, h, rfl, ⟨rfl, he⟩, hh⟩
  | ok m =>
    have hlook : Clean (looked kind (c.cleanupKey kind) (.ok m) :: h) :=
      hh.cons fun _ hf => by cases hf.1
    cases hm : c.owns m with
    | false =>
      simp only [hm, Bool.not_false, if_true]
      exact hnext _ hlook (List.suffix_cons _ _) ⟨_, List.mem_cons_self, rfl, .inr ⟨m, rfl, hm⟩⟩
    | true =>
      simp only [hm, Bool.not_true, Bool.false_eq_true, if_false]
      rw [meets_except_bind, meets_delete]
      refine ⟨⟨rfl, rfl, m, h, rfl, hm⟩, fun r => ?_⟩
      have hsuf : h <:+ deleted kind (c.cleanupKey kind) kind.policy r ::
          looked kind (c.cleanupKey kind) (.ok m) :: h :=
        (List.suffix_cons _ _).trans (List.suffix_cons _ _)
      cases r with
      | ok u =>
        exact hnext _ (hlook.cons fun _ hf => by cases hf.1) hsuf
          ⟨_, List.mem_cons_self, rfl, .inl rfl⟩
      | error e =>
        refine meets_unlessNotFound e (fun he => ?_) fun he => ?_
        · exact hnext _ (hlook.cons fun _ => not_failedWith_of_notFound he) hsuf
            ⟨_, List.mem_cons_self, rfl, .inr ⟨e, rfl, he⟩⟩
        · exact hbroke _ e ⟨_, _, rfl, ⟨rfl, he⟩, hlook⟩

/-- **Every attempt conducts itself so.** -/
theorem cleanup_meets (c : Cluster) : Meets c.CleanupConduct c.CleanupEnds [] c.cleanup.run := by
  have hbroke (h : History CleanupReply) (e : KubeError) (he : BrokeOff h e) :
      c.CleanupEnds h (.error (.kubeError e)) := ⟨e, rfl, he⟩
  rw [cleanup]
  refine deleteIfExists_meets .deployment rfl rfl (fun _ hx => absurd hx List.not_mem_nil)
    hbroke fun h₁ hclean₁ _ hdeploy => ?_
  refine deleteIfExists_meets .service rfl rfl hclean₁ hbroke
    fun h₂ hclean₂ hsuf₂ hservice => ?_
  refine deleteIfExists_meets .secret rfl rfl hclean₂ hbroke
    fun h₃ hclean₃ hsuf₃ hsecret => ?_
  refine deleteIfExists_meets .tidbCluster rfl rfl hclean₃ hbroke
    fun h₄ hclean₄ hsuf₄ htidb => ?_
  have hall : ∀ kind, c.DealtWith h₄ kind := by
    intro kind
    cases kind with
    | deployment => exact hdeploy.mono ((hsuf₂.trans hsuf₃).trans hsuf₄)
    | service => exact hservice.mono (hsuf₃.trans hsuf₄)
    | secret => exact hsecret.mono hsuf₄
    | tidbCluster => exact htidb
  rw [meets_except_bind]
  refine ⟨⟨rfl, hall⟩, fun r => ?_⟩
  cases r with
  | ok u =>
    have hclean : Clean (⟨.publish c.deleteRequested, .ok u⟩ :: h₄) :=
      hclean₄.cons fun _ hf => by cases hf
    exact ⟨rfl, hclean, fun kind => (hall kind).mono (List.suffix_cons _ _)⟩
  | error e => exact ⟨e, rfl, _, h₄, rfl, rfl, hclean₄⟩

/-! ### Many attempts -/

/-- A DELETE was accepted for the object. -/
def Gone (s : ApiState) (kind : Kind) (k : ObjectKey) : Prop :=
  ∃ d ∈ s.accepted, d.kind = kind ∧ d.key = k

/-- Nobody else changes the four objects. Those whose DELETE was accepted may disappear. -/
def LeavesAlone (c : Cluster) (s s' : ApiState) : Prop :=
  s'.accepted = s.accepted ∧
    ∀ kind, s'.store.metadata (c.cleanupKey kind) kind = s.store.metadata (c.cleanupKey kind) kind ∨
      (s'.store.metadata (c.cleanupKey kind) kind = none ∧ Gone s kind (c.cleanupKey kind))

/-- Attempts to clean up after `c`, from any snapshots of it. -/
def cleanupSystem (c : Cluster) :
    System Cluster CleanupReply (Except Error (Option Action)) ApiState where
  start _ l p := (∃ spec status, l = { c with spec := spec, status := status }) ∧ p = l.cleanup.run
  serve := CleanupServes
  env := c.LeavesAlone

/-- What the attempts make of the store they began with: only owned objects were deleted, each with
its policy, and everything else is as it was. -/
structure Kept (c : Cluster) (s₀ : Store) (s : ApiState) : Prop where
  owned : ∀ d ∈ s.accepted, d.key = c.cleanupKey d.kind ∧ d.policy = d.kind.policy ∧
    s₀.metadata d.key d.kind = some d.object ∧ c.owns d.object
  same : ∀ kind, s.store.metadata (c.cleanupKey kind) kind = s₀.metadata (c.cleanupKey kind) kind ∨
    (s.store.metadata (c.cleanupKey kind) kind = none ∧ Gone s kind (c.cleanupKey kind))

/-- There was nothing to delete, or it has been deleted. -/
def Settled (c : Cluster) (s₀ : Store) (s : ApiState) (kind : Kind) : Prop :=
  (∀ m, s₀.metadata (c.cleanupKey kind) kind = some m → c.owns m = false) ∨
    Gone s kind (c.cleanupKey kind)

/-- What an attempt knows about the store it began with. -/
structure Knows (c : Cluster) (s₀ : Store) (h : History CleanupReply) (s : ApiState) : Prop where
  settled : ∀ kind, c.DealtWith h kind → c.Settled s₀ s kind
  seen : ∀ {kind k m h'}, h = looked kind k (.ok m) :: h' → s₀.metadata k kind = some m

section Attempts

variable {s₀ : Store} {s s' : ApiState} {h : History CleanupReply} {kind : Kind}

/-- DELETEs stay accepted. -/
def Later (s s' : ApiState) : Prop := ∀ d ∈ s.accepted, d ∈ s'.accepted

theorem Gone.later {k : ObjectKey} (hg : Gone s kind k) (hs : Later s s') : Gone s' kind k := by
  obtain ⟨d, hd, hkind, hk⟩ := hg
  exact ⟨d, hs d hd, hkind, hk⟩

theorem Knows.later (hh : c.Knows s₀ h s) (hs : Later s s') : c.Knows s₀ h s' :=
  ⟨fun kind hdealt => (hh.settled kind hdealt).imp_right fun hg => hg.later hs, hh.seen⟩

theorem Kept.seen (hs : c.Kept s₀ s) {m : ObjectMeta}
    (hm : s.store.metadata (c.cleanupKey kind) kind = some m) :
    s₀.metadata (c.cleanupKey kind) kind = some m := by
  rcases hs.same kind with heq | ⟨hnone, -⟩
  · rw [← heq, hm]
  · rw [hnone] at hm
    cases hm

theorem Kept.settled_of_absent (hs : c.Kept s₀ s)
    (hm : s.store.metadata (c.cleanupKey kind) kind = none) : c.Settled s₀ s kind := by
  rcases hs.same kind with heq | ⟨-, hgone⟩
  · refine .inl fun m hm' => ?_
    rw [← heq, hm] at hm'
    cases hm'
  · exact .inr hgone

/-- Deleting an owned object. -/
theorem Kept.deletes (hs : c.Kept s₀ s) {m : ObjectMeta}
    (hm : s₀.metadata (c.cleanupKey kind) kind = some m) (howns : c.owns m)
    (hdel : Deletes kind (c.cleanupKey kind) kind.policy s s') :
    c.Kept s₀ s' ∧ Later s s' ∧ Gone s' kind (c.cleanupKey kind) := by
  obtain ⟨m', hm', haccepted, hstore⟩ := hdel
  have hlater : Later s s' := fun d hd => by
    rw [haccepted]
    exact List.mem_cons_of_mem _ hd
  have hgone : Gone s' kind (c.cleanupKey kind) := by
    refine ⟨⟨kind, c.cleanupKey kind, kind.policy, m'⟩, ?_, rfl, rfl⟩
    rw [haccepted]
    exact List.mem_cons_self
  refine ⟨⟨fun d hd => ?_, fun kind' => ?_⟩, hlater, hgone⟩
  · rw [haccepted] at hd
    rcases List.mem_cons.mp hd with rfl | hd
    · have hseen := hs.seen hm'
      rw [hm] at hseen
      obtain rfl := Option.some.inj hseen
      exact ⟨rfl, rfl, hm, howns⟩
    · exact hs.owned d hd
  · rcases hstore with hstore | hstore <;> rw [hstore]
    · exact (hs.same kind').imp_right fun hgone' => ⟨hgone'.1, hgone'.2.later hlater⟩
    · by_cases hkind : kind' = kind
      · subst hkind
        exact .inr ⟨Store.metadata_remove_self _ _ _, hgone⟩
      · rw [Store.metadata_remove_of_ne _ (.inl hkind)]
        exact (hs.same kind').imp_right fun hgone' => ⟨hgone'.1, hgone'.2.later hlater⟩

/-- A call keeps what is known, if its own reply is understood. -/
theorem Knows.cons (hh : c.Knows s₀ h s) (hs : Later s s') {x : Σ q, CleanupReply q}
    (hdeals : ∀ kind, c.Deals kind x → c.Settled s₀ s' kind)
    (hseen : ∀ {kind k m}, x = looked kind k (.ok m) → s₀.metadata k kind = some m) :
    c.Knows s₀ (x :: h) s' := by
  refine ⟨fun kind hdealt => ?_, fun heq => hseen (List.cons.inj heq).1⟩
  obtain ⟨y, hy, hdeals'⟩ := hdealt
  rcases List.mem_cons.mp hy with rfl | hy
  · exact hdeals kind hdeals'
  · exact (hh.later hs).settled kind ⟨y, hy, hdeals'⟩

/-- A look that deals with an object finds it gone, or somebody else's. -/
theorem Kept.settled_of_look {kind : Kind} {r : CleanupReply (.get kind (c.cleanupKey kind))}
    (hs : c.Kept s₀ s) (hserve : CleanupServes (.get kind (c.cleanupKey kind)) s r s')
    (hdeals : c.Deals kind ⟨.get kind (c.cleanupKey kind), r⟩) : c.Settled s₀ s kind := by
  obtain ⟨-, hr⟩ := hserve
  obtain ⟨-, ⟨e, rfl, he⟩ | ⟨m, rfl, hm⟩⟩ := hdeals
  · rcases hr with ⟨m, -, heq⟩ | ⟨hnone, -⟩ | ⟨e', he', heq⟩
    · cases heq
    · exact hs.settled_of_absent hnone
    · cases heq
      rw [he] at he'
      cases he'
  · rcases hr with ⟨m', hm', heq⟩ | ⟨-, text, heq⟩ | ⟨e', -, heq⟩
    · cases heq
      refine .inl fun m₀ hm₀ => ?_
      rw [hs.seen hm'] at hm₀
      cases hm₀
      exact hm
    · cases heq
    · cases heq

/-- **One call** keeps the invariant. -/
theorem Kept.call {q : CleanupCall} {r : CleanupReply q} (hs : c.Kept s₀ s) (hh : c.Knows s₀ h s)
    (hq : c.CleanupConduct h q) (hserve : CleanupServes q s r s') :
    c.Kept s₀ s' ∧ Later s s' ∧ c.Knows s₀ (⟨q, r⟩ :: h) s' := by
  have hrefl : Later s s := fun _ hd => hd
  cases q with
  | get kind k =>
    obtain rfl : k = c.cleanupKey kind := hq
    obtain rfl : s' = s := hserve.1
    refine ⟨hs, hrefl, hh.cons hrefl (fun kind' hdeals => ?_) fun heq => ?_⟩
    · obtain rfl : kind = kind' := hdeals.1
      exact hs.settled_of_look hserve hdeals
    · obtain ⟨-, hr⟩ := hserve
      rcases hr with ⟨m', hm', rfl⟩ | ⟨-, text, rfl⟩ | ⟨e', -, rfl⟩
      · cases heq
        exact hs.seen hm'
      · cases heq
      · cases heq
  | delete kind k policy =>
    obtain ⟨rfl, rfl, m, h', rfl, howns⟩ := hq
    have hm := hh.seen rfl
    rcases hserve with ⟨rfl, hdel⟩ | ⟨hnone, ⟨text, rfl⟩, rfl⟩ | ⟨e, he, rfl, rfl | hdel⟩
    · obtain ⟨hs', hlater, hgone⟩ := hs.deletes hm howns hdel
      refine ⟨hs', hlater, hh.cons hlater (fun kind' hdeals => ?_) fun heq => by cases heq⟩
      obtain ⟨rfl, -⟩ := hdeals
      exact .inr hgone
    · refine ⟨hs, hrefl, hh.cons hrefl (fun kind' hdeals => ?_) fun heq => by cases heq⟩
      obtain ⟨rfl, -⟩ := hdeals
      exact hs.settled_of_absent hnone
    · refine ⟨hs, hrefl, hh.cons hrefl (fun kind' hdeals => ?_) fun heq => by cases heq⟩
      obtain ⟨-, heq | ⟨e', heq, he'⟩⟩ := hdeals
      · cases heq
      · cases heq
        rw [he] at he'
        cases he'
    · obtain ⟨hs', hlater, hgone⟩ := hs.deletes hm howns hdel
      refine ⟨hs', hlater, hh.cons hlater (fun kind' hdeals => ?_) fun heq => by cases heq⟩
      obtain ⟨rfl, -⟩ := hdeals
      exact .inr hgone
  | publish event =>
    obtain rfl : s' = s := hserve
    exact ⟨hs, hrefl, hh.cons hrefl (fun _ hdeals => hdeals.elim) fun heq => by cases heq⟩

/-- The assertions about attempts that began with `s₀`. -/
def cleanupOutline (c : Cluster) (s₀ : Store) :
    Outline Cluster CleanupReply (Except Error (Option Action)) ApiState where
  store s _ := c.Kept s₀ s
  task l h s := (∃ spec status, l = { c with spec := spec, status := status }) ∧ c.Knows s₀ h s
  guard l := l.CleanupConduct
  result l := l.CleanupEnds

theorem cleanup_preserves {ι : Type} [DecidableEq ι] (c : Cluster) (s₀ : Store) :
    System.Preserves (ι := ι) c.cleanupSystem (· = ⟨s₀, []⟩) System.anyMove
      (c.cleanupOutline s₀) where
  init := by
    rintro s rfl
    exact ⟨⟨fun _ hd => absurd hd List.not_mem_nil, fun _ => .inl rfl⟩, trivial⟩
  env := by
    rintro cfg s' hcfg - ⟨haccepted, hsame⟩
    have hlater : Later cfg.store s' := fun d hd => haccepted ▸ hd
    refine ⟨⟨fun d hd => hcfg.store.owned d (haccepted ▸ hd), fun kind => ?_⟩,
      fun i l h p hi => ⟨(hcfg.task hi).1, (hcfg.task hi).2.later hlater⟩, fun _ _ => trivial⟩
    rcases hsame kind with heq | ⟨hnone, hgone⟩
    · rw [heq]
      exact (hcfg.store.same kind).imp_right fun hgone => ⟨hgone.1, hgone.2.later hlater⟩
    · exact .inr ⟨hnone, hgone.later hlater⟩
  start := by
    rintro cfg i l p hcfg - - ⟨hl, rfl⟩
    refine ⟨hcfg.store, ⟨hl, fun kind hdealt => ?_, fun heq => by cases heq⟩, l.cleanup_meets⟩
    obtain ⟨x, hx, -⟩ := hdealt
    exact absurd hx List.not_mem_nil
  call := by
    rintro cfg i l h q k r s' hcfg hi hq - hserve
    obtain ⟨⟨spec, status, rfl⟩, hknows⟩ := hcfg.task hi
    obtain ⟨hs', -, hknows'⟩ := hcfg.store.call hknows hq hserve
    exact ⟨hs', ⟨spec, status, rfl⟩, hknows'⟩
  frame := by
    rintro cfg i j l h q k r s' hcfg hi hq - hserve -
    obtain ⟨⟨spec, status, rfl⟩, hknows⟩ := hcfg.task hi
    obtain ⟨-, hlater, -⟩ := hcfg.store.call hknows hq hserve
    exact ⟨fun l' h' p' hj => ⟨(hcfg.task hj).1, (hcfg.task hj).2.later hlater⟩, fun _ => trivial⟩
  finish := fun _ _ _ _ => trivial
  crash := fun _ _ _ => trivial

end Attempts

theorem not_failedWith_answerCleanup (q : CleanupCall) (s : ApiState) (e : KubeError) :
    ¬ FailedWith e ⟨q, (answerCleanup q s).1⟩ := by
  intro hf
  cases q with
  | get kind k =>
    cases hm : s.store.metadata k kind <;> simp only [answerCleanup, hm] at hf
    · exact not_failedWith_of_notFound rfl hf
    · cases hf.1
  | delete kind k policy =>
    cases hm : s.store.metadata k kind <;> simp only [answerCleanup, hm] at hf
    · exact not_failedWith_of_notFound rfl hf
    · cases hf.1
  | publish event => cases hf

/-- An attempt against an API server that works says `Ok`. -/
theorem cleanup_eval (c : Cluster) (s : ApiState) :
    (c.cleanup.run.eval answerCleanup s).1 = .ok none := by
  obtain ⟨h, hclean, hends⟩ : ∃ h, Clean h ∧
      c.CleanupEnds h (c.cleanup.run.eval answerCleanup s).1 := c.cleanup_meets.eval
    (fun q s _ hh => hh.cons (not_failedWith_answerCleanup q s))
    (fun _ hx => absurd hx List.not_mem_nil) s
  cases hr : (c.cleanup.run.eval answerCleanup s).1 with
  | ok a =>
    rw [hr] at hends
    rw [hends.1]
  | error e =>
    rw [hr] at hends
    obtain ⟨e', -, hbroke⟩ := hends
    exact absurd hclean hbroke.not_clean

end Cluster

/-- **The cleanup is ownership-safe, complete and restartable.** From any store, after any sequence
of attempts, failures and crashes: every object that was deleted was owned, and what is not owned is
still there; an attempt that says `Ok` has had a DELETE accepted for everything that is owned, with
the policy of its kind; it says `Ok` if and only if none of its calls failed; and another attempt,
if every call is answered, says `Ok`. -/
theorem cleanup_complete {ι : Type} [DecidableEq ι] (c : Cluster) (s₀ : Store)
    {cfg : Config ι Cluster CleanupReply (Except Error (Option Action)) ApiState}
    (hcfg : c.cleanupSystem.Reachable (· = ⟨s₀, []⟩) System.anyMove cfg) :
    (∀ d ∈ cfg.store.accepted, c.owns d.object) ∧
    (∀ kind m, s₀.metadata (c.cleanupKey kind) kind = some m → c.owns m = false →
      cfg.store.store.metadata (c.cleanupKey kind) kind = some m) ∧
    (∀ i l h r, cfg.running i = some ⟨l, h, .ret r⟩ →
      ((∃ a, r = .ok a) → ∀ kind m, s₀.metadata (c.cleanupKey kind) kind = some m → c.owns m →
        ∃ d ∈ cfg.store.accepted, d.kind = kind ∧ d.key = c.cleanupKey kind ∧
          d.policy = kind.policy) ∧
      ((∃ a, r = .ok a) ↔ ∀ x ∈ h, ∀ e, ¬ FailedWith e x)) ∧
    (c.cleanup.run.eval answerCleanup cfg.store).1 = .ok none := by
  have hsound := (c.cleanup_preserves (ι := ι) s₀).sound hcfg
  have hkept : c.Kept s₀ cfg.store := hsound.store
  refine ⟨fun d hd => (hkept.owned d hd).2.2.2, fun kind m hm hforeign => ?_, fun i l h r hi => ?_,
    c.cleanup_eval _⟩
  · rcases hkept.same kind with heq | ⟨-, d, hd, rfl, hkey⟩
    · rw [heq, hm]
    · obtain ⟨-, -, hobject, howns⟩ := hkept.owned d hd
      rw [hkey, hm] at hobject
      obtain rfl := Option.some.inj hobject
      rw [hforeign] at howns
      cases howns
  · obtain ⟨⟨spec, status, rfl⟩, hknows⟩ := hsound.task hi
    have hends : Cluster.CleanupEnds _ h r := hsound.rest hi
    constructor
    · rintro ⟨a, rfl⟩ kind m hm howns
      rcases hknows.settled kind (hends.2.2 kind) with hforeign | ⟨d, hd, rfl, hkey⟩
      · rw [hforeign m hm] at howns
        cases howns
      · exact ⟨d, hd, rfl, hkey, (hkept.owned d hd).2.1⟩
    · cases r with
      | ok a => exact iff_of_true ⟨a, rfl⟩ hends.2.1
      | error e =>
        obtain ⟨e', -, hbroke⟩ := hends
        refine iff_of_false ?_ hbroke.not_clean
        rintro ⟨a, ha⟩
        cases ha

/-- A Cluster that is being deleted. -/
def retiredCluster : Cluster := { name := "db", ns := "prod", uid := "1", spec := {} }

/-- Its Service, and a Secret of somebody else under the name of its root Secret. -/
def retiredStore : Store :=
  { services := Function.update (fun _ => none) (retiredCluster.cleanupKey .service)
      (some { metadata := { name := "db-surrealdb", ns := "prod"
                            ownerReferences := [retiredCluster.ownerRef] }
              selector := [], ports := [], type := "ClusterIP" })
    secrets := Function.update (fun _ => none) (retiredCluster.cleanupKey .secret)
      (some { metadata := { name := "db-surrealdb-root", ns := "prod" }, type := "Opaque" }) }

/-- One attempt after which the Service is gone and the Secret is not. -/
theorem cleanup_complete_retired :
    ∃ cfg : Config Unit Cluster CleanupReply (Except Error (Option Action)) ApiState,
      retiredCluster.cleanupSystem.Reachable (· = ⟨retiredStore, []⟩) System.anyMove cfg ∧
      cfg.store.store.metadata (retiredCluster.cleanupKey .service) .service = none ∧
      cfg.store.store.metadata (retiredCluster.cleanupKey .secret) .secret =
        some { name := "db-surrealdb-root", ns := "prod" } := by
  have hinit : retiredCluster.cleanupSystem.Reachable (· = ⟨retiredStore, []⟩) System.anyMove
      (⟨⟨retiredStore, []⟩, fun _ => none, []⟩ :
        Config Unit Cluster CleanupReply (Except Error (Option Action)) ApiState) := .init rfl
  have hstart : retiredCluster.cleanupSystem.start ⟨retiredStore, []⟩ retiredCluster
      retiredCluster.cleanup.run := ⟨⟨_, _, rfl⟩, rfl⟩
  obtain ⟨cfg, hcfg, hstore, -⟩ :=
    hinit.play serves_answerCleanup (fun _ _ _ => trivial) (i := ()) rfl hstart
  refine ⟨cfg, hcfg, ?_, (cleanup_complete retiredCluster retiredStore hcfg).2.1 .secret _ rfl rfl⟩
  rw [hstore]
  rfl

end SdbController
