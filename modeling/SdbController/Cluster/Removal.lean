import SdbController.Cluster.Cleanup

/-!
# Deleting by name what was checked before

`delete_if_exists` looks at an object and deletes, by its name, whatever has that name a moment
later. The DELETE carries no precondition, neither the uid nor the resource version of the object
that was looked at. Between the two calls other clients may do anything to the object of that name.

## Main results

* `removes_owned` — what is deleted is owned, if nobody else leaves an object of somebody else's
  under the name between a look and its DELETE
* `removes_foreign` — otherwise it need not be
-/

namespace SdbController

open Interaction Program

/-- What `delete_if_exists` is called for. -/
structure Removal where
  kind : Kind
  name : String
  policy : Option PropagationPolicy
deriving DecidableEq, Repr

namespace Cluster

variable (c : Cluster)

def removal (l : Removal) : Cleaner Unit := c.deleteIfExists l.kind l.name l.policy

/-- Calls of `delete_if_exists` on behalf of `c`, and other clients that do anything. -/
def removalSystem : System Removal CleanupReply (Except Error Unit) ApiState where
  start _ l p := p = (c.removal l).run
  serve := CleanupServes
  env s s' := s'.accepted = s.accepted

/-- The object has been looked at and found to be owned. Its DELETE is next. -/
def Checked (l : Removal) (h : History CleanupReply) : Prop :=
  ∃ m, h = [looked l.kind ⟨c.ns, l.name⟩ (.ok m)] ∧ c.owns m

/-- Under the name there is nothing, or something owned. -/
def NoneForeign (l : Removal) (s : ApiState) : Prop :=
  ∀ m, s.store.metadata ⟨c.ns, l.name⟩ l.kind = some m → c.owns m

/-- Nobody else leaves a foreign object under a name between the look and the DELETE. -/
def Unraced {ι : Type} (cfg : Config ι Removal CleanupReply (Except Error Unit) ApiState) :
    Move ι Removal CleanupReply ApiState → Prop
  | .env s' => ∀ i l h p, cfg.running i = some ⟨l, h, p⟩ → c.Checked l h → c.NoneForeign l s'
  | _ => True

/-- When `delete_if_exists` issues a call: the DELETE only for what has been checked. -/
def RemovalConduct (l : Removal) (h : History CleanupReply) : CleanupCall → Prop
  | .get kind k => h = [] ∧ kind = l.kind ∧ k = ⟨c.ns, l.name⟩
  | .delete kind k _ => kind = l.kind ∧ k = ⟨c.ns, l.name⟩ ∧ c.Checked l h
  | .publish _ => False

theorem removal_meets (l : Removal) :
    Meets (c.RemovalConduct l) (fun _ _ => True) [] (c.removal l).run := by
  rw [removal, deleteIfExists, meets_except_bind, meets_get]
  refine ⟨⟨rfl, rfl, rfl⟩, fun look => ?_⟩
  cases look with
  | error e => exact meets_unlessNotFound e (fun _ => trivial) fun _ => trivial
  | ok m =>
    cases hm : c.owns m with
    | false =>
      simp only [hm, Bool.not_false, if_true]
      trivial
    | true =>
      simp only [hm, Bool.not_true, Bool.false_eq_true, if_false]
      rw [meets_except_bind, meets_delete]
      refine ⟨⟨rfl, rfl, m, rfl, hm⟩, fun r => ?_⟩
      cases r with
      | ok u => trivial
      | error e => exact meets_unlessNotFound e (fun _ => trivial) fun _ => trivial

/-- The assertions about an unraced run. -/
def removalOutline : Outline Removal CleanupReply (Except Error Unit) ApiState where
  store s _ := ∀ d ∈ s.accepted, c.owns d.object
  task l h s := c.Checked l h → c.NoneForeign l s
  guard l := c.RemovalConduct l

variable {c} {l : Removal} {s s' : ApiState}

/-- A call leaves what is under a name, or removes it. -/
theorem metadata_of_serves {q : CleanupCall} {r : CleanupReply q} (hserve : CleanupServes q s r s')
    (k : ObjectKey) (kind : Kind) :
    s'.store.metadata k kind = s.store.metadata k kind ∨ s'.store.metadata k kind = none := by
  have hdeletes {kind' : Kind} {k' : ObjectKey} {policy : PropagationPolicy}
      (hdel : Deletes kind' k' policy s s') : s'.store.metadata k kind = s.store.metadata k kind ∨
        s'.store.metadata k kind = none := by
    obtain ⟨-, -, -, hstore | hstore⟩ := hdel <;> rw [hstore]
    · exact .inl rfl
    · by_cases hsame : kind = kind' ∧ k = k'
      · obtain ⟨rfl, rfl⟩ := hsame
        exact .inr (Store.metadata_remove_self _ _ _)
      · exact .inl (Store.metadata_remove_of_ne _ (not_and_or.mp hsame))
  cases q with
  | get kind' k' =>
    obtain ⟨rfl, -⟩ := hserve
    exact .inl rfl
  | delete kind' k' policy =>
    rcases hserve with ⟨-, hdel⟩ | ⟨-, -, rfl⟩ | ⟨e, -, -, rfl | hdel⟩
    · exact hdeletes hdel
    · exact .inl rfl
    · exact .inl rfl
    · exact hdeletes hdel
  | publish event =>
    obtain rfl : s' = s := hserve
    exact .inl rfl

/-- No call brings a foreign object. -/
theorem NoneForeign.serves (hs : c.NoneForeign l s) {q : CleanupCall} {r : CleanupReply q}
    (hserve : CleanupServes q s r s') : c.NoneForeign l s' := by
  intro m hm
  rcases metadata_of_serves hserve ⟨c.ns, l.name⟩ l.kind with heq | hnone
  · exact hs m (heq ▸ hm)
  · rw [hnone] at hm
    cases hm

/-- **One call** deletes nothing foreign, and a look that finds an owned object tells the truth. -/
theorem removal_call {h : History CleanupReply} {q : CleanupCall} {r : CleanupReply q}
    (hs : ∀ d ∈ s.accepted, c.owns d.object) (hh : c.Checked l h → c.NoneForeign l s)
    (hq : c.RemovalConduct l h q) (hserve : CleanupServes q s r s') :
    (∀ d ∈ s'.accepted, c.owns d.object) ∧ (c.Checked l (⟨q, r⟩ :: h) → c.NoneForeign l s') := by
  cases q with
  | get kind k =>
    obtain ⟨rfl, rfl, rfl⟩ := hq
    obtain ⟨rfl, hr⟩ := hserve
    refine ⟨hs, ?_⟩
    rintro ⟨m, heq, howns⟩ m' hm'
    cases heq
    rcases hr with ⟨m'', hm'', heq⟩ | ⟨-, text, heq⟩ | ⟨e, -, heq⟩
    · cases heq
      rw [hm'] at hm''
      cases hm''
      exact howns
    · cases heq
    · cases heq
  | delete kind k policy =>
    obtain ⟨rfl, rfl, hchecked⟩ := hq
    have hnone : c.NoneForeign l s := hh hchecked
    have hdeletes (hdel : Deletes l.kind ⟨c.ns, l.name⟩ policy s s') :
        ∀ d ∈ s'.accepted, c.owns d.object := by
      obtain ⟨m, hm, haccepted, -⟩ := hdel
      intro d hd
      rw [haccepted] at hd
      rcases List.mem_cons.mp hd with rfl | hd
      · exact hnone m hm
      · exact hs d hd
    refine ⟨?_, fun _ => hnone.serves hserve⟩
    rcases hserve with ⟨-, hdel⟩ | ⟨-, -, rfl⟩ | ⟨e, -, -, rfl | hdel⟩
    · exact hdeletes hdel
    · exact hs
    · exact hs
    · exact hdeletes hdel
  | publish event => exact hq.elim

theorem removal_preserves {ι : Type} [DecidableEq ι] (c : Cluster) :
    c.removalSystem.Preserves (fun s => s.accepted = []) (c.Unraced (ι := ι))
      c.removalOutline where
  init hs := ⟨fun d hd => absurd (hs ▸ hd) List.not_mem_nil, trivial⟩
  env := by
    intro cfg s' hcfg hunraced haccepted
    refine ⟨fun d hd => hcfg.store d ?_, fun i l h p hi => hunraced i l h p hi, fun _ _ => trivial⟩
    exact (show s'.accepted = cfg.store.accepted from haccepted) ▸ hd
  start := by
    rintro cfg i l p hcfg - - rfl
    refine ⟨hcfg.store, ?_, c.removal_meets l⟩
    rintro ⟨m, heq, -⟩
    cases heq
  call hcfg hi hq _ hserve := removal_call hcfg.store (hcfg.task hi) hq hserve
  frame hcfg _ _ _ hserve _ :=
    ⟨fun _ _ _ hj hchecked => (hcfg.task hj hchecked).serves hserve, fun _ => trivial⟩
  finish _ _ _ _ := trivial
  crash _ _ _ := trivial

end Cluster

/-- **When deletion removes only what was checked**: in every run in which nobody else leaves a
foreign object under a name between a look that found an owned one and the DELETE that follows,
whatever is deleted is owned when it is deleted. -/
theorem removes_owned {ι : Type} [DecidableEq ι] (c : Cluster)
    {cfg : Config ι Removal CleanupReply (Except Error Unit) ApiState}
    (hcfg : c.removalSystem.Reachable (fun s => s.accepted = []) c.Unraced cfg) :
    ∀ d ∈ cfg.store.accepted, c.owns d.object :=
  ((c.removal_preserves (ι := ι)).sound hcfg).store

/-- The call of `delete_if_exists` for the Service of `retiredCluster`. -/
def serviceRemoval : Removal := ⟨.service, "db-surrealdb", none⟩

/-- `retiredStore` after its Service was deleted and created again by somebody else. -/
def recreatedStore : Store :=
  { retiredStore with
    services := Function.update (fun _ => none) (retiredCluster.cleanupKey .service)
      (some { metadata := { name := "db-surrealdb", ns := "prod" }
              selector := [], ports := [], type := "ClusterIP" }) }

theorem removes_owned_retired :
    ∃ cfg : Config Unit Removal CleanupReply (Except Error Unit) ApiState,
      cfg.store.accepted.length = 1 ∧ ∀ d ∈ cfg.store.accepted, retiredCluster.owns d.object := by
  have hinit : retiredCluster.removalSystem.Reachable (fun s => s.accepted = [])
      retiredCluster.Unraced (⟨⟨retiredStore, []⟩, fun _ => none, []⟩ :
        Config Unit Removal CleanupReply (Except Error Unit) ApiState) := .init rfl
  obtain ⟨cfg, hcfg, hstore, -⟩ := hinit.play serves_answerCleanup
    (fun _ _ hm => by cases hm <;> trivial) (i := ()) (l := serviceRemoval) rfl rfl
  refine ⟨cfg, ?_, removes_owned retiredCluster hcfg⟩
  rw [hstore]
  rfl

/-- A run in which a Service is deleted that somebody else has put in the place of the one that was
looked at. -/
theorem removes_foreign :
    ¬ ∀ cfg : Config Unit Removal CleanupReply (Except Error Unit) ApiState,
      retiredCluster.removalSystem.Reachable (fun s => s.accepted = []) System.anyMove cfg →
        ∀ d ∈ cfg.store.accepted, retiredCluster.owns d.object := by
  intro hall
  have h₀ : retiredCluster.removalSystem.Reachable (fun s => s.accepted = []) System.anyMove
      (⟨⟨retiredStore, []⟩, fun _ => none, []⟩ :
        Config Unit Removal CleanupReply (Except Error Unit) ApiState) := .init rfl
  have h₁ := h₀.step trivial (.start (i := ()) (l := serviceRemoval) rfl rfl)
  have hget : CleanupServes (.get .service ⟨"prod", "db-surrealdb"⟩) ⟨retiredStore, []⟩
      (.ok { name := "db-surrealdb", ns := "prod", ownerReferences := [retiredCluster.ownerRef] })
      ⟨retiredStore, []⟩ := ⟨rfl, .inl ⟨_, rfl, rfl⟩⟩
  have h₂ := h₁.step (m := .call () serviceRemoval [] _ _ _) trivial (.call rfl hget)
  have henv : retiredCluster.removalSystem.env ⟨retiredStore, []⟩ ⟨recreatedStore, []⟩ :=
    show ([] : List Deletion) = [] from rfl
  have h₃ := h₂.step (m := .env _) trivial (.env henv)
  have hdelete := serves_answerCleanup
    (.delete .service ⟨"prod", "db-surrealdb"⟩ .background) ⟨recreatedStore, []⟩
  have h₄ := h₃.step (m := .call () serviceRemoval _ _ _ _) trivial (.call rfl hdelete)
  exact absurd (hall _ h₄ _ List.mem_cons_self) (by decide)

end SdbController
