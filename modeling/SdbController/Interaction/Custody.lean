import Mathlib.Data.List.Pairwise
import SdbController.Interaction.Embedding
import SdbController.Interaction.Refinement

/-!
# Objects held by a finalizer

An API server removes a deleted object once its list of finalizers is empty. A controller that has
to clean up after an object puts a finalizer of its own on the list before it does anything else,
and takes it off when it has cleaned up. It acts on the object as its watch has shown it last, which
may be long ago: other clients, and the controller itself, have moved on since.

Two things keep this safe. The controller works on an object in one slot, so that it does not clean
up and apply at the same time. And both patches test what they rest on: one that the finalizers are
those that were seen, the other that the finalizer to be removed is the controller's own.

`finalizer` drives this in the client library. It is a parameter here, and `Documented` is what its
documentation says about it.

## The argument

`Tracked.versions` are the versions of the object from the stored one back to the one the
controller sees. Along them the finalizer comes or goes at most once, a version that is being
deleted is never followed by one that is held and not being deleted, and once the finalizer is gone
no version is held that is not being deleted. An invocation that applies therefore finds the object
held, however late it is, and nothing is held and live while one cleans up.

## Main definitions

* `Life`, `Held`, `Live`, `Dying` — the metadata that decides about the lifetime of an object
* `Tracked` — the stored object, the versions the watch is behind, and the rest of the world
* `Managed`, `Managed.system` — a controller of an object, and its runs
* `Managed.Clears` — what a cleanup is good for

## Main results

* `Managed.custody` — calls are made in custody, and what is no longer held is cleared
* `Managed.endures` — an object whose cleanup never succeeds is held for good
* `Managed.releases` — a reconciliation of a deleted object lets go of it, if every call is answered
-/

namespace Interaction

open Program

/-! ### Lives -/

/-- What the metadata of an object says about its lifetime. -/
structure Life where
  finalizers : List String := []
  deleting : Bool := false
deriving DecidableEq, Repr

/-- There is an object, and it has the finalizer. -/
def Held (name : String) (v : Option Life) : Prop := ∃ l ∈ v, name ∈ l.finalizers

/-- It is held and not being deleted. -/
def Live (name : String) (v : Option Life) : Prop :=
  ∃ l ∈ v, name ∈ l.finalizers ∧ l.deleting = false

/-- It is held and being deleted. -/
def Dying (name : String) (v : Option Life) : Prop :=
  ∃ l ∈ v, name ∈ l.finalizers ∧ l.deleting = true

/-- What other clients may do with the object. They leave the finalizer alone, and an object with
finalizers stays. -/
inductive LifeEnv (name : String) : Option Life → Option Life → Prop
  | create {l} (hl : name ∉ l.finalizers) (hd : l.deleting = false) : LifeEnv name none (some l)
  | change {l l'} (hf : name ∈ l'.finalizers ↔ name ∈ l.finalizers)
      (hd : l.deleting = true → l'.deleting = true) : LifeEnv name (some l) (some l')
  | vanish {l} (hl : l.finalizers = []) : LifeEnv name (some l) none

section Lives

variable {name : String} {v w : Option Life}

theorem Live.held (h : Live name v) : Held name v := by
  obtain ⟨l, hl, hmem, -⟩ := h
  exact ⟨l, hl, hmem⟩

theorem Dying.held (h : Dying name v) : Held name v := by
  obtain ⟨l, hl, hmem, -⟩ := h
  exact ⟨l, hl, hmem⟩

theorem Dying.not_live (h : Dying name v) : ¬ Live name v := by
  rintro ⟨l, hl, -, hd⟩
  obtain ⟨l', hl', -, hd'⟩ := h
  rw [Option.mem_unique hl hl', hd'] at hd
  cases hd

theorem Held.dying (h : Held name v) (hlive : ¬ Live name v) : Dying name v := by
  obtain ⟨l, hl, hmem⟩ := h
  refine ⟨l, hl, hmem, ?_⟩
  exact eq_true_of_ne_false fun hd => hlive ⟨l, hl, hmem, hd⟩

theorem LifeEnv.held_iff (h : LifeEnv name v w) : Held name w ↔ Held name v := by
  cases h with
  | create hl hd =>
    refine iff_of_false ?_ ?_
    · rintro ⟨l, ⟨⟩, hmem⟩
      exact hl hmem
    · rintro ⟨l, ⟨⟩, -⟩
  | change hf hd => simpa [Held] using hf
  | vanish hl =>
    refine iff_of_false ?_ ?_
    · rintro ⟨l, ⟨⟩, -⟩
    · rintro ⟨l, ⟨⟩, hmem⟩
      rw [hl] at hmem
      cases hmem

/-- Nothing comes back to life. -/
theorem LifeEnv.live (h : LifeEnv name v w) (hw : Live name w) : Live name v := by
  cases h with
  | create hl hd =>
    obtain ⟨l, ⟨⟩, hmem, -⟩ := hw
    exact absurd hmem hl
  | @change l l' hf hd =>
    obtain ⟨l₁, ⟨⟩, hmem, hlive⟩ := hw
    refine ⟨l, rfl, hf.mp hmem, ?_⟩
    refine eq_false_of_ne_true fun hdel => ?_
    rw [hd hdel] at hlive
    cases hlive
  | vanish hl =>
    obtain ⟨l, ⟨⟩, -⟩ := hw

end Lives

/-! ### The object and its watch -/

/-- The stored object, the versions of it that the controller has not got past, newest first, and
the rest of the world. -/
structure Tracked (S : Type) where
  stored : Option Life
  behind : List (Option Life) := []
  world : S

namespace Tracked

variable {S : Type}

/-- The versions from the stored one back to the one the controller sees. -/
def versions (s : Tracked S) : List (Option Life) := s.stored :: s.behind

/-- The version the controller sees. -/
def cached (s : Tracked S) : Option Life := s.versions.getLast (List.cons_ne_nil _ _)

/-- A new version is stored. -/
def store (s : Tracked S) (v : Option Life) : Tracked S :=
  { s with stored := v, behind := s.stored :: s.behind }

/-- The watch delivers the next version. -/
def advance (s : Tracked S) : Tracked S := { s with behind := s.behind.dropLast }

@[simp] theorem versions_store (s : Tracked S) (v : Option Life) :
    (s.store v).versions = v :: s.versions := rfl

theorem stored_mem (s : Tracked S) : s.stored ∈ s.versions := List.mem_cons_self

theorem cached_mem (s : Tracked S) : s.cached ∈ s.versions := List.getLast_mem _

/-- What is ordered along the versions is so with the cached one. -/
theorem pairwise_cached {r : Option Life → Option Life → Prop} {s : Tracked S}
    (h : s.versions.Pairwise r) (hrefl : r s.cached s.cached) {v : Option Life}
    (hv : v ∈ s.versions) : r v s.cached := h.rel_getLast_of_rel_getLast_getLast hv hrefl

theorem versions_advance (s : Tracked S) : s.advance.versions.Sublist s.versions :=
  (List.dropLast_sublist _).cons_cons _

end Tracked

/-- What is known about the versions, whatever others do and however late the watch is. -/
structure Tracked.Sane {S : Type} (name : String) (s : Tracked S) : Prop where
  once : (s.versions.Pairwise fun newer older => Held name older → Held name newer) ∨
    s.versions.Pairwise fun newer older => Held name newer → Held name older
  forward : s.versions.Pairwise fun newer older => Dying name older → ¬ Live name newer
  released : ¬ Held name s.stored → ∀ v ∈ s.versions, ¬ Live name v

namespace Tracked.Sane

variable {S : Type} {name : String} {s : Tracked S} {v : Option Life}

/-- What the controller sees held and live is held. -/
theorem held (hs : s.Sane name) (h : Live name s.cached) : Held name s.stored := by
  by_contra hn
  exact hs.released hn _ s.cached_mem h

/-- If the controller sees it dying, it has been dying since, as long as it is held. -/
theorem dying (hs : s.Sane name) (h : Dying name s.cached) (hheld : Held name s.stored) :
    ∀ v ∈ s.versions, Dying name v := by
  intro v hv
  refine Held.dying ?_ (Tracked.pairwise_cached hs.forward (fun hd => hd.not_live) hv h)
  rcases hs.once with hup | hdown
  · exact Tracked.pairwise_cached hup id hv h.held
  · rcases List.mem_cons.mp hv with rfl | hv
    · exact hheld
    · exact (List.pairwise_cons.mp hdown).1 v hv hheld

/-- If the controller does not see it held and it is not held, it has not been held since. -/
theorem free (hs : s.Sane name) (h : ¬ Held name s.cached) (hfree : ¬ Held name s.stored) :
    ∀ v ∈ s.versions, ¬ Held name v := by
  intro v hv hheld
  rcases hs.once with hup | hdown
  · rcases List.mem_cons.mp hv with rfl | hv
    · exact hfree hheld
    · exact hfree ((List.pairwise_cons.mp hup).1 v hv hheld)
  · exact h (Tracked.pairwise_cached hdown id hv hheld)

theorem advance (hs : s.Sane name) : s.advance.Sane name where
  once := hs.once.imp (·.sublist s.versions_advance) (·.sublist s.versions_advance)
  forward := hs.forward.sublist s.versions_advance
  released h w hw := hs.released h w (s.versions_advance.subset hw)

/-- What relates the stored version to a new one relates it to the older ones. -/
theorem pairwise_store {r : Option Life → Option Life → Prop} (h : s.versions.Pairwise r)
    (hv : ∀ w, r s.stored w → r v w) (hself : r v s.stored) : (s.store v).versions.Pairwise r := by
  refine List.pairwise_cons.mpr ⟨fun w hw => ?_, h⟩
  rcases List.mem_cons.mp hw with rfl | hw
  · exact hself
  · exact hv w ((List.pairwise_cons.mp h).1 w hw)

/-- Others keep the versions sane. -/
theorem change (hs : s.Sane name) (h : LifeEnv name s.stored v) : (s.store v).Sane name where
  once := by
    refine hs.once.imp (fun hup => ?_) fun hdown => ?_
    · exact pairwise_store hup (fun w hw hheld => h.held_iff.mpr (hw hheld)) h.held_iff.mpr
    · exact pairwise_store hdown (fun w hw hheld => hw (h.held_iff.mp hheld)) h.held_iff.mp
  forward := pairwise_store hs.forward (fun w hw hd hl => hw hd (h.live hl))
    fun hd hl => hd.not_live (h.live hl)
  released hfree w hw := by
    rcases List.mem_cons.mp hw with rfl | hw
    · exact fun hl => hfree hl.held
    · exact hs.released (fun hheld => hfree (h.held_iff.mpr hheld)) w hw

/-- Putting the finalizer on is sane if no version had it. -/
theorem hold (hs : s.Sane name) (hfree : ∀ w ∈ s.versions, ¬ Held name w) (hv : Held name v) :
    (s.store v).Sane name where
  once := .inl (List.pairwise_cons.mpr ⟨fun _ _ _ => hv,
    List.pairwise_of_forall_mem_list fun _ _ u hu hheld => absurd hheld (hfree u hu)⟩)
  forward := List.pairwise_cons.mpr ⟨fun w hw hd => absurd hd.held (hfree w hw), hs.forward⟩
  released h := absurd hv h

/-- Taking the finalizer off is sane if every version is dying. -/
theorem release (hs : s.Sane name) (hdying : ∀ w ∈ s.versions, Dying name w)
    (hv : ¬ Live name v) : (s.store v).Sane name where
  once := .inr (List.pairwise_cons.mpr ⟨fun w hw _ => (hdying w hw).held,
    List.pairwise_of_forall_mem_list fun w _ u hu _ => (hdying u hu).held⟩)
  forward := List.pairwise_cons.mpr ⟨fun _ _ _ => hv, hs.forward⟩
  released _ w hw := by
    rcases List.mem_cons.mp hw with rfl | hw
    · exact hv
    · exact (hdying w hw).not_live

end Tracked.Sane

/-! ### The calls of a reconciliation -/

/-- A call of what is applied, a call of the cleanup, or a patch of the finalizers: to append one if
they are what was seen, or to remove the one at an index if it has the name. -/
inductive LifeCall (C D : Type)
  | apply (q : C)
  | cleanup (q : D)
  | add (name : String) (seen : List String)
  | remove (name : String) (i : ℕ)

section Calls

variable {C D : Type} {R : C → Type} {R' : D → Type} {E F A S : Type}

def LifeReply (R : C → Type) (R' : D → Type) (F : Type) : LifeCall C D → Type
  | .apply q => R q
  | .cleanup q => R' q
  | .add _ _ => Except F Unit
  | .remove _ _ => Except F Unit

/-- The part of a history that belongs to what is applied. -/
def ownApply : History (LifeReply R R' F) → History R
  | [] => []
  | ⟨.apply q, r⟩ :: h => ⟨q, r⟩ :: ownApply h
  | ⟨.cleanup _, _⟩ :: h => ownApply h
  | ⟨.add _ _, _⟩ :: h => ownApply h
  | ⟨.remove _ _, _⟩ :: h => ownApply h

/-- The part of a history that belongs to the cleanup. -/
def ownCleanup : History (LifeReply R R' F) → History R'
  | [] => []
  | ⟨.apply _, _⟩ :: h => ownCleanup h
  | ⟨.cleanup q, r⟩ :: h => ⟨q, r⟩ :: ownCleanup h
  | ⟨.add _ _, _⟩ :: h => ownCleanup h
  | ⟨.remove _ _, _⟩ :: h => ownCleanup h

/-- What is applied, as a part of a reconciliation. -/
def applying : Embedding R (LifeReply R R' F) := ⟨.apply, id, ownApply, fun _ _ _ => rfl⟩

/-- The cleanup, as a part of a reconciliation. -/
def cleaning : Embedding R' (LifeReply R R' F) := ⟨.cleanup, id, ownCleanup, fun _ _ _ => rfl⟩

/-- The patch that appends a finalizer. None is accepted for an object that is being deleted. -/
def Life.add (name : String) (seen : List String) (l : Life) : Option (Option Life) :=
  if l.finalizers = seen ∧ l.deleting = false then
    some (some { l with finalizers := l.finalizers ++ [name] })
  else none

/-- The patch that removes a finalizer. With the last one goes an object that is being deleted. -/
def Life.remove (name : String) (i : ℕ) (l : Life) : Option (Option Life) :=
  if l.finalizers[i]? = some name then
    if l.deleting = true ∧ l.finalizers.eraseIdx i = [] then some none
    else some (some { l with finalizers := l.finalizers.eraseIdx i })
  else none

/-- The object without its finalizer, if it stays at all. -/
def Life.release (name : String) (l : Life) : Option Life :=
  if l.finalizers.erase name = [] then none
  else some { l with finalizers := l.finalizers.erase name }

theorem Life.remove_idxOf {name : String} {l : Life} (hheld : name ∈ l.finalizers)
    (hdel : l.deleting = true) :
    l.remove name (l.finalizers.idxOf name) = some (Life.release name l) := by
  have hi : l.finalizers[l.finalizers.idxOf name]? = some name := by
    rw [List.getElem?_eq_getElem (List.idxOf_lt_length_of_mem hheld), List.getElem_idxOf]
  rw [Life.remove, if_pos hi, release, List.eraseIdx_idxOf_eq_erase, hdel]
  simp only [true_and]
  split <;> rfl

/-- What a patch of one finalizer leaves: the others, and an object that is not being deleted. -/
structure Life.Spares (name : String) (l : Life) (v : Option Life) : Prop where
  gone : v = none → l.deleting
  others : ∀ {l'}, v = some l' →
    l'.finalizers.filter (· ≠ name) = l.finalizers.filter (· ≠ name)

theorem Life.spares_add {name : String} {seen : List String} {l : Life} {v : Option Life}
    (h : l.add name seen = some v) : l.Spares name v := by
  rw [add] at h
  split at h
  · obtain rfl := Option.some.inj h
    refine ⟨nofun, fun heq => ?_⟩
    obtain rfl := Option.some.inj heq
    simp
  · cases h

theorem Life.spares_remove {name : String} {i : ℕ} {l : Life} {v : Option Life}
    (h : l.remove name i = some v) : l.Spares name v := by
  rw [remove] at h
  split at h
  · next hi =>
    -- what is erased has the name
    have hothers : (l.finalizers.eraseIdx i).filter (· ≠ name) =
        l.finalizers.filter (· ≠ name) := by
      obtain ⟨hlt, hname⟩ := List.getElem?_eq_some_iff.mp hi
      conv_rhs => rw [← List.take_append_drop i l.finalizers, List.drop_eq_getElem_cons hlt, hname]
      simp [List.eraseIdx_eq_take_drop_succ]
    split at h
    · next hlast =>
      obtain rfl := Option.some.inj h
      exact ⟨fun _ => hlast.1, nofun⟩
    · obtain rfl := Option.some.inj h
      exact ⟨nofun, fun heq => Option.some.inj heq ▸ hothers⟩
  · cases h

/-- A patch is applied, and the reply may be lost, or it fails. -/
def Patches (f : Life → Option (Option Life)) (s : Tracked S) (r : Except F Unit)
    (s' : Tracked S) : Prop :=
  (∃ v, s.stored.bind f = some v ∧ s' = s.store v) ∨ (s' = s ∧ ∃ e, r = .error e)

/-- The calls as a reconciliation meets them. -/
def LifeServes (serve : (q : C) → S → R q → S → Prop) (serve' : (q : D) → S → R' q → S → Prop) :
    (q : LifeCall C D) → Tracked S → LifeReply R R' F q → Tracked S → Prop
  | .apply q, s, r, s' => ∃ w, serve q s.world r w ∧ s' = { s with world := w }
  | .cleanup q, s, r, s' => ∃ w, serve' q s.world r w ∧ s' = { s with world := w }
  | .add name seen, s, r, s' => Patches (Life.add name seen) s r s'
  | .remove name i, s, r, s' => Patches (Life.remove name i) s r s'

/-- A patch against a server that works. One that does not apply is a `conflict`. -/
def answerPatch (conflict : F) (f : Life → Option (Option Life)) (s : Tracked S) :
    Except F Unit × Tracked S :=
  match s.stored.bind f with
  | some v => (.ok (), s.store v)
  | none => (.error conflict, s)

/-- The calls against a server that works. -/
def answerLife (conflict : F) (serve : (q : C) → S → R q × S) (serve' : (q : D) → S → R' q × S) :
    (q : LifeCall C D) → Tracked S → LifeReply R R' F q × Tracked S
  | .apply q, s => ((serve q s.world).1, { s with world := (serve q s.world).2 })
  | .cleanup q, s => ((serve' q s.world).1, { s with world := (serve' q s.world).2 })
  | .add name seen, s => answerPatch conflict (Life.add name seen) s
  | .remove name i, s => answerPatch conflict (Life.remove name i) s

theorem patches_answerPatch (conflict : F) (f : Life → Option (Option Life)) (s : Tracked S) :
    Patches f s (answerPatch conflict f s).1 (answerPatch conflict f s).2 := by
  rw [answerPatch]
  cases hv : s.stored.bind f with
  | none => exact .inr ⟨rfl, _, rfl⟩
  | some v => exact .inl ⟨v, hv, rfl⟩

theorem serves_answerLife {serveApply : (q : C) → S → R q → S → Prop}
    {serveCleanup : (q : D) → S → R' q → S → Prop} {serve : (q : C) → S → R q × S}
    {serve' : (q : D) → S → R' q × S} (conflict : F)
    (hserve : ∀ q w, serveApply q w (serve q w).1 (serve q w).2)
    (hserve' : ∀ q w, serveCleanup q w (serve' q w).1 (serve' q w).2) (q : LifeCall C D)
    (s : Tracked S) : LifeServes serveApply serveCleanup q s
      (answerLife conflict serve serve' q s).1 (answerLife conflict serve serve' q s).2 := by
  cases q with
  | apply q => exact ⟨_, hserve q s.world, rfl⟩
  | cleanup q => exact ⟨_, hserve' q s.world, rfl⟩
  | add name seen => exact patches_answerPatch conflict _ s
  | remove name i => exact patches_answerPatch conflict _ s

/-! ### The finalizer -/

inductive FinalizerError (E F : Type)
  | applyFailed (e : E)
  | cleanupFailed (e : E)
  | addFinalizer (e : F)
  | removeFinalizer (e : F)

/-- A function that drives what is applied to an object and what cleans up after it, given the
version of the object that was seen. -/
abbrev Finalizer (R : C → Type) (R' : D → Type) (F E A : Type) : Type :=
  Life → Program R (Except E A) → Program R' (Except E A) →
    Program (LifeReply R R' F) (Except (FinalizerError E F) A)

/-- The finalizer is removed when the cleanup has succeeded. -/
def removing (name : String) (l : Life) :
    Except E A → Program (LifeReply R R' F) (Except (FinalizerError E F) A)
  | .error e => .ret (.error (.cleanupFailed e))
  | .ok a => .call (.remove name (l.finalizers.idxOf name)) fun (r : Except F Unit) =>
      .ret ((r.mapError .removeFinalizer).map fun _ => a)

/-- What the documentation says about it: without the finalizer, and not being deleted, it puts the
finalizer on and waits; with it, and not being deleted, it applies; being deleted, it cleans up and
takes the finalizer off; being deleted and without the finalizer, it does nothing. -/
structure Documented (name : String) (awaitChange : A) (run : Finalizer R R' F E A) : Prop where
  add : ∀ {l p p'}, name ∉ l.finalizers → l.deleting = false →
    run l p p' = .call (.add name l.finalizers) fun (r : Except F Unit) =>
      .ret ((r.mapError .addFinalizer).map fun _ => awaitChange)
  apply : ∀ {l p p'}, name ∈ l.finalizers → l.deleting = false →
    run l p p' = applying.embed p >>= fun r => .ret (r.mapError .applyFailed)
  cleanup : ∀ {l p p'}, name ∈ l.finalizers → l.deleting = true →
    run l p p' = cleaning.embed p' >>= removing name l
  done : ∀ {l p p'}, name ∉ l.finalizers → l.deleting = true → run l p p' = .ret (.ok awaitChange)

/-- A function that does as documented. -/
def finalizer (name : String) (awaitChange : A) : Finalizer R R' F E A := fun l p p' =>
  if name ∈ l.finalizers then
    if l.deleting then cleaning.embed p' >>= removing name l
    else applying.embed p >>= fun r => .ret (r.mapError .applyFailed)
  else if l.deleting then .ret (.ok awaitChange)
  else .call (.add name l.finalizers) fun (r : Except F Unit) =>
    .ret ((r.mapError .addFinalizer).map fun _ => awaitChange)

theorem documented_finalizer (name : String) (awaitChange : A) :
    Documented (R := R) (F := F) (E := E) name awaitChange
      (finalizer name awaitChange : Finalizer R R' F E A) where
  add {l p p'} hl hd := by rw [finalizer, if_neg hl, hd, if_neg Bool.false_ne_true]
  apply {l p p'} hl hd := by rw [finalizer, if_pos hl, hd, if_neg Bool.false_ne_true]
  cleanup {l p p'} hl hd := by rw [finalizer, if_pos hl, if_pos hd]
  done {l p p'} hl hd := by rw [finalizer, if_neg hl, if_pos hd]

end Calls

/-! ### Runs of a controller -/

/-- A controller of an object: what it applies and how it cleans up, given a snapshot of the object,
and what its calls and others do to the rest of the world. -/
structure Managed {C D : Type} (R : C → Type) (R' : D → Type) (O S E A : Type) where
  name : String
  object : O → Prop
  apply : O → Program R (Except E A)
  cleanup : O → Program R' (Except E A)
  serveApply : (q : C) → S → R q → S → Prop
  serveCleanup : (q : D) → S → R' q → S → Prop
  env : S → S → Prop

namespace Managed

variable {C D : Type} {R : C → Type} {R' : D → Type} {O S E F A : Type}
  (m : Managed R R' O S E A)

/-- What happens without the controller: to the rest of the world, to the object, and in its
watch. -/
inductive Elsewhere : Tracked S → Tracked S → Prop
  | world {s w} (h : m.env s.world w) : Elsewhere s { s with world := w }
  | object {s v} (h : LifeEnv m.name s.stored v) : Elsewhere s (s.store v)
  | watch {s} : Elsewhere s s.advance

/-- Reconciliations of the object, each from what the controller sees when it starts. -/
def system (run : Finalizer R R' F E A) :
    System (O × Life) (LifeReply R R' F) (Except (FinalizerError E F) A) (Tracked S) where
  start s l p := m.object l.1 ∧ s.cached = some l.2 ∧ p = run l.2 (m.apply l.1) (m.cleanup l.1)
  serve := LifeServes m.serveApply m.serveCleanup
  env := m.Elsewhere

/-- What a cleanup is good for: what it conducts itself by and knows on the way, and what holds of
the rest of the world when it has succeeded. `applies` is what applying conducts itself by. -/
structure Clearing (R : C → Type) (R' : D → Type) (O S E A : Type) where
  applies : O → History R → C → Prop
  guard : O → History R' → D → Prop
  result : O → History R' → Except E A → Prop
  knows : O → History R' → S → Prop
  clear : S → Prop

/-- The cleanup does it. -/
structure Clears (κ : Clearing R R' O S E A) : Prop where
  applies : ∀ {o}, m.object o → (m.apply o).Meets (κ.applies o) (fun _ _ => True) []
  meets : ∀ {o}, m.object o → (m.cleanup o).Meets (κ.guard o) (κ.result o) []
  begin : ∀ {o s}, m.object o → κ.knows o [] s
  env : ∀ {s s'}, m.env s s' →
    (κ.clear s → κ.clear s') ∧ ∀ {o h}, m.object o → κ.knows o h s → κ.knows o h s'
  call : ∀ {o h q r s s'}, m.object o → κ.knows o h s → κ.guard o h q →
    m.serveCleanup q s r s' → (κ.clear s → κ.clear s') ∧ κ.knows o (⟨q, r⟩ :: h) s'
  done : ∀ {o h a s}, m.object o → κ.result o h (.ok a) → κ.knows o h s → κ.clear s

/-- When a call is made, given the version that was seen. -/
def Guard (κ : Clearing R R' O S E A) (l : O × Life) (h : History (LifeReply R R' F)) :
    LifeCall C D → Prop
  | .apply q => Live m.name (some l.2) ∧ κ.applies l.1 (ownApply h) q
  | .cleanup q => Dying m.name (some l.2) ∧ κ.guard l.1 (ownCleanup h) q
  | .add name seen => name = m.name ∧ m.name ∉ l.2.finalizers ∧ seen = l.2.finalizers
  | .remove name _ => name = m.name ∧ Dying m.name (some l.2) ∧
      ∃ a, κ.result l.1 (ownCleanup h) (.ok a)

/-- What holds between reconciliations. -/
structure Kept (κ : Clearing R R' O S E A) (s : Tracked S) : Prop where
  sane : s.Sane m.name
  cleared : ¬ Held m.name s.stored → κ.clear s.world

/-- What holds while one is running. -/
structure Holding (κ : Clearing R R' O S E A) (l : O × Life) (h : History (LifeReply R R' F))
    (s : Tracked S) : Prop where
  object : m.object l.1
  live : Live m.name (some l.2) → Held m.name s.stored
  dying : Dying m.name (some l.2) → Held m.name s.stored → ∀ v ∈ s.versions, Dying m.name v
  knows : Dying m.name (some l.2) → κ.knows l.1 (ownCleanup h) s.world
  free : m.name ∉ l.2.finalizers → ¬ Held m.name s.stored → ∀ v ∈ s.versions, ¬ Held m.name v

def outline (κ : Clearing R R' O S E A) :
    Outline (O × Life) (LifeReply R R' F) (Except (FinalizerError E F) A) (Tracked S) where
  store s _ := m.Kept κ s
  task := m.Holding κ
  guard := m.Guard κ

section Custody

variable {m} {κ : Clearing R R' O S E A} {l : O × Life} {h : History (LifeReply R R' F)}
  {s s' : Tracked S} {run : Finalizer R R' F E A} {awaitChange : A}

/-- **What the finalizer drives is driven in custody.** -/
theorem meets_guard (hκ : m.Clears κ) (hrun : Documented m.name awaitChange run)
    (hl : m.object l.1) :
    (run l.2 (m.apply l.1) (m.cleanup l.1)).Meets (m.Guard κ l) (fun _ _ => True) [] := by
  by_cases hheld : m.name ∈ l.2.finalizers <;> by_cases hdel : l.2.deleting = true
  · have hdying : Dying m.name (some l.2) := ⟨l.2, rfl, hheld, hdel⟩
    rw [hrun.cleanup hheld hdel]
    refine cleaning.meets_embed (G := κ.guard l.1) (Q := κ.result l.1)
      (fun h q hq => ⟨hdying, hq⟩) (fun h r hr => ?_) (hκ.meets hl)
    cases r with
    | error e => trivial
    | ok a => exact ⟨⟨rfl, hdying, a, hr⟩, fun _ => trivial⟩
  · have hlive : Live m.name (some l.2) := ⟨l.2, rfl, hheld, eq_false_of_ne_true hdel⟩
    rw [hrun.apply hheld (eq_false_of_ne_true hdel)]
    refine applying.meets_embed (G := κ.applies l.1) (fun h q hq => ⟨hlive, hq⟩)
      (fun _ _ _ => ?_) (hκ.applies hl)
    trivial
  · rw [hrun.done hheld hdel]
    trivial
  · rw [hrun.add hheld (eq_false_of_ne_true hdel)]
    exact ⟨⟨rfl, hheld, rfl⟩, fun _ => trivial⟩

/-- Others keep what is kept. -/
theorem Kept.elsewhere (hκ : m.Clears κ) (hs : m.Kept κ s) (he : m.Elsewhere s s') :
    m.Kept κ s' := by
  cases he with
  | world hw => exact ⟨⟨hs.sane.once, hs.sane.forward, hs.sane.released⟩,
      fun hfree => (hκ.env hw).1 (hs.cleared hfree)⟩
  | object hv => exact ⟨hs.sane.change hv,
      fun hfree => hs.cleared fun hheld => hfree (hv.held_iff.mpr hheld)⟩
  | watch => exact ⟨hs.sane.advance, hs.cleared⟩

theorem Holding.elsewhere (hκ : m.Clears κ) (ht : m.Holding κ l h s) (he : m.Elsewhere s s') :
    m.Holding κ l h s' := by
  cases he with
  | world hw =>
    exact ⟨ht.object, ht.live, ht.dying, fun hd => (hκ.env hw).2 ht.object (ht.knows hd), ht.free⟩
  | @object v hv =>
    refine ⟨ht.object, fun hl => hv.held_iff.mpr (ht.live hl), fun hd hheld => ?_, ht.knows,
      fun hf hfree => ?_⟩
    · have hall := ht.dying hd (hv.held_iff.mp hheld)
      refine List.forall_mem_cons.mpr ⟨Held.dying hheld fun hl => ?_, hall⟩
      exact (hall _ s.stored_mem).not_live (hv.live hl)
    · exact List.forall_mem_cons.mpr ⟨hfree, ht.free hf fun hheld => hfree (hv.held_iff.mpr hheld)⟩
  | watch =>
    have hsub := s.versions_advance.subset
    exact ⟨ht.object, ht.live, fun hd hheld v hv => ht.dying hd hheld v (hsub hv), ht.knows,
      fun hf hfree v hv => ht.free hf hfree v (hsub hv)⟩

/-- A reconciliation starts in custody. -/
theorem Kept.start (hκ : m.Clears κ) (hs : m.Kept κ s) (hl : m.object l.1)
    (hcached : s.cached = some l.2) : m.Holding κ l ([] : History (LifeReply R R' F)) s where
  object := hl
  live hlive := hs.sane.held (hcached ▸ hlive)
  dying hdying hheld := hs.sane.dying (hcached ▸ hdying) hheld
  knows _ := hκ.begin hl
  free hf hfree := by
    refine hs.sane.free (fun hheld => hf ?_) hfree
    rw [hcached] at hheld
    obtain ⟨l', ⟨⟩, hmem⟩ := hheld
    exact hmem

/-- The finalizer is put on an object that no version shows with it. -/
theorem Kept.add {seen : List String} {v : Option Life} (hs : m.Kept κ s) (ht : m.Holding κ l h s)
    (hseen : m.name ∉ seen) (hl : m.name ∉ l.2.finalizers)
    (hv : s.stored.bind (Life.add m.name seen) = some v) :
    Held m.name v ∧ (s.store v).Sane m.name := by
  obtain ⟨x, hx, hadd⟩ := Option.bind_eq_some_iff.mp hv
  rw [Life.add] at hadd
  split at hadd
  · next hcond =>
    obtain ⟨rfl, -⟩ := hcond
    obtain rfl := Option.some.inj hadd
    have hfree : ¬ Held m.name s.stored := by
      rw [hx]
      rintro ⟨y, ⟨⟩, hmem⟩
      exact hseen hmem
    have hheld : Held m.name
        (some { x with finalizers := x.finalizers ++ [m.name] }) :=
      ⟨_, rfl, List.mem_append_right _ (List.mem_singleton.mpr rfl)⟩
    exact ⟨hheld, hs.sane.hold (ht.free hl hfree) hheld⟩
  · cases hadd

/-- The finalizer is taken off an object that every version shows dying. -/
theorem Kept.remove {i : ℕ} {v : Option Life} (hs : m.Kept κ s) (ht : m.Holding κ l h s)
    (hl : Dying m.name (some l.2)) (hv : s.stored.bind (Life.remove m.name i) = some v) :
    (∀ w ∈ s.versions, Dying m.name w) ∧ ¬ Live m.name v ∧ (s.store v).Sane m.name := by
  obtain ⟨x, hx, hremove⟩ := Option.bind_eq_some_iff.mp hv
  rw [Life.remove] at hremove
  split at hremove
  · next hi =>
    have hheld : Held m.name s.stored := ⟨x, hx, List.mem_of_getElem? hi⟩
    have hall := ht.dying hl hheld
    have hlive : ¬ Live m.name v := by
      obtain ⟨y, hy, -, hdel⟩ := hall _ s.stored_mem
      rw [Option.mem_def, hx] at hy
      obtain rfl := Option.some.inj hy
      split at hremove
      · obtain rfl := Option.some.inj hremove
        rintro ⟨y, ⟨⟩, -⟩
      · obtain rfl := Option.some.inj hremove
        rintro ⟨y, ⟨⟩, -, hlive⟩
        rw [hdel] at hlive
        cases hlive
    exact ⟨hall, hlive, hs.sane.release hall hlive⟩
  · cases hremove

/-- **One call** keeps custody. -/
theorem Kept.call {q : LifeCall C D} {r : LifeReply R R' F q} (hκ : m.Clears κ) (hs : m.Kept κ s)
    (ht : m.Holding κ l h s) (hq : m.Guard κ l h q)
    (hserve : LifeServes m.serveApply m.serveCleanup q s r s') :
    m.Kept κ s' ∧ m.Holding κ l (⟨q, r⟩ :: h) s' := by
  cases q with
  | apply q =>
    obtain ⟨w, -, rfl⟩ := hserve
    have hlive : Live m.name (some l.2) := hq.1
    exact ⟨⟨⟨hs.sane.once, hs.sane.forward, hs.sane.released⟩,
      fun hfree => absurd (ht.live hlive) hfree⟩, ht.object, ht.live, ht.dying,
      fun hd => absurd hlive hd.not_live, ht.free⟩
  | cleanup q =>
    obtain ⟨w, hw, rfl⟩ := hserve
    obtain ⟨hdying, hq⟩ := hq
    obtain ⟨hclear, hknows⟩ := hκ.call ht.object (ht.knows hdying) hq hw
    exact ⟨⟨⟨hs.sane.once, hs.sane.forward, hs.sane.released⟩,
      fun hfree => hclear (hs.cleared hfree)⟩, ht.object, ht.live, ht.dying, fun _ => hknows,
      ht.free⟩
  | add name seen =>
    obtain ⟨rfl, hl, rfl⟩ := hq
    have hsnap : ¬ Held m.name (some l.2) := by
      rintro ⟨l', ⟨⟩, hmem⟩
      exact hl hmem
    rcases hserve with ⟨v, hv, rfl⟩ | ⟨rfl, -⟩
    · obtain ⟨hheld, hsane⟩ := hs.add ht hl hl hv
      exact ⟨⟨hsane, fun hfree => absurd hheld hfree⟩, ht.object,
        fun hlive => absurd hlive.held hsnap, fun hd => absurd hd.held hsnap,
        fun hd => absurd hd.held hsnap, fun _ hfree => absurd hheld hfree⟩
    · exact ⟨hs, ht.object, ht.live, ht.dying, ht.knows, ht.free⟩
  | remove name i =>
    obtain ⟨rfl, hdying, a, ha⟩ := hq
    rcases hserve with ⟨v, hv, rfl⟩ | ⟨rfl, -⟩
    · obtain ⟨hall, hlive, hsane⟩ := hs.remove ht hdying hv
      refine ⟨⟨hsane, fun _ => hκ.done ht.object ha (ht.knows hdying)⟩, ht.object,
        fun hl => absurd hl hdying.not_live, fun _ hheld => ?_, ht.knows,
        fun hf => ?_⟩
      · exact List.forall_mem_cons.mpr ⟨Held.dying hheld hlive, hall⟩
      · obtain ⟨l', ⟨⟩, hmem, -⟩ := hdying
        exact absurd hmem hf
    · exact ⟨hs, ht.object, ht.live, ht.dying, ht.knows, ht.free⟩

/-- The rest of the world at the start, and an object that is not held. -/
def Vacant (κ : Clearing R R' O S E A) (s : Tracked S) : Prop :=
  s.behind = [] ∧ ¬ Held m.name s.stored ∧ κ.clear s.world

theorem Vacant.kept (hs : m.Vacant κ s) : m.Kept κ s := by
  obtain ⟨hbehind, hfree, hclear⟩ := hs
  have hversions : s.versions = [s.stored] := congrArg (List.cons s.stored) hbehind
  refine ⟨⟨.inl ?_, ?_, fun _ v hv => ?_⟩, fun _ => hclear⟩
  · rw [hversions]
    exact List.pairwise_singleton _ _
  · rw [hversions]
    exact List.pairwise_singleton _ _
  · rw [hversions] at hv
    rw [List.mem_singleton.mp hv]
    exact fun hl => hfree hl.held

/-- What is kept at the start is kept. -/
theorem preserves_kept (hκ : m.Clears κ) (hrun : Documented m.name awaitChange run)
    {init : Tracked S → Prop} (hinit : ∀ s, init s → m.Kept κ s) :
    (m.system run).Preserves init (System.anyMove (ι := Unit)) (m.outline κ) where
  init hs := ⟨hinit _ hs, trivial⟩
  env hc _ he := ⟨Kept.elsewhere hκ hc.store he,
    fun _ _ _ _ hi => Holding.elsewhere hκ (hc.task hi) he, fun _ _ => trivial⟩
  start hc _ _ hs := by
    obtain ⟨hl, hcached, rfl⟩ := hs
    exact ⟨hc.store, Kept.start hκ hc.store hl hcached, meets_guard hκ hrun hl⟩
  call hc hi hG _ hs := Kept.call hκ hc.store (hc.task hi) hG hs
  frame _ _ _ _ _ hij := absurd (Subsingleton.elim _ _) hij
  finish _ _ _ _ := trivial
  crash _ _ _ := trivial

theorem preserves (hκ : m.Clears κ) (hrun : Documented m.name awaitChange run) :
    (m.system run).Preserves (m.Vacant κ) (System.anyMove (ι := Unit)) (m.outline κ) :=
  preserves_kept hκ hrun fun _ => Vacant.kept

/-- **Custody.** In every run of one process, as long as other clients leave the finalizer alone and
however late the watch is: what is no longer held is cleared; a call of what is applied is made
while the object is held, and a call of the cleanup while it is not held and live; and both conduct
themselves. -/
theorem custody (hκ : m.Clears κ) (hrun : Documented m.name awaitChange run)
    {c : Config Unit (O × Life) (LifeReply R R' F) (Except (FinalizerError E F) A) (Tracked S)}
    (hc : (m.system run).Reachable (m.Vacant κ) System.anyMove c) :
    (¬ Held m.name c.store.stored → κ.clear c.store.world) ∧
    (∀ l h q k, c.running () = some ⟨l, h, .call (.apply q) k⟩ →
      m.object l.1 ∧ Held m.name c.store.stored ∧ κ.applies l.1 (ownApply h) q) ∧
    ∀ l h q k, c.running () = some ⟨l, h, .call (.cleanup q) k⟩ →
      m.object l.1 ∧ ¬ Live m.name c.store.stored ∧ κ.guard l.1 (ownCleanup h) q := by
  have hsound := (preserves hκ hrun).sound hc
  have hkept : m.Kept κ c.store := hsound.store
  refine ⟨hkept.cleared, fun l h q k hi => ?_, fun l h q k hi => ?_⟩
  · obtain ⟨hlive, hq⟩ : m.Guard κ l h (.apply q) := (hsound.rest hi).1
    exact ⟨(hsound.task hi).object, (hsound.task hi).live hlive, hq⟩
  · obtain ⟨hdying, hq⟩ : m.Guard κ l h (.cleanup q) := (hsound.rest hi).1
    refine ⟨(hsound.task hi).object, fun hlive => ?_, hq⟩
    exact ((hsound.task hi).dying hdying hlive.held _ c.store.stored_mem).not_live hlive

end Custody

/-! ### Holding on -/

/-- The same controller in a world that is as `J` has it, before and after every call. -/
def within (m : Managed R R' O S E A) (J : S → Prop) : Managed R R' O S E A :=
  { m with
    serveApply := fun q s r s' => J s ∧ m.serveApply q s r s' ∧ J s'
    serveCleanup := fun q s r s' => J s ∧ m.serveCleanup q s r s' ∧ J s'
    env := fun s s' => J s ∧ m.env s s' ∧ J s' }

section Endurance

variable {m} {κ : Clearing R R' O S E A} {s : Tracked S} {run : Finalizer R R' F E A}
  {awaitChange : A} {J : S → Prop}

/-- If everything keeps `J`, all runs are runs within it. -/
theorem refines_within (henv : ∀ {s s'}, J s → m.env s s' → J s')
    (happly : ∀ {q s r s'}, J s → m.serveApply q s r s' → J s')
    (hcleanup : ∀ {q s r s'}, J s → m.serveCleanup q s r s' → J s') :
    Refines (m.system run) ((m.within J).system run) id fun s => J s.world where
  env {s s'} hs he := by
    cases he with
    | world hw => exact ⟨henv hs hw, .world ⟨hs, hw, henv hs hw⟩⟩
    | object hv => exact ⟨hs, .object hv⟩
    | watch => exact ⟨hs, .watch⟩
  start _ hs := hs
  serve {q s r s'} hs hserve := by
    cases q with
    | apply q =>
      obtain ⟨w, hw, rfl⟩ := hserve
      exact ⟨happly hs hw, w, ⟨hs, hw, happly hs hw⟩, rfl⟩
    | cleanup q =>
      obtain ⟨w, hw, rfl⟩ := hserve
      exact ⟨hcleanup hs hw, w, ⟨hs, hw, hcleanup hs hw⟩, rfl⟩
    | add name seen | remove name i =>
      rcases hserve with ⟨v, hv, rfl⟩ | ⟨rfl, he⟩
      · exact ⟨hs, .inl ⟨v, hv, rfl⟩⟩
      · exact ⟨hs, .inr ⟨rfl, he⟩⟩

/-- **What cannot be cleared is held for good.** In a world in which the cleanup never succeeds, and
which everything keeps so, an object that is held stays held. -/
theorem endures (henv : ∀ {s s'}, J s → m.env s s' → J s')
    (happly : ∀ {q s r s'}, J s → m.serveApply q s r s' → J s')
    (hcleanup : ∀ {q s r s'}, J s → m.serveCleanup q s r s' → J s')
    (hκ : (m.within J).Clears κ) (hnever : ∀ s, ¬ κ.clear s)
    (hrun : Documented m.name awaitChange run) (hsane : s.Sane m.name)
    (hheld : Held m.name s.stored) (hJ : J s.world)
    {c : Config Unit (O × Life) (LifeReply R R' F) (Except (FinalizerError E F) A) (Tracked S)}
    (hc : (m.system run).Reachable (· = s) System.anyMove c) : Held m.name c.store.stored := by
  have hinit (t : Tracked S) (ht : t = s) : (m.within J).Kept κ t := by
    subst ht
    exact ⟨hsane, fun hfree => absurd hheld hfree⟩
  have hstart (t : Tracked S) (ht : t = s) : J t.world ∧ t = s := ⟨ht ▸ hJ, ht⟩
  have hseen : J c.store.world ∧ ((m.within J).system run).Reachable (· = s) System.anyMove c :=
    (refines_within henv happly hcleanup).reachable hstart (fun _ _ _ => trivial) hc
  have hkept : (m.within J).Kept κ c.store := ((preserves_kept hκ hrun hinit).sound hseen.2).store
  by_contra hfree
  exact hnever _ (hkept.cleared hfree)

end Endurance

/-! ### Letting go -/

section Release

variable {m} {serve : (q : C) → S → R q × S} {serve' : (q : D) → S → R' q × S}
  {run : Finalizer R R' F E A} {awaitChange a : A} {o : O} {l : Life} {s : Tracked S}

/-- **A reconciliation of a deleted object lets go of it**, if the controller sees it as it is and
its cleanup succeeds. -/
theorem releases (hrun : Documented m.name awaitChange run) (conflict : F)
    (serve : (q : C) → S → R q × S) (hl : s.stored = some l)
    (hheld : m.name ∈ l.finalizers) (hdel : l.deleting = true)
    (hcleanup : ((m.cleanup o).eval serve' s.world).1 = .ok a) :
    (run l (m.apply o) (m.cleanup o)).eval (answerLife conflict serve serve') s =
      (.ok a, { s with world := ((m.cleanup o).eval serve' s.world).2 }.store
        (Life.release m.name l)) := by
  rw [hrun.cleanup hheld hdel, cleaning.eval_embed serve' Tracked.world
    (fun w s => { s with world := w }) (fun _ _ => rfl) (fun _ _ _ => rfl)
    (fun _ _ => ⟨rfl, rfl⟩) (fun _ => rfl), hcleanup]
  have hpatch : answerPatch conflict (Life.remove m.name (l.finalizers.idxOf m.name))
      { s with world := ((m.cleanup o).eval serve' s.world).2 } =
        (.ok (), { s with world := ((m.cleanup o).eval serve' s.world).2 }.store
          (Life.release m.name l)) := by
    rw [answerPatch, show ({ s with world := _ } : Tracked S).stored = some l from hl,
      Option.bind_some, Life.remove_idxOf hheld hdel]
  change ((((answerPatch conflict _ _).1.mapError _).map fun _ => a),
    (answerPatch conflict _ _).2) = _
  rw [hpatch]
  rfl

/-- The watch catches up. -/
theorem settles_synced {init : Tracked S → Prop}
    (hs : (m.system run).Settles init System.anyMove s) :
    (m.system run).Settles init System.anyMove { s with behind := [] } := by
  induction hn : s.behind.length generalizing s with
  | zero =>
    rw [← List.length_eq_zero_iff.mp hn]
    exact hs
  | succ n ih =>
    have hlen : s.advance.behind.length = n := by
      rw [Tracked.advance, List.length_dropLast, hn]
      rfl
    have hnext : (m.system run).Settles init System.anyMove s.advance :=
      hs.env .watch fun _ _ _ => trivial
    exact ih (s := s.advance) hnext hlen

/-- **A deleted object can always go**: whatever has happened before, and whatever is left to be
seen of it, the watch catches up and the next reconciliation lets go of the object. -/
theorem settles_released (hrun : Documented m.name awaitChange run)
    (hserve : ∀ q w, m.serveApply q w (serve q w).1 (serve q w).2)
    (hserve' : ∀ q w, m.serveCleanup q w (serve' q w).1 (serve' q w).2) (conflict : F)
    (ho : m.object o) (hl : s.stored = some l) (hheld : m.name ∈ l.finalizers)
    (hdel : l.deleting = true) (hcleanup : ((m.cleanup o).eval serve' s.world).1 = .ok a) :
    ∃ t, (m.system run).Settles (· = s) System.anyMove { s with behind := [] } ∧
      (run l (m.apply o) (m.cleanup o)).eval (answerLife conflict serve serve')
        { s with behind := [] } = (.ok a, t) ∧
      (m.system run).Settles (· = s) System.anyMove t ∧ t.stored = Life.release m.name l := by
  have hsynced : (m.system run).Settles (· = s) System.anyMove { s with behind := [] } :=
    settles_synced (.initial rfl)
  have hcached : ({ s with behind := [] } : Tracked S).cached = some l := hl
  have hplayed := hsynced.play (l := (o, l)) (serves_answerLife conflict hserve hserve')
    (fun _ _ _ => trivial) ⟨ho, hcached, rfl⟩
  have hrelease := releases hrun conflict serve
    (show ({ s with behind := [] } : Tracked S).stored = some l from hl) hheld hdel hcleanup
  rw [hrelease] at hplayed
  exact ⟨_, hsynced, hrelease, hplayed, rfl⟩

end Release

end Managed

end Interaction
