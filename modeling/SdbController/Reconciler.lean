import SdbController.Kubernetes.Effect

/-!
# Reconcilers

The shape of every async function of the source: a program over the calls that ends in a result
or in an `Error`. The bind of `Reconciler` is the source's `?`. `attempt` is a function whose error
the caller looks at instead, and `attempt` with the result thrown away is the source's `.ok()`.

The `meets_*` lemmas compute the guard of a reconciler call by call. They are the simp set with
which `Cluster.reconcile` and its siblings are gone through once. Where it matters only which calls
there are, and not when, `Calls` and its rules go through a reconciler piece by piece.
-/

namespace SdbController

open Interaction Program

/-- `async fn … -> Result<α>`. -/
abbrev Reconciler (α : Type) : Type := ExceptT Error (Program Reply) α

/-- `Action::requeue`, in seconds. -/
structure Action where
  requeue : ℕ
deriving DecidableEq, Repr

namespace Reconciler

variable {α β : Type}

def lift (p : Program Reply α) : Reconciler α := ExceptT.mk (Except.ok <$> p)

def ofExcept (r : Except Error α) : Reconciler α := ExceptT.mk (pure r)

/-- `ok_or`. -/
def okOr (o : Option α) (e : Error) : Reconciler α :=
  ofExcept (match o with
    | some a => .ok a
    | none => .error e)

/-- A request whose error the caller matches on. -/
def api (q : ApiRequest) : Reconciler (Except KubeError q.Object) :=
  lift (perform (R := Reply) (.api q))

/-- A request with `map_err(Error::KubeError)`. -/
def call (q : ApiRequest) : Reconciler q.Object :=
  ExceptT.mk ((fun r : Except KubeError q.Object => r.mapError .kubeError) <$>
    perform (R := Reply) (.api q))

def http (q : HttpRequest) : Reconciler HttpOutcome := lift (perform (R := Reply) (.http q))

def draw (n : ℕ) : Reconciler (Draws n) := lift (perform (R := Reply) (.draw n))

/-- Run `m` and hand its result to the caller, who decides about the error. -/
def attempt (m : Reconciler α) : Reconciler (Except Error α) := ExceptT.mk (Except.ok <$> m.run)

/-- The create-or-exists idiom: an answer *already exists* counts as success. -/
def createIfAbsent (q : ApiRequest) : Reconciler Unit := do
  match ← api q with
  | .ok _ => pure ()
  | .error e => if e.hasCode 409 then pure () else throw (.kubeError e)

/-! ### Guards, call by call -/

section Meets

variable {G : History Reply → Call → Prop} {h : History Reply}
  {Q : History Reply → Except Error α → Prop}

@[simp] theorem meets_pure (a : α) : Meets G Q h (pure a : Reconciler α).run ↔ Q h (.ok a) :=
  Iff.rfl

@[simp] theorem meets_ofExcept (r : Except Error α) :
    Meets G Q h (ofExcept r).run ↔ Q h r := Iff.rfl

@[simp] theorem meets_okOr (o : Option α) (e : Error) :
    Meets G Q h (okOr o e).run ↔ (∀ a, o = some a → Q h (.ok a)) ∧ (o = none → Q h (.error e)) := by
  cases o <;> simp [okOr]

@[simp] theorem meets_map (f : α → β) (p : Program Reply α) {Q : History Reply → β → Prop} :
    Meets G Q h (f <$> p) ↔ Meets G (fun h' a => Q h' (f a)) h p :=
  meets_bind p fun a => ret (f a)

@[simp] theorem meets_attempt (m : Reconciler α)
    {Q : History Reply → Except Error (Except Error α) → Prop} :
    Meets G Q h (attempt m).run ↔ Meets G (fun h' r => Q h' (.ok r)) h m.run := meets_map _ m.run

@[simp] theorem meets_api (q : ApiRequest)
    {Q : History Reply → Except Error (Except KubeError q.Object) → Prop} :
    Meets G Q h (api q).run ↔
      G h (.api q) ∧ ∀ r : Except KubeError q.Object, Q (⟨.api q, r⟩ :: h) (.ok r) := Iff.rfl

@[simp] theorem meets_call_api (q : ApiRequest) {Q : History Reply → Except Error q.Object → Prop} :
    Meets G Q h (call q).run ↔
      G h (.api q) ∧ (∀ o, Q (⟨.api q, (.ok o : Except KubeError q.Object)⟩ :: h) (.ok o)) ∧
        ∀ e, Q (⟨.api q, (.error e : Except KubeError q.Object)⟩ :: h) (.error (.kubeError e)) := by
  change (G h (.api q) ∧ ∀ r : Except KubeError q.Object, Q (⟨.api q, r⟩ :: h) _) ↔ _
  refine and_congr_right fun _ => ⟨fun H => ⟨fun o => H (.ok o), fun e => H (.error e)⟩, ?_⟩
  rintro ⟨hok, herr⟩ (e | o)
  · exact herr e
  · exact hok o

@[simp] theorem meets_http (q : HttpRequest) {Q : History Reply → Except Error HttpOutcome → Prop} :
    Meets G Q h (http q).run ↔
      G h (.http q) ∧ ∀ r : HttpOutcome, Q (⟨.http q, r⟩ :: h) (.ok r) := Iff.rfl

@[simp] theorem meets_draw (n : ℕ) {Q : History Reply → Except Error (Draws n) → Prop} :
    Meets G Q h (draw n).run ↔
      G h (.draw n) ∧ ∀ d : Draws n, Q (⟨.draw n, d⟩ :: h) (.ok d) := Iff.rfl

@[simp] theorem meets_createIfAbsent (q : ApiRequest)
    {Q : History Reply → Except Error Unit → Prop} :
    Meets G Q h (createIfAbsent q).run ↔
      G h (.api q) ∧ (∀ o, Q (⟨.api q, (.ok o : Except KubeError q.Object)⟩ :: h) (.ok ())) ∧
        ∀ e, Q (⟨.api q, (.error e : Except KubeError q.Object)⟩ :: h)
          (if e.hasCode 409 then .ok () else .error (.kubeError e)) := by
  rw [createIfAbsent, meets_except_bind, meets_api]
  refine and_congr_right fun _ => ⟨fun H => ⟨fun o => H (.ok o), fun e => ?_⟩, ?_⟩
  · have := H (.error e)
    cases he : e.hasCode 409 <;> simpa [he] using this
  · rintro ⟨hok, herr⟩ (e | o)
    · have := herr e
      cases he : e.hasCode 409 <;> simpa [he] using this
    · exact hok o

end Meets

/-! ### What a reconciler calls at all -/

section Calls

variable {P P' : Call → Prop}

/-- Every call of `m` is a `P`. -/
def Calls (P : Call → Prop) (m : Reconciler α) : Prop :=
  ∀ h, Meets (fun _ q => P q) (fun _ _ => True) h m.run

theorem Calls.mono {m : Reconciler α} (hm : Calls P m) (h : ∀ q, P q → P' q) : Calls P' m :=
  fun h' => (hm h').mono (fun _ q => h q) fun _ _ => id

theorem Calls.pure (a : α) : Calls P (pure a : Reconciler α) := fun _ => trivial

theorem Calls.ofExcept (r : Except Error α) : Calls P (ofExcept r) := fun _ => trivial

theorem Calls.bind {m : Reconciler α} {f : α → Reconciler β} (hm : Calls P m)
    (hf : ∀ a, Calls P (f a)) : Calls P (m >>= f) := by
  intro h
  refine (meets_except_bind ..).mpr ((hm h).mono (fun _ _ => id) ?_)
  rintro h' (e | a) -
  · trivial
  · exact hf a h'

theorem Calls.attempt {m : Reconciler α} (hm : Calls P m) : Calls P (attempt m) :=
  fun h => (meets_attempt m).mpr ((hm h).mono (fun _ _ => id) fun _ _ _ => trivial)

/-- The source's `.ok()`, and then the end. -/
theorem Calls.discard {m : Reconciler α} (hm : Calls P m) (b : β) :
    Calls P (do let _ ← Reconciler.attempt m; Pure.pure b) := hm.attempt.bind fun _ => .pure b

theorem Calls.call {q : ApiRequest} (hq : P (.api q)) : Calls P (call q) :=
  fun _ => ⟨hq, fun _ => trivial⟩

theorem Calls.http {q : HttpRequest} (hq : P (.http q)) : Calls P (http q) :=
  fun _ => ⟨hq, fun _ => trivial⟩

theorem Calls.draw {n : ℕ} (hn : P (.draw n)) : Calls P (draw n) := fun _ => ⟨hn, fun _ => trivial⟩

theorem Calls.createIfAbsent {q : ApiRequest} (hq : P (.api q)) : Calls P (createIfAbsent q) :=
  fun _ => (meets_createIfAbsent q).mpr ⟨hq, fun _ => trivial, fun _ => trivial⟩

end Calls

/-! ### Completed runs, call by call -/

section Completes

variable {S : Type} {serve : (c : Call) → S → Reply c → S → Prop} {s s' : S} {x : Except Error α}

@[simp] theorem completes_ofExcept (r : Except Error α) :
    Completes serve (ofExcept r).run s x s' ↔ x = r ∧ s' = s := Iff.rfl

@[simp] theorem completes_map (f : α → β) (p : Program Reply α) (b : β) :
    Completes serve (f <$> p) s b s' ↔ ∃ a, Completes serve p s a s' ∧ b = f a := by
  refine (completes_bind p (fun a => ret (f a)) b).trans ?_
  constructor
  · rintro ⟨a, t, hp, rfl, rfl⟩
    exact ⟨a, hp, rfl⟩
  · rintro ⟨a, hp, rfl⟩
    exact ⟨a, s', hp, rfl, rfl⟩

@[simp] theorem completes_attempt (m : Reconciler α) {x : Except Error (Except Error α)} :
    Completes serve (attempt m).run s x s' ↔ ∃ a, Completes serve m.run s a s' ∧ x = .ok a :=
  completes_map _ m.run x

@[simp] theorem completes_api (q : ApiRequest) {x : Except Error (Except KubeError q.Object)} :
    Completes serve (api q).run s x s' ↔
      ∃ r : Except KubeError q.Object, serve (.api q) s r s' ∧ x = .ok r := by
  refine (completes_map _ (perform (R := Reply) (.api q)) x).trans ?_
  exact exists_congr fun r => and_congr_left fun _ => completes_perform _ r

@[simp] theorem completes_call_api (q : ApiRequest) {x : Except Error q.Object} :
    Completes serve (call q).run s x s' ↔
      ∃ r : Except KubeError q.Object, serve (.api q) s r s' ∧ x = r.mapError .kubeError := by
  refine (completes_map _ (perform (R := Reply) (.api q)) x).trans ?_
  exact exists_congr fun r => and_congr_left fun _ => completes_perform _ r

@[simp] theorem completes_http (q : HttpRequest) {x : Except Error HttpOutcome} :
    Completes serve (http q).run s x s' ↔
      ∃ r : HttpOutcome, serve (.http q) s r s' ∧ x = .ok r := by
  refine (completes_map _ (perform (R := Reply) (.http q)) x).trans ?_
  exact exists_congr fun r => and_congr_left fun _ => completes_perform _ r

@[simp] theorem completes_draw (n : ℕ) {x : Except Error (Draws n)} :
    Completes serve (draw n).run s x s' ↔ ∃ d : Draws n, serve (.draw n) s d s' ∧ x = .ok d := by
  refine (completes_map _ (perform (R := Reply) (.draw n)) x).trans ?_
  exact exists_congr fun d => and_congr_left fun _ => completes_perform _ d

theorem completes_createIfAbsent (q : ApiRequest) {x : Except Error Unit} :
    Completes serve (createIfAbsent q).run s x s' ↔
      (∃ o, serve (.api q) s (.ok o : Except KubeError q.Object) s' ∧ x = .ok ()) ∨
      ∃ e, serve (.api q) s (.error e : Except KubeError q.Object) s' ∧
        x = if e.hasCode 409 then .ok () else .error (.kubeError e) := by
  have hrun : ∀ e : KubeError, (if e.hasCode 409 then pure () else throw (.kubeError e) :
      Reconciler Unit).run = ret (if e.hasCode 409 then .ok () else .error (.kubeError e)) := by
    intro e
    cases e.hasCode 409 <;> rfl
  rw [createIfAbsent, completes_except_bind]
  constructor
  · rintro ⟨y, t, hcall, hrest⟩
    obtain ⟨r, hr, rfl⟩ := (completes_api q).mp hcall
    cases r with
    | ok o =>
      obtain ⟨rfl, rfl⟩ := hrest
      exact .inl ⟨o, hr, rfl⟩
    | error e =>
      obtain ⟨rfl, rfl⟩ := (hrun e).subst (motive := fun p => Completes serve p _ x s') hrest
      exact .inr ⟨e, hr, rfl⟩
  · rintro (⟨o, hr, rfl⟩ | ⟨e, hr, rfl⟩)
    · exact ⟨_, s', (completes_api q).mpr ⟨_, hr, rfl⟩, rfl, rfl⟩
    · refine ⟨_, s', (completes_api q).mpr ⟨_, hr, rfl⟩, ?_⟩
      exact (hrun e).symm.subst (motive := fun p => Completes serve p _ _ s') ⟨rfl, rfl⟩

end Completes

/-- A request to an API server that answers has one outcome. -/
theorem completes_answered {srv : Server}
    {http : HttpRequest → Store → HttpOutcome → Store → Prop} {s s' : Store} (q : ApiRequest)
    {x : Except Error q.Object} :
    Completes (Answers srv http) (call q).run s x s' ↔
      x = (answer srv q s).1.mapError .kubeError ∧ s' = (answer srv q s).2 := by
  rw [completes_call_api]
  constructor
  · rintro ⟨r, hr, rfl⟩
    rw [← show (r, s') = answer srv q s from hr]
    exact ⟨rfl, rfl⟩
  · rintro ⟨rfl, rfl⟩
    exact ⟨_, rfl, rfl⟩

end Reconciler

end SdbController
