import SdbController.Provisioning

/-!
# What an invocation of the Database reconciler may do

`Database.reconcile` is gone through once, here. Two statements are sent, the second after a good
verdict on the first, and one phase is written at the end: `Ready` after two good verdicts, `Error`
after a bad one or when the request cannot be built.

## Main results

* `Database.reconcile_meets` — every invocation conducts itself so, and follows its verdicts
-/

namespace SdbController

open Interaction Program

namespace Database

variable (libs : Externals) (client : Client) (d : Database)

/-- The Cluster that the Database refers to. -/
def cluster : ObjectKey := ⟨d.clusterNs, d.spec.clusterRef.name⟩

/-- The statement that defines the namespace. -/
def namespaceSql : Sql := .defineNamespace d.surrealNs

/-- The statement that defines the database. -/
def databaseSql : Sql := .defineDatabase d.surrealNs d.surrealDb

/-- The write of a phase, as a call. -/
def PhaseWrite (phase : DbPhase) (q : Call) : Prop :=
  ∃ message, q = .api (.mergeDatabaseStatus d.key phase message)

/-- The last call was the statement for the namespace, with a good verdict. -/
def HasNamespace (h : History Reply) : Prop :=
  ∃ q r h', h = sent q r :: h' ∧ Asks libs client d.cluster d.namespaceSql q ∧
    client.verdict r = .ok () ∧
    Quiet h'

/-- The last call was the statement for the database, with a good verdict. -/
def HasDatabase (h : History Reply) : Prop :=
  ∃ q r h', h = sent q r :: h' ∧ Asks libs client d.cluster d.databaseSql q ∧
    client.verdict r = .ok () ∧
    d.HasNamespace libs client h'

/-- When a call is issued. -/
def Conduct (h : History Reply) : Call → Prop
  | .api (.mergeDatabaseStatus k phase _) => k = d.key ∧
    ((phase = .ready ∧ d.HasDatabase libs client h) ∨
      (phase = .error ∧ (Refused client h ∨ Unreachable libs client d.cluster)))
  | .api q => ¬ q.IsWrite
  | .http q => (Asks libs client d.cluster d.namespaceSql q ∧ Quiet h) ∨
    (Asks libs client d.cluster d.databaseSql q ∧ d.HasNamespace libs client h)
  | .draw _ => False

section Meets

variable {G : History Reply → Call → Prop} {h : History Reply}

/-- A phase is written last, and whatever comes of it. -/
@[simp] theorem meets_conclude (phase : DbPhase) (message : Option String) (a : Action)
    {Q : History Reply → Except Error Action → Prop} :
    Meets G Q h (do
        let _ ← Reconciler.attempt (d.setPhaseMsg phase message)
        pure a : Reconciler Action).run ↔
      G h (.api (.mergeDatabaseStatus d.key phase message)) ∧ ∀ r : Except KubeError Unit,
        Q (⟨.api (.mergeDatabaseStatus d.key phase message), r⟩ :: h) (.ok a) := Iff.rfl

end Meets

theorem conduct_read {h : History Reply} {q : ApiRequest} (hq : ¬ q.IsWrite) :
    d.Conduct libs client h (.api q) := by
  cases q with
  | mergeDatabaseStatus k phase m => exact absurd trivial hq
  | _ => exact hq

/-- What holds of a finished invocation. -/
abbrev Ends (h : History Reply) : Prop :=
  Follows client (d.PhaseWrite .ready) (d.PhaseWrite .error) h

/-- An error write after a bad verdict concludes as it should. -/
theorem ends_refused {h : History Reply} {q : HttpRequest} {r : HttpOutcome}
    {message : Option String} {a : Except KubeError Unit} (hh : Going client h)
    (hr : client.verdict r ≠ .ok ()) (hready : ∀ e ∈ h, ¬ d.PhaseWrite .ready e.1) :
    d.Ends client (⟨.api (.mergeDatabaseStatus d.key .error message), a⟩ :: sent q r :: h) := by
  refine hh.follows_of_refused hr ⟨message, rfl⟩ ⟨?_, ?_, hready⟩
  · rintro ⟨m, hm⟩
    cases hm
  · rintro ⟨m, hm⟩
    cases hm

theorem provision_meets :
    (d.provision libs client).run.Meets (d.Conduct libs client)
      (fun h _ => d.Ends client h) [] := by
  have passive {h : History Reply} (hh : Quiet h) : ∀ e ∈ h, ¬ d.PhaseWrite .ready e.1 := by
    rintro e he ⟨m, hm⟩
    have hpassive := hh e he
    rw [hm] at hpassive
    exact hpassive trivial
  -- an invocation that stops without a statement just sent
  have stopped {h : History Reply} (hh : Quiet h) : d.Ends client h := by
    refine (hh.going client).follows ?_
    rintro w q r older rfl -
    exact hh _ (List.mem_cons_of_mem _ List.mem_cons_self)
  rw [provision, meets_except_bind]
  refine Database.meets_getRootCredentials _ _ .nil
    (fun h' q _ hq => d.conduct_read libs client hq) ?_
  rintro h (e | ⟨user, pass⟩) hh
  · exact stopped hh
  simp only [ensureSurrealNamespace, ensureSurrealDatabase, ↓meets_conclude, meets_except_bind,
    Reconciler.meets_attempt, meets_sendSql]
  refine ⟨fun request hreq => ⟨.inl ⟨⟨user, pass, request, hreq, rfl⟩, hh⟩, fun r => ?_⟩,
    fun e he => ?_⟩
  · cases hr : client.verdict r with
    | error e =>
      have hbad : client.verdict r ≠ .ok () := by simp [hr]
      rw [meets_conclude]
      exact ⟨⟨rfl, .inr ⟨rfl, .inl ⟨_, r, h, rfl, hbad⟩⟩⟩,
        fun _ => d.ends_refused client (hh.going client) hbad (passive hh)⟩
    | ok =>
      have hns : d.HasNamespace libs client (sent request.request r :: h) :=
        ⟨_, r, h, rfl, ⟨user, pass, request, hreq, rfl⟩, hr, hh⟩
      have hgoing : Going client (sent request.request r :: h) := (hh.going client).cons_sent hr
      simp only [meets_except_bind, Reconciler.meets_attempt, meets_sendSql]
      refine ⟨fun request' hreq' => ⟨.inr ⟨⟨user, pass, request', hreq', rfl⟩, hns⟩, fun r' => ?_⟩,
        fun e he => ?_⟩
      · cases hr' : client.verdict r' with
        | error e =>
          have hbad : client.verdict r' ≠ .ok () := by simp [hr']
          have hready : ∀ x ∈ sent request.request r :: h, ¬ d.PhaseWrite .ready x.1 := by
            rintro x hx ⟨m, hm⟩
            rcases List.mem_cons.mp hx with rfl | hx
            · cases hm
            · exact passive hh x hx ⟨m, hm⟩
          rw [meets_conclude]
          exact ⟨⟨rfl, .inr ⟨rfl, .inl ⟨_, r', _, rfl, hbad⟩⟩⟩,
            fun _ => d.ends_refused client hgoing hbad hready⟩
        | ok =>
          rw [meets_conclude]
          refine ⟨⟨rfl, .inl ⟨rfl, _, r', _, rfl, ⟨user, pass, request', hreq', rfl⟩, hr', hns⟩⟩,
            fun _ => ((hgoing.cons_sent hr').cons_api _).follows ?_⟩
          rintro w q r'' older heq ⟨m, hm⟩
          cases heq
          cases hm
      · -- the second request differs from the first in its statement only
        obtain ⟨request', hok⟩ := sqlRequest_isOk (.defineDatabase d.surrealNs d.surrealDb) hreq
        rw [hok] at he
        cases he
  · refine ⟨⟨rfl, .inr ⟨rfl, .inr ⟨user, pass, _, e, he⟩⟩⟩,
      fun _ => ((hh.going client).cons_api _).follows ?_⟩
    rintro w q r older heq -
    cases heq
    exact hh _ List.mem_cons_self

/-- **Every invocation of `Database.reconcile` conducts itself**, and it calls only if the phase is
one that provisions. -/
theorem reconcile_meets :
    (d.reconcile libs client).run.Meets
      (fun h q => (d.phase = .new ∨ d.phase = .inProgress) ∧ d.Conduct libs client h q)
      (fun h _ => d.Ends client h) [] := by
  have idle : d.Ends client [] := (Quiet.nil.going client).follows fun heq => nomatch heq
  rw [reconcile]
  split
  · next hp =>
    exact (d.provision_meets libs client).mono (fun _ _ hq => ⟨.inl hp, hq⟩) fun _ _ => id
  · next hp =>
    exact (d.provision_meets libs client).mono (fun _ _ hq => ⟨.inr hp, hq⟩) fun _ _ => id
  · exact idle
  · exact idle

end Database

end SdbController
