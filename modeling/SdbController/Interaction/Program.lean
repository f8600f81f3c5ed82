import Mathlib.Logic.Basic
import Mathlib.Data.List.Basic

/-!
# Programs that talk to an environment

A program either returns or issues a call and continues with the reply. `R c` is the type of
replies to the call `c`, so a continuation is defined on exactly the replies its call can get.
Nothing here says what a call *does*: that is the business of whoever serves it, and of
`Interaction.System`, which runs many programs against one store.

## Two readings of a program

`Program.Meets` reads a program as an obligation. Along every sequence of replies, each call is
allowed by a guard that may look at the calls and replies so far, and the result satisfies a
postcondition. It is the one thing proved about a program by going through its text; everything
else is then derived from the guard.

`Program.Completes` reads a program as a big step against a server, when every call is answered.

## Main definitions

* `Program`, `History` — a program, and the calls and replies of an unfinished run, newest first
* `Program.Meets` — guard and postcondition over all replies
* `Program.After`, `Program.Returns` — where a run with a given history has got to
* `Program.trace` — a run against fixed replies
* `Program.Completes`, `Program.eval` — a run to the end against a server

## Main results

* `Program.meets_bind`, `Program.meets_except_bind` — the rules the guards are computed with
* `Program.meets_returns` — a program's own history is always available to its continuation
* `Program.Meets.invariant` — what the calls of a run preserve holds all along
* `Program.Meets.eval` — the postcondition holds of a run to the end
* `Program.completes_bind`, `Program.completes_except_bind` — the rules completed runs are computed
  with
-/

namespace Interaction

variable {C : Type} {R : C → Type} {α β S : Type}

/-- A program over the calls `C`: it returns, or it calls and continues with the reply. -/
inductive Program (R : C → Type) (α : Type) : Type
  | ret (a : α)
  | call (c : C) (k : R c → Program R α)

/-- The calls a run has made and the replies it got, the newest first. -/
abbrev History (R : C → Type) : Type := List (Σ c, R c)

namespace Program

/-- Run `p` and continue with its result. -/
def bind : Program R α → (α → Program R β) → Program R β
  | ret a, f => f a
  | call c k, f => call c fun r => (k r).bind f

instance : Monad (Program R) where
  pure := ret
  bind := bind

@[simp] theorem pure_eq (a : α) : (Pure.pure a : Program R α) = ret a := rfl

@[simp] theorem ret_bind (a : α) (f : α → Program R β) : (ret a >>= f) = f a := rfl

@[simp] theorem call_bind (c : C) (k : R c → Program R α) (f : α → Program R β) :
    (call c k >>= f) = call c fun r => k r >>= f := rfl

/-- Issue one call and return its reply. -/
def perform (c : C) : Program R (R c) := call c ret

/-! ### Guards and postconditions -/

/-- Along every sequence of replies from history `h` on, each call satisfies the guard `G` and the
result satisfies `Q`, both of which see the history so far. -/
def Meets (G : History R → C → Prop) (Q : History R → α → Prop) : History R → Program R α → Prop
  | h, ret a => Q h a
  | h, call c k => G h c ∧ ∀ r, Meets G Q (⟨c, r⟩ :: h) (k r)

section Meets

variable {G G' : History R → C → Prop} {Q Q' : History R → α → Prop} {h : History R}

@[simp] theorem meets_ret (a : α) : Meets G Q h (ret a) ↔ Q h a := Iff.rfl

@[simp] theorem meets_call (c : C) (k : R c → Program R α) :
    Meets G Q h (call c k) ↔ G h c ∧ ∀ r, Meets G Q (⟨c, r⟩ :: h) (k r) := Iff.rfl

@[simp] theorem meets_perform (c : C) {Q : History R → R c → Prop} :
    Meets G Q h (perform c) ↔ G h c ∧ ∀ r, Q (⟨c, r⟩ :: h) r := Iff.rfl

@[simp] theorem meets_bind (p : Program R α) (f : α → Program R β)
    {Q : History R → β → Prop} :
    Meets G Q h (p >>= f) ↔ Meets G (fun h' a => Meets G Q h' (f a)) h p := by
  induction p generalizing h with
  | ret a => rfl
  | call c k ih => simp [ih]

theorem Meets.mono {p : Program R α} (hp : Meets G Q h p) (hG : ∀ h c, G h c → G' h c)
    (hQ : ∀ h a, Q h a → Q' h a) : Meets G' Q' h p := by
  induction p generalizing h with
  | ret a => exact hQ h a hp
  | call c k ih => exact ⟨hG h c hp.1, fun r => ih r (hp.2 r)⟩

theorem Meets.and {p : Program R α} (hp : Meets G Q h p) (hp' : Meets G' Q' h p) :
    Meets (fun h c => G h c ∧ G' h c) (fun h a => Q h a ∧ Q' h a) h p := by
  induction p generalizing h with
  | ret a => exact ⟨hp, hp'⟩
  | call c k ih => exact ⟨⟨hp.1, hp'.1⟩, fun r => ih r (hp.2 r) (hp'.2 r)⟩

/-- A run goes on from the history it has. -/
theorem meets_extends (p : Program R α) (h₀ : History R) (hh : h₀ <:+ h) :
    Meets (fun h' _ => h₀ <:+ h') (fun h' _ => h₀ <:+ h') h p := by
  induction p generalizing h with
  | ret a => exact hh
  | call c k ih => exact ⟨hh, fun r => ih r (hh.trans (List.suffix_cons _ _))⟩

/-- What a program does is the same from any history on. -/
theorem Meets.append {h : History R} {p : Program R α} (hp : Meets G Q h p) (h₀ : History R) :
    Meets (fun h' c => ∃ new, h' = new ++ h₀ ∧ G new c)
      (fun h' a => ∃ new, h' = new ++ h₀ ∧ Q new a) (h ++ h₀) p := by
  induction p generalizing h with
  | ret a => exact ⟨h, rfl, hp⟩
  | call c k ih => exact ⟨⟨h, rfl, hp.1⟩, fun r => ih r (hp.2 r)⟩

/-- What the calls of a run preserve holds all along. -/
theorem Meets.invariant {P : C → Prop} {I : History R → Prop}
    (hI : ∀ h c r, I h → P c → I (⟨c, r⟩ :: h)) {p : Program R α}
    (hp : Meets (fun _ c => P c) Q h p) (hh : I h) :
    Meets (fun h c => I h ∧ P c) (fun h a => I h ∧ Q h a) h p := by
  induction p generalizing h with
  | ret a => exact ⟨hh, hp⟩
  | call c k ih => exact ⟨⟨hh, hp.1⟩, fun r => ih r (hp.2 r) (hI h c r hh hp.1)⟩

/-- The rule for fallible programs: an error skips the continuation. -/
theorem meets_except_bind {ε : Type} (m : ExceptT ε (Program R) α)
    (f : α → ExceptT ε (Program R) β) {Q : History R → Except ε β → Prop} :
    Meets G Q h (m >>= f).run ↔
      Meets G (fun h' r => match r with
        | .ok a => Meets G Q h' (f a).run
        | .error e => Q h' (.error e)) h m.run := by
  change Meets G Q h (Program.bind m.run (ExceptT.bindCont f)) ↔ _
  rw [show Program.bind m.run (ExceptT.bindCont f) = (m.run >>= ExceptT.bindCont f) from rfl,
    meets_bind]
  refine iff_of_eq (congrArg (fun q => Meets G q h m.run) ?_)
  funext h' r
  cases r <;> rfl

end Meets

/-! ### Where a run has got to -/

/-- `After p h q`: once `p` has got the replies in `h`, what is left to run is `q`. -/
inductive After (p : Program R α) : History R → Program R α → Prop
  | start : After p [] p
  | reply {h c k} (r : R c) : After p h (call c k) → After p (⟨c, r⟩ :: h) (k r)

/-- With the replies in `h`, `p` has returned `a`. -/
def Returns (p : Program R α) (h : History R) (a : α) : Prop := After p h (ret a)

theorem After.trans {p q r : Program R α} {h h' : History R} (hp : After p h q)
    (hq : After q h' r) : After p (h' ++ h) r := by
  induction hq with
  | start => exact hp
  | reply a _ ih => exact ih.reply a

theorem After.bind {p q : Program R α} {h : History R} (hq : After p h q) (f : α → Program R β) :
    After (p >>= f) h (q >>= f) := by
  induction hq with
  | start => exact .start
  | reply r _ ih => exact ih.reply r

/-- A fallible program that has returned goes on with its continuation. -/
theorem Returns.except_bind {ε : Type} {m : ExceptT ε (Program R) α} {h : History R} {a : α}
    (hm : Returns m.run h (.ok a)) (f : α → ExceptT ε (Program R) β) :
    After (m >>= f).run h (f a).run := After.bind hm (ExceptT.bindCont f)

/-- A run from the middle of `p` is a run of `p`. -/
theorem After.meets {p q : Program R α} {h : History R} (hq : After p h q) :
    Meets (fun _ _ => True) (Returns p) h q := by
  induction q generalizing h with
  | ret a => exact hq
  | call c k ih => exact ⟨trivial, fun r => ih r (hq.reply r)⟩

/-- The strongest guard of a program is that it issues the call. -/
theorem After.meets_calls {p q : Program R α} {h : History R} (hq : After p h q) :
    Meets (fun h c => ∃ k, After p h (call c k)) (Returns p) h q := by
  induction q generalizing h with
  | ret a => exact hq
  | call c k ih => exact ⟨⟨k, hq⟩, fun r => ih r (hq.reply r)⟩

/-- The strongest postcondition of a program is that it has returned. -/
theorem meets_returns (p : Program R α) : Meets (fun _ _ => True) (Returns p) [] p :=
  After.start.meets

/-- Guard and postcondition read off a run that has returned. -/
theorem Meets.of_after {G : History R → C → Prop} {Q : History R → α → Prop}
    {p q : Program R α} {h : History R} (hp : Meets G Q [] p) (hq : After p h q) :
    Meets G Q h q := by
  induction hq with
  | start => exact hp
  | reply r _ ih => exact ih.2 r

/-- Run `p` on from history `h`, every call getting the reply that `reply` assigns to it. -/
def trace (reply : (c : C) → R c) : History R → Program R α → History R × α
  | h, ret a => (h, a)
  | h, call c k => trace reply (⟨c, reply c⟩ :: h) (k (reply c))

/-- A traced run has returned. -/
theorem After.trace (reply : (c : C) → R c) {p q : Program R α} {h : History R}
    (hq : After p h q) : Returns p (trace reply h q).1 (trace reply h q).2 := by
  induction q generalizing h with
  | ret a => exact hq
  | call c k ih => exact ih _ (hq.reply _)

/-! ### Completed runs -/

/-- Run `p` to its end from store `s`, every call answered by `serve`: it returns the last argument
but one and ends in the last store. -/
def Completes (serve : (c : C) → S → R c → S → Prop) : Program R α → S → α → S → Prop
  | ret a, s, b, s' => b = a ∧ s' = s
  | call c k, s, b, s' => ∃ r t, serve c s r t ∧ Completes serve (k r) t b s'

section Completes

variable {serve : (c : C) → S → R c → S → Prop} {s s' : S}

@[simp] theorem completes_perform (c : C) (r : R c) :
    Completes serve (perform c) s r s' ↔ serve c s r s' := by
  constructor
  · rintro ⟨r', t, hs, rfl, rfl⟩
    exact hs
  · intro hs
    exact ⟨r, s', hs, rfl, rfl⟩

@[simp] theorem completes_bind (p : Program R α) (f : α → Program R β) (b : β) :
    Completes serve (p >>= f) s b s' ↔
      ∃ a t, Completes serve p s a t ∧ Completes serve (f a) t b s' := by
  induction p generalizing s with
  | ret a =>
    constructor
    · intro h
      exact ⟨a, s, ⟨rfl, rfl⟩, h⟩
    · rintro ⟨_, _, ⟨rfl, rfl⟩, h⟩
      exact h
  | call c k ih =>
    constructor
    · rintro ⟨r, t, hs, h⟩
      obtain ⟨a, t', hk, hf⟩ := (ih r).mp h
      exact ⟨a, t', ⟨r, t, hs, hk⟩, hf⟩
    · rintro ⟨a, t', ⟨r, t, hs, hk⟩, hf⟩
      exact ⟨r, t, hs, (ih r).mpr ⟨a, t', hk, hf⟩⟩

/-- The rule for fallible programs: an error skips the continuation. -/
theorem completes_except_bind {ε : Type} (m : ExceptT ε (Program R) α)
    (f : α → ExceptT ε (Program R) β) (b : Except ε β) :
    Completes serve (m >>= f).run s b s' ↔ ∃ x t, Completes serve m.run s x t ∧
      match x with
      | .ok a => Completes serve (f a).run t b s'
      | .error e => b = .error e ∧ s' = t := by
  change Completes serve (Program.bind m.run (ExceptT.bindCont f)) s b s' ↔ _
  rw [show Program.bind m.run (ExceptT.bindCont f) = (m.run >>= ExceptT.bindCont f) from rfl,
    completes_bind]
  refine exists_congr fun x => exists_congr fun t => and_congr_right fun _ => ?_
  cases x <;> rfl

/-- A run to the end is one against any server that may do more. -/
theorem Completes.mono {serve' : (c : C) → S → R c → S → Prop} {p : Program R α} {a : α}
    (hp : Completes serve p s a s') (h : ∀ c s r t, serve c s r t → serve' c s r t) :
    Completes serve' p s a s' := by
  induction p generalizing s with
  | ret a => exact hp
  | call c k ih =>
    obtain ⟨r, t, hs, hk⟩ := hp
    exact ⟨r, t, h c s r t hs, ih r hk⟩

/-- A server that keeps the history of the run beside its store. -/
def logged (serve : (c : C) → S → R c → S → Prop) (c : C) (s : S × History R) (r : R c)
    (s' : S × History R) : Prop :=
  serve c s.1 r s'.1 ∧ s'.2 = ⟨c, r⟩ :: s.2

/-- Against a server that answers every call, every run has an end. -/
theorem exists_completes (h : ∀ c s, ∃ r t, serve c s r t) (p : Program R α) (s : S) :
    ∃ a s', Completes serve p s a s' := by
  induction p generalizing s with
  | ret a => exact ⟨a, s, rfl, rfl⟩
  | call c k ih =>
    obtain ⟨r, t, hs⟩ := h c s
    obtain ⟨a, s', hk⟩ := ih r t
    exact ⟨a, s', r, t, hs, hk⟩

end Completes

/-- Run `p` to its end against a server that is a function. -/
def eval (serve : (c : C) → S → R c × S) : Program R α → S → α × S
  | ret a, s => (a, s)
  | call c k, s => eval serve (k (serve c s).1) (serve c s).2

/-- Every call of a run to the end passes a test. -/
def checks (serve : (c : C) → S → R c × S) (test : (c : C) → S → Bool) : Program R α → S → Bool
  | ret _, _ => true
  | call c k, s => test c s && checks serve test (k (serve c s).1) (serve c s).2

theorem checks_true {serve : (c : C) → S → R c × S} (p : Program R α) (s : S) :
    checks serve (fun _ _ => true) p s := by
  induction p generalizing s with
  | ret a => rfl
  | call c k ih => exact ih _ _

/-- A run to the end ends as the program does. Its history is one of the server's replies. -/
theorem Meets.eval {G : History R → C → Prop} {Q : History R → α → Prop} {P : History R → Prop}
    {serve : (c : C) → S → R c × S} (hserve : ∀ c s h, P h → P (⟨c, (serve c s).1⟩ :: h))
    {p : Program R α} {h : History R} (hp : Meets G Q h p) (hh : P h) (s : S) :
    ∃ h', P h' ∧ Q h' (eval serve p s).1 := by
  induction p generalizing h s with
  | ret a => exact ⟨h, hh, hp⟩
  | call c k ih => exact ih _ (hp.2 _) (hserve c s h hh) _

/-- The same with what holds of the store beside the history, and with what the program obeys. -/
theorem Meets.eval_keeping {G : History R → C → Prop} {Q : History R → α → Prop}
    {P : History R → S → Prop} {serve : (c : C) → S → R c × S}
    (hserve : ∀ c s h, G h c → P h s → P (⟨c, (serve c s).1⟩ :: h) (serve c s).2)
    {p : Program R α} {h : History R} (hp : Meets G Q h p) {s : S} (hh : P h s) :
    ∃ h', P h' (Program.eval serve p s).2 ∧ Q h' (Program.eval serve p s).1 := by
  induction p generalizing h s with
  | ret a => exact ⟨h, hh, hp⟩
  | call c k ih => exact ih _ (hp.2 _) (hserve c s h hp.1 hh)

/-- Against a server that is a function a program completes as it is evaluated. -/
theorem completes_eval {serve : (c : C) → S → R c → S → Prop} {f : (c : C) → S → R c × S}
    (hf : ∀ c s, serve c s (f c s).1 (f c s).2) (p : Program R α) (s : S) :
    Completes serve p s (eval f p s).1 (eval f p s).2 := by
  induction p generalizing s with
  | ret a => exact ⟨rfl, rfl⟩
  | call c k ih => exact ⟨_, _, hf c s, ih _ _⟩

end Program

end Interaction
