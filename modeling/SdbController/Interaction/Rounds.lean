import Mathlib.Data.Nat.Notation
import Mathlib.Data.Nat.Init
import Mathlib.Tactic.Choose

/-!
# Rounds without end

What happens *from then on*, when things go well: in each round the environment moves and then one
program is played to its end. `σ n` is the store before round `n` and `τ n` the store the program
starts from. `Recovers` says of a store that whatever the environment does within its bounds, a goal
is reached, provided a fair situation comes up again and again.

## Main results

* `ensures` — one step towards a goal: a stage is kept until a fair round leaves it
* `not_recovers` — stores that fair rounds can stay among forever have no way out
-/

namespace Interaction

variable {S : Type}

/-- An infinite sequence of rounds. -/
structure Rounds (env : ℕ → S → S → Prop) (play : S → S → Prop) (σ τ : ℕ → S) : Prop where
  env : ∀ n, env n (σ n) (τ n)
  play : ∀ n, play (τ n) (σ (n + 1))

/-- From `s`, all rounds that are fair again and again reach the goal. -/
def Recovers (env : ℕ → S → S → Prop) (play : S → S → Prop) (fair goal : S → Prop) (s : S) : Prop :=
  ∀ σ τ, σ 0 = s → Rounds env play σ τ → (∀ n, ∃ m, n ≤ m ∧ fair (τ m)) → ∃ n, goal (σ n)

section Sequences

variable {P Q fair : S → Prop} {σ τ : ℕ → S} {n m : ℕ}

/-- A stage `P` that each round keeps or leaves for `Q` lasts, if it was not left before. -/
theorem stays_or (hkeep : ∀ m, n ≤ m → P (σ m) → P (σ (m + 1)) ∨ Q (σ (m + 1)))
    (hn : P (σ n)) (hnm : n ≤ m) : P (σ m) ∨ ∃ i, n ≤ i ∧ Q (σ i) := by
  induction m, hnm using Nat.le_induction with
  | base => exact .inl hn
  | succ j hj ih =>
    rcases ih with hP | hQ
    · exact (hkeep j hj hP).imp_right fun hQ => ⟨j + 1, Nat.le_succ_of_le hj, hQ⟩
    · exact .inr hQ

/-- If moreover each fair round leaves it, it is left. -/
theorem ensures (hkeep : ∀ m, n ≤ m → P (σ m) → P (σ (m + 1)) ∨ Q (σ (m + 1)))
    (hleave : ∀ m, n ≤ m → P (σ m) → fair (τ m) → Q (σ (m + 1)))
    (hfair : ∀ n, ∃ m, n ≤ m ∧ fair (τ m)) (hn : P (σ n)) : ∃ m, n ≤ m ∧ Q (σ m) := by
  obtain ⟨m, hnm, hm⟩ := hfair n
  rcases stays_or hkeep hn hnm with hP | hQ
  · exact ⟨m + 1, Nat.le_succ_of_le hnm, hleave m hnm hP hm⟩
  · exact hQ

end Sequences

/-- If a step can be taken from every state of `J` and leads back into `J`, it can be taken
forever. Both may depend on the time, and a step records a witness. -/
theorem exists_continuation {A B : Type} {J : ℕ → A → Prop} {step : ℕ → A → B → A → Prop}
    (next : ∀ n a, J n a → ∃ b a', step n a b a' ∧ J (n + 1) a') {a : A} (ha : J 0 a) :
    ∃ (σ : ℕ → A) (τ : ℕ → B), σ 0 = a ∧ (∀ n, step n (σ n) (τ n) (σ (n + 1))) ∧
      ∀ n, J n (σ n) := by
  choose b a' hstep hJ using next
  let σ : (n : ℕ) → {x // J n x} :=
    fun n => Nat.rec ⟨a, ha⟩ (fun n x => ⟨a' n x.1 x.2, hJ n x.1 x.2⟩) n
  exact ⟨fun n => (σ n).1, fun n => b n (σ n).1 (σ n).2, rfl,
    fun n => hstep n (σ n).1 (σ n).2, fun n => (σ n).2⟩

/-- **A dead end.** If fair rounds can go on forever without a goal, from `s` on, then `s` does not
recover. -/
theorem not_recovers {env : ℕ → S → S → Prop} {play : S → S → Prop} {fair goal : S → Prop}
    {J : ℕ → S → Prop}
    (next : ∀ n s, J n s → ∃ t s', env n s t ∧ play t s' ∧ fair t ∧ J (n + 1) s')
    (hJ : ∀ n s, J n s → ¬ goal s) {s : S} (hs : J 0 s) : ¬ Recovers env play fair goal s := by
  intro H
  have next' : ∀ n s, J n s → ∃ t s', (env n s t ∧ play t s' ∧ fair t) ∧ J (n + 1) s' := by
    intro n s hs
    obtain ⟨t, s', he, hp, hf, hs'⟩ := next n s hs
    exact ⟨t, s', ⟨he, hp, hf⟩, hs'⟩
  obtain ⟨σ, τ, h0, hstep, hall⟩ := exists_continuation next' hs
  obtain ⟨n, hn⟩ := H σ τ h0 ⟨fun n => (hstep n).1, fun n => (hstep n).2.1⟩
    fun n => ⟨n, Nat.le_refl n, (hstep n).2.2⟩
  exact hJ n _ (hall n) hn

end Interaction
