import SdbController.Interaction.Program

/-!
# Programs inside larger ones

A program over the calls `C` is also one over any larger set of calls. `Embedding` says how the
calls and the replies of the small program are found among those of the large one, and how the
history of the small program is read off that of the large one.

## Main definitions

* `Embedding`, `Embedding.embed`
* `tagged` — the calls that are made on behalf of one of many

## Main results

* `Embedding.meets_embed` — what a program was shown to do, it does as a part of a larger one
* `Embedding.eval_embed` — a part runs to its end as it does on its own
* `Program.eval_view` — and so does a program on a part of the store
-/

namespace Interaction

open Program

variable {C C' : Type} {R : C → Type} {R' : C' → Type} {α β S S' : Type}

/-- The calls `C` among the calls `C'`, their replies, and the part of a history that is theirs. -/
structure Embedding (R : C → Type) (R' : C' → Type) where
  call : C → C'
  reply : ∀ {c}, R' (call c) → R c
  own : History R' → History R
  own_cons : ∀ c (r : R' (call c)) h, own (⟨call c, r⟩ :: h) = ⟨c, reply r⟩ :: own h

namespace Embedding

variable (e : Embedding R R')

/-- The program `p` over the larger set of calls. -/
def embed : Program R α → Program R' α
  | .ret a => .ret a
  | .call c k => .call (e.call c) fun r => embed (k (e.reply r))

@[simp] theorem embed_ret (a : α) : e.embed (.ret a) = .ret a := rfl

@[simp] theorem embed_call (c : C) (k : R c → Program R α) :
    e.embed (.call c k) = .call (e.call c) fun r => e.embed (k (e.reply r)) := rfl

/-- **The rule for a part.** Its own guard is available for each of its calls, and what comes next
may rely on its postcondition. -/
theorem meets_embed {G : History R → C → Prop} {Q : History R → α → Prop}
    {G' : History R' → C' → Prop} {Q' : History R' → β → Prop} {f : α → Program R' β}
    (hcall : ∀ h c, G (e.own h) c → G' h (e.call c))
    (hnext : ∀ h a, Q (e.own h) a → Meets G' Q' h (f a)) {p : Program R α} {h : History R'}
    (hp : Meets G Q (e.own h) p) : Meets G' Q' h (e.embed p >>= f) := by
  induction p generalizing h with
  | ret a => exact hnext h a hp
  | call c k ih =>
    refine ⟨hcall h c hp.1, fun r => ih (e.reply r) ?_⟩
    rw [e.own_cons]
    exact hp.2 _

/-- The same, if nothing comes next. -/
theorem meets_embed_ret {G : History R → C → Prop} {Q : History R → α → Prop}
    {G' : History R' → C' → Prop} {Q' : History R' → α → Prop}
    (hcall : ∀ h c, G (e.own h) c → G' h (e.call c)) (hret : ∀ h a, Q (e.own h) a → Q' h a)
    {p : Program R α} {h : History R'} (hp : Meets G Q (e.own h) p) : Meets G' Q' h (e.embed p) :=
  (meets_bind _ _).mp (e.meets_embed (f := .ret) hcall hret hp)

/-- A part is run by the part of the server that serves it. -/
theorem eval_embed (serve : (c : C) → S → R c × S) {serve' : (c : C') → S' → R' c × S'}
    (view : S' → S) (put : S → S' → S') (hview : ∀ s s', view (put s s') = s)
    (hput : ∀ s t s', put t (put s s') = put t s')
    (hserve : ∀ c s', e.reply (serve' (e.call c) s').1 = (serve c (view s')).1 ∧
      (serve' (e.call c) s').2 = put (serve c (view s')).2 s')
    (hsame : ∀ s', put (view s') s' = s') (p : Program R α) (f : α → Program R' β) (s' : S') :
    (e.embed p >>= f).eval serve' s' =
      (f (p.eval serve (view s')).1).eval serve' (put (p.eval serve (view s')).2 s') := by
  induction p generalizing s' with
  | ret a =>
    rw [Program.eval, hsame]
    rfl
  | call c k ih =>
    obtain ⟨hreply, hstore⟩ := hserve c s'
    rw [embed_call, call_bind, Program.eval, ih, hreply, hstore, hview, hput]
    rfl

end Embedding

section Tagged

variable {ι : Type} [DecidableEq ι]

/-- What was called on behalf of `i`. -/
def ownOf (i : ι) : History (fun q : ι × C => R q.2) → History R
  | [] => []
  | ⟨(j, q), r⟩ :: h => if j = i then ⟨q, r⟩ :: ownOf i h else ownOf i h

/-- The calls of a program, made on behalf of `i`. -/
def tagged (i : ι) : Embedding R (fun q : ι × C => R q.2) where
  call q := (i, q)
  reply r := r
  own := ownOf i
  own_cons _ _ _ := if_pos rfl

end Tagged

/-- A program against a server that works on a part of the store. -/
theorem Program.eval_view {serve : (c : C) → S → R c × S} (serve' : (c : C) → S' → R c × S')
    (view : S' → S) (hserve : ∀ c s', ((serve' c s').1, view (serve' c s').2) = serve c (view s'))
    (p : Program R α) (s' : S') :
    ((p.eval serve' s').1, view (p.eval serve' s').2) = p.eval serve (view s') := by
  induction p generalizing s' with
  | ret a => rfl
  | call c k ih =>
    rw [Program.eval, Program.eval, ih, ← hserve]

end Interaction
