import SdbController.Kubernetes.Effect

/-!
# Creating an object

A create is answered by the name: if it is free the object is stored, and if it is taken the answer
is *already exists* and nothing changes, whoever the object there belongs to. `Creates` says this
once for the three kinds of object that are created.

## Main results

* `Creates.served` — what is stored after a create that is taken for a success
-/

namespace SdbController

open Interaction

/-- The create-or-exists idiom takes the reply for a success. -/
def Established {α : Type} (r : Except KubeError α) : Prop := ∀ e, r = .error e → e.hasCode 409

/-- `q` creates the object `a`. `get` is what is stored in its place. -/
structure Creates (srv : Server) (q : ApiRequest) {α : Type} (get : Store → Option α) (a : α) :
    Prop where
  free {s : Store} : get s = none → ∃ o s', answer srv q s = (.ok o, s') ∧ get s' = some a
  taken {s : Store} {b : α} : get s = some b →
    ∃ text, answer srv q s = (.error (.alreadyExists text), s)

section Answers

variable {α : Type} {s : Store} {m : ObjectKey → Option α} {k : ObjectKey} (a : α)
  (f : (ObjectKey → Option α) → Store)

theorem created_free (h : m k = none) :
    created s ((createIn m k a).map f) = (.ok (), f (Function.update m k (some a))) := by
  rw [createIn, h]
  rfl

theorem created_taken {b : α} (h : m k = some b) :
    created s ((createIn m k a).map f) = (.error (.alreadyExists "already exists"), s) := by
  rw [createIn, h]
  rfl

end Answers

/-! ### The three kinds -/

section Kinds

variable (srv : Server)

theorem creates_secret (x : Secret) :
    Creates srv (.createSecret x) (fun s => s.secrets x.metadata.key) x.stored where
  free h := ⟨(), _, created_free _ _ h, Function.update_self ..⟩
  taken h := ⟨_, created_taken _ _ h⟩

theorem creates_configMap (x : ConfigMap) :
    Creates srv (.createConfigMap x) (fun s => s.configMaps x.metadata.key) x where
  free h := ⟨(), _, created_free _ _ h, Function.update_self ..⟩
  taken h := ⟨_, created_taken _ _ h⟩

theorem creates_tidbCluster (x : TidbCluster) :
    Creates srv (.createTidbCluster x) (fun s => s.tidbClusters x.metadata.key) x where
  free h := ⟨(), _, created_free _ _ h, Function.update_self ..⟩
  taken h := ⟨_, created_taken _ _ h⟩

end Kinds

/-! ### A create that is served -/

/-- **After a create that is taken for a success**: the name was free and the new object is there,
or it was taken and nothing has changed. -/
theorem Creates.served {srv : Server} {q : ApiRequest} {α : Type} {get : Store → Option α} {a : α}
    {s s' : Store} {r : Except KubeError q.Object} (hq : Creates srv q get a)
    (hs : Serves srv (.api q) s r s') (hr : Established r) :
    (get s = none ∧ get s' = some a) ∨ ((get s).isSome ∧ s' = s) := by
  rcases hs with hans | ⟨e, hfault, rfl, -⟩
  · cases hget : get s with
    | none =>
      obtain ⟨o, t, hfree, ht⟩ := hq.free hget
      obtain rfl : s' = t := congrArg Prod.snd (hans.trans hfree)
      exact .inl ⟨rfl, ht⟩
    | some b =>
      obtain ⟨text, htaken⟩ := hq.taken hget
      exact .inr ⟨rfl, congrArg Prod.snd (hans.trans htaken)⟩
  · -- a fault is not the answer that a name is taken
    have hcode := hr e rfl
    rw [hfault.1] at hcode
    cases hcode

end SdbController
