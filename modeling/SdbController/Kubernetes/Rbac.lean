import Mathlib.Data.List.Basic

/-!
# Role-based access control

What the authorizer of a Kubernetes API server is asked about a request, and what it answers from
the rules of a role. A role only grants: what no rule grants is forbidden. A rule about the objects
of a kind says nothing about their subresources, which are listed under names of their own.

The rules here have neither resource names nor paths outside the API.

## Main definitions

* `Access`, `PolicyRule`, `Role` — what is asked, and what a role says about it
* `Role.Grants` — what the authorizer answers
-/

namespace Kubernetes

/-- A request, as the authorizer sees it: a verb, and a kind of object or a subresource of it. -/
structure Access where
  verb : String
  group : String
  resource : String
  subresource : Option String := none
deriving DecidableEq, Repr

structure PolicyRule where
  apiGroups : List String
  resources : List String
  verbs : List String
deriving DecidableEq, Repr

/-- The entry is listed, or every entry is. -/
def Lists (l : List String) (x : String) : Prop := x ∈ l ∨ "*" ∈ l

instance (l : List String) (x : String) : Decidable (Lists l x) :=
  inferInstanceAs (Decidable (_ ∨ _))

/-- The entry that lists what the request is about. -/
def Access.entry (a : Access) : String :=
  match a.subresource with
  | none => a.resource
  | some sub => a.resource ++ "/" ++ sub

/-- The rule is about the objects of the request. An entry `*/sub` is about a subresource of all
kinds. -/
def PolicyRule.Covers (r : PolicyRule) (a : Access) : Prop :=
  Lists r.resources a.entry ∨ ∃ sub ∈ a.subresource, "*/" ++ sub ∈ r.resources

instance (r : PolicyRule) (a : Access) : Decidable (r.Covers a) :=
  inferInstanceAs (Decidable (_ ∨ _))

def PolicyRule.Grants (r : PolicyRule) (a : Access) : Prop :=
  Lists r.verbs a.verb ∧ Lists r.apiGroups a.group ∧ r.Covers a

instance (r : PolicyRule) (a : Access) : Decidable (r.Grants a) :=
  inferInstanceAs (Decidable (_ ∧ _))

/-- The rules of a role. -/
abbrev Role : Type := List PolicyRule

namespace Role

variable {ρ ρ' : Role} {a : Access}

def Grants (ρ : Role) (a : Access) : Prop := ∃ r ∈ ρ, r.Grants a

instance (ρ : Role) (a : Access) : Decidable (ρ.Grants a) :=
  inferInstanceAs (Decidable (∃ r ∈ ρ, _))

/-- Roles add up. -/
theorem grants_append : Grants (ρ ++ ρ') a ↔ ρ.Grants a ∨ ρ'.Grants a := by
  simp [Grants, or_and_right, exists_or]

end Role

end Kubernetes
