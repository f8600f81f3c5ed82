import Mathlib.Data.List.Nodup
import SdbController.Json.Document

/-!
# JSON merge patches

A merge patch is a document. Where it is an object it is merged member by member, and a member that
is `null` is removed; where it is anything else it replaces its target. What the patch does not
mention stays.

## Main results

* `lookup_mergeMembers` — what becomes of one member
* `get_mergeAt_cons` — a path into the merged document, one token down
-/

namespace Json

/-- Remove the members with the given name. -/
def removeMember (name : String) (ms : List (String × Document)) : List (String × Document) :=
  ms.filter fun m => m.1 ≠ name

/-- Write a value over the member with the given name, or add it. -/
def putMember (name : String) (v : Document) (ms : List (String × Document)) :
    List (String × Document) :=
  if (ms.lookup name).isSome then setMember name v ms else ms ++ [(name, v)]

namespace Document

/-- The members of a target. What is no object counts as an empty one. -/
def members : Option Document → List (String × Document)
  | some (obj ms) => ms
  | _ => []

mutual

/-- The target, if there is one, merged with a patch. -/
def mergeAt (target : Option Document) : Document → Document
  | obj patch => obj (mergeMembers (members target) patch)
  | null => null
  | bool b => bool b
  | num n => num n
  | str s => str s
  | arr items => arr items

/-- The members of a target merged with those of a patch. -/
def mergeMembers (ms : List (String × Document)) :
    List (String × Document) → List (String × Document)
  | [] => ms
  | (name, null) :: patch => mergeMembers (removeMember name ms) patch
  | (name, v) :: patch => mergeMembers (putMember name (mergeAt (ms.lookup name) v) ms) patch

end

/-- A document merged with a patch. -/
def merge (d patch : Document) : Document := mergeAt (some d) patch

/-- What becomes of one member, by what the patch has for it. -/
def mergeMember (old : Option Document) : Option Document → Option Document
  | none => old
  | some null => none
  | some v => some (mergeAt old v)

end Document

/-! ### One member -/

section Members

variable {name name' : String} {v : Document} {ms : List (String × Document)}

theorem lookup_removeMember_self : (removeMember name ms).lookup name = none := by
  induction ms with
  | nil => rfl
  | cons m ms ih =>
    rw [removeMember]
    by_cases hm : m.1 = name
    · rw [List.filter_cons_of_neg (by simpa using hm)]
      exact ih
    · rw [List.filter_cons_of_pos (by simpa using hm), List.lookup_cons,
        beq_false_of_ne (Ne.symm hm)]
      exact ih

theorem lookup_removeMember_of_ne (hne : name' ≠ name) :
    (removeMember name ms).lookup name' = ms.lookup name' := by
  induction ms with
  | nil => rfl
  | cons m ms ih =>
    rw [removeMember]
    by_cases hm : m.1 = name
    · rw [List.filter_cons_of_neg (by simpa using hm), List.lookup_cons, beq_false_of_ne (hm ▸ hne)]
      exact ih
    · rw [List.filter_cons_of_pos (by simpa using hm), List.lookup_cons, List.lookup_cons]
      cases name' == m.1 with
      | true => rfl
      | false => exact ih

theorem lookup_putMember_self : (putMember name v ms).lookup name = some v := by
  rw [putMember]
  split
  · next h => exact lookup_setMember_self h
  · next h =>
    rw [List.lookup_append, Option.not_isSome_iff_eq_none.mp h, List.lookup_cons_self]
    rfl

theorem lookup_putMember_of_ne (hne : name' ≠ name) :
    (putMember name v ms).lookup name' = ms.lookup name' := by
  rw [putMember]
  split
  · exact lookup_setMember_of_ne hne v ms
  · rw [List.lookup_append, List.lookup_cons, beq_false_of_ne hne]
    exact Option.or_none

end Members

namespace Document

/-- **What becomes of one member**, if the patch names no member twice. -/
theorem lookup_mergeMembers {patch : List (String × Document)}
    (hpatch : (patch.map Prod.fst).Nodup) (ms : List (String × Document)) (name : String) :
    (mergeMembers ms patch).lookup name = mergeMember (ms.lookup name) (patch.lookup name) := by
  induction patch generalizing ms with
  | nil => rw [mergeMembers, List.lookup_nil, mergeMember]
  | cons m patch ih =>
    obtain ⟨first, v⟩ := m
    rw [List.map_cons, List.nodup_cons] at hpatch
    obtain ⟨hfirst, hpatch⟩ := hpatch
    rcases eq_or_ne name first with rfl | hne
    · -- the rest of the patch does not name the member
      have hrest : patch.lookup name = none := by
        rw [List.lookup_eq_none_iff]
        rintro p hp
        refine bne_iff_ne.mpr fun heq => hfirst ?_
        rw [heq]
        exact List.mem_map.mpr ⟨p, hp, rfl⟩
      rw [List.lookup_cons_self]
      by_cases hv : v = null
      · subst hv
        rw [mergeMembers, ih hpatch, hrest, lookup_removeMember_self, mergeMember, mergeMember]
      · rw [mergeMembers, ih hpatch, hrest, lookup_putMember_self, mergeMember, mergeMember]
        · exact hv
        · exact hv
    · rw [List.lookup_cons, beq_false_of_ne hne]
      by_cases hv : v = null
      · subst hv
        rw [mergeMembers, ih hpatch, lookup_removeMember_of_ne hne]
      · rw [mergeMembers, ih hpatch, lookup_putMember_of_ne hne]
        exact hv

/-- **A path into the merged document**, one token down. -/
theorem get_mergeAt_cons {patch : List (String × Document)} (hpatch : (patch.map Prod.fst).Nodup)
    (target : Option Document) (token : String) (path : List String) :
    get (token :: path) (mergeAt target (obj patch)) =
      (mergeMember ((members target).lookup token) (patch.lookup token)).bind (get path) := by
  rw [mergeAt, get, child, lookup_mergeMembers hpatch]

end Document

end Json
