import Mathlib.Data.List.Basic

/-!
# JSON documents and the `replace` operation

JSON documents, the values that a path of reference tokens leads to, and the JSON Patch operation
`replace`, which writes a value where there is one already. A token names a member of an object or,
in decimal, an item of an array.

## Main results

* `replace_isSome_iff` — `replace` succeeds if and only if its target exists
* `get_replace` — the target is the new value
* `get_replace_of_ne` — and what is beside it on the way is as before
-/

namespace Json

/-- A JSON document. The members of an object are kept in order. -/
inductive Document
  | null
  | bool (b : Bool)
  | num (n : Int)
  | str (s : String)
  | arr (items : List Document)
  | obj (members : List (String × Document))

/-! ### Pointers -/

/-- The escapes of a reference token. -/
def unescape : List Char → List Char
  | '~' :: '1' :: cs => '/' :: unescape cs
  | '~' :: '0' :: cs => '~' :: unescape cs
  | c :: cs => c :: unescape cs
  | [] => []

/-- The reference tokens of a JSON pointer. -/
def pointer (s : String) : List String :=
  ((s.toList.splitOn '/').drop 1).map fun t => String.ofList (unescape t)

/-- The position that a token names in an array of the given length. -/
def position (length : ℕ) (token : String) : Option ℕ :=
  (List.range length).find? fun i => toString i = token

/-! ### Reading and replacing -/

/-- Write a value over the first member with the given name. -/
def setMember (name : String) (v : Document) :
    List (String × Document) → List (String × Document)
  | [] => []
  | m :: ms => if m.1 = name then (name, v) :: ms else m :: setMember name v ms

namespace Document

/-- What a token leads to. -/
def child (token : String) : Document → Option Document
  | arr items => (position items.length token).bind fun i => items[i]?
  | obj members => members.lookup token
  | _ => none

/-- Write over what a token leads to, if it leads anywhere. -/
def setChild (d : Document) (token : String) (v : Document) : Document :=
  match d with
  | arr items =>
    match position items.length token with
    | some i => arr (items.set i v)
    | none => arr items
  | obj members => obj (setMember token v members)
  | d => d

/-- What a path leads to. -/
def get : List String → Document → Option Document
  | [], d => some d
  | token :: path, d => (d.child token).bind (get path)

/-- What an optional field is read as: `null` counts as absent. -/
def optional (path : List String) (d : Document) : Option Document :=
  match get path d with
  | some null => none
  | v => v

/-- The operation `replace`. -/
def replace : List String → Document → Document → Option Document
  | [], v, _ => some v
  | token :: path, v, d =>
    (d.child token).bind fun old => (replace path v old).map fun new => d.setChild token new

end Document

/-! ### One token -/

theorem lookup_setMember_self {name : String} {v : Document} {ms : List (String × Document)}
    (h : (ms.lookup name).isSome) : (setMember name v ms).lookup name = some v := by
  induction ms with
  | nil => cases h
  | cons m ms ih =>
    rw [setMember]
    by_cases hm : m.1 = name
    · rw [if_pos hm, List.lookup_cons_self]
    · rw [if_neg hm]
      have hne : (name == m.1) = false := beq_false_of_ne (Ne.symm hm)
      rw [List.lookup_cons, hne] at h ⊢
      exact ih h

theorem lookup_setMember_of_ne {name name' : String} (hne : name' ≠ name) (v : Document)
    (ms : List (String × Document)) : (setMember name v ms).lookup name' = ms.lookup name' := by
  induction ms with
  | nil => rfl
  | cons m ms ih =>
    rw [setMember]
    by_cases hm : m.1 = name
    · rw [if_pos hm, List.lookup_cons, List.lookup_cons, beq_false_of_ne hne,
        beq_false_of_ne (hm ▸ hne)]
    · rw [if_neg hm, List.lookup_cons, List.lookup_cons, ih]

theorem setMember_append {name : String} {v : Document} {ms : List (String × Document)}
    (h : ms.lookup name = none) (ms' : List (String × Document)) :
    setMember name v (ms ++ ms') = ms ++ setMember name v ms' := by
  induction ms with
  | nil => rfl
  | cons m ms ih =>
    by_cases hm : m.1 = name
    · obtain rfl := hm
      rw [List.lookup_cons_self] at h
      cases h
    · rw [List.lookup_cons, beq_false_of_ne (Ne.symm hm)] at h
      rw [List.cons_append, setMember, if_neg hm, ih h, List.cons_append]

theorem position_lt {length i : ℕ} {token : String} (h : position length token = some i) :
    i < length := List.mem_range.mp (List.mem_of_find?_eq_some h)

theorem position_token {length i : ℕ} {token : String} (h : position length token = some i) :
    toString i = token := by
  simpa using List.find?_some h

/-- A token that is no number names no item. -/
theorem position_eq_none {length : ℕ} {token : String} {c : Char} (hc : c ∈ token.toList)
    (hdigit : c.isDigit = false) : position length token = none := by
  refine Option.eq_none_iff_forall_ne_some.mpr fun i hi => ?_
  rw [← position_token hi, Nat.toString_eq_repr, Nat.toList_repr] at hc
  rw [Nat.isDigit_of_mem_toDigits (by decide) (by decide) hc] at hdigit
  cases hdigit

namespace Document

variable {token token' : String} {v d d' : Document} {path : List String}

theorem child_setChild (h : (d.child token).isSome) :
    (d.setChild token v).child token = some v := by
  cases d with
  | arr items =>
    cases hi : position items.length token with
    | none =>
      rw [child, hi] at h
      cases h
    | some i =>
      rw [setChild, hi]
      dsimp only
      rw [child, List.length_set, hi, Option.bind_some]
      exact List.getElem?_set_self (position_lt hi)
  | obj members => exact lookup_setMember_self h
  | null => cases h
  | bool b => cases h
  | num n => cases h
  | str s => cases h

theorem child_setChild_of_ne (hne : token' ≠ token) :
    (d.setChild token v).child token' = d.child token' := by
  cases d with
  | arr items =>
    cases hi : position items.length token with
    | none => rw [setChild, hi]
    | some i =>
      rw [setChild, hi]
      dsimp only
      rw [child, List.length_set, child]
      refine Option.bind_congr fun j hj => List.getElem?_set_ne fun hij => hne ?_
      rw [← position_token hj, ← position_token hi, hij]
  | obj members => exact lookup_setMember_of_ne hne v members
  | null => rfl
  | bool b => rfl
  | num n => rfl
  | str s => rfl

/-! ### A path -/

theorem optional_eq_none : optional path d = none ↔ get path d = none ∨ get path d = some null := by
  rw [optional]
  cases get path d with
  | none => simp
  | some v => cases v <;> simp

theorem optional_congr (h : get path d' = get path d) : optional path d' = optional path d := by
  rw [optional, h, optional]

/-- **When `replace` succeeds**: its target exists. -/
theorem replace_isSome_iff : (replace path v d).isSome ↔ (get path d).isSome := by
  induction path generalizing d with
  | nil => exact iff_of_true rfl rfl
  | cons token path ih =>
    rw [replace, get]
    cases d.child token with
    | none => exact Iff.rfl
    | some old => simpa using ih

/-- What `replace` comes to, one token down. -/
theorem replace_cons (h : replace (token :: path) v d = some d') :
    ∃ old new, d.child token = some old ∧ replace path v old = some new ∧
      d' = d.setChild token new := by
  rw [replace] at h
  obtain ⟨old, hold, hmap⟩ := Option.bind_eq_some_iff.mp h
  obtain ⟨new, hnew, rfl⟩ := Option.map_eq_some_iff.mp hmap
  exact ⟨old, new, hold, hnew, rfl⟩

/-- **The target is the new value.** -/
theorem get_replace (h : replace path v d = some d') : get path d' = some v := by
  induction path generalizing d d' with
  | nil => exact h.symm
  | cons token path ih =>
    obtain ⟨old, new, hold, hnew, rfl⟩ := replace_cons h
    rw [get, child_setChild (by rw [hold]; rfl), Option.bind_some]
    exact ih hnew

/-- **What is beside the target, or beside the way to it, is as before.** -/
theorem get_replace_of_ne (path : List String) {rest rest' : List String} (hne : token' ≠ token)
    (h : replace (path ++ token :: rest) v d = some d') :
    get (path ++ token' :: rest') d' = get (path ++ token' :: rest') d := by
  induction path generalizing d d' with
  | nil =>
    obtain ⟨old, new, -, -, rfl⟩ := replace_cons h
    rw [List.nil_append, get, get, child_setChild_of_ne hne]
  | cons first path ih =>
    obtain ⟨old, new, hold, hnew, rfl⟩ := replace_cons h
    rw [List.cons_append, get, get, child_setChild (by rw [hold]; rfl), hold, Option.bind_some,
      Option.bind_some]
    exact ih hnew

end Document

end Json
