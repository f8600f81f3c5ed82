import Mathlib.Data.List.Infix
import SdbController.Json.Document

/-!
# Structural schemas and pruning

An API server that stores documents under a structural schema removes what the schema does not
specify. A member is pruned by the schema of its property, or by that of additional properties; a
member that is specified by neither is removed, unless the schema preserves unknown fields, and then
it is kept as it is, with everything below it.

Two things that an API server does besides are left out. A schema that preserves unknown fields
keeps the items of an array as well, which here are pruned by the schema of the items. And a null
that is stored for a member that is not nullable is removed in the end.

`Schema.relax` is the one change to a schema that is of interest here: it sets a property, at the
end of a path, to one of which nothing is specified and all is preserved. `values` is what there is
in a document along a path, and `forget` the document without it.

## Main results

* `forget_prune` — what is removed before pruning may as well be removed after it
* `forget_prune_relax` — off the path, pruning is as before
* `values_prune` — on the path, nothing is pruned
-/

namespace Json

/-- A structural schema, as far as it decides about pruning. The rest is in `other`. -/
structure Schema where
  properties : Option (List (String × Schema)) := none
  additionalProperties : Option (Option Schema) := none
  items : Option (Schema ⊕ List Schema) := none
  preserveUnknownFields : Option Bool := none
  other : List (String × Document) := []

/-- What becomes of a member. -/
inductive Fate
  | drop
  | keep
  | prune (s : Option Schema)

namespace Schema

/-- The schema of a property. -/
def property (s : Schema) (name : String) : Option Schema := s.properties.bind (·.lookup name)

/-- What the schema does with a member. -/
def fate (s : Schema) (name : String) : Fate :=
  match s.property name with
  | some p => .prune (some p)
  | none =>
    match s.additionalProperties with
    | some a => .prune a
    | none => if s.preserveUnknownFields = some true then .keep else .drop

/-- The schema of the items of an array, if there is one for all of them. -/
def item (s : Schema) : Option Schema := s.items.bind (·.getLeft?)

end Schema

/-- What becomes of a member if there may be no schema. -/
def fateOf (s : Option Schema) (name : String) : Fate := s.elim .drop (·.fate name)

namespace Document

mutual

/-- The document without what is not specified. -/
def prune (s : Option Schema) : Document → Document
  | obj ms => obj (pruneMembers s ms)
  | arr items => arr (pruneItems (s.bind Schema.item) items)
  | null => null
  | bool b => bool b
  | num n => num n
  | str t => str t

def pruneMembers (s : Option Schema) : List (String × Document) → List (String × Document)
  | [] => []
  | (name, v) :: ms =>
    match fateOf s name with
    | .drop => pruneMembers s ms
    | .keep => (name, v) :: pruneMembers s ms
    | .prune s' => (name, prune s' v) :: pruneMembers s ms

def pruneItems (s : Option Schema) : List Document → List Document
  | [] => []
  | v :: items => prune s v :: pruneItems s items

end

/-- What is left of a member. -/
def result (v : Document) : Fate → Option Document
  | .drop => none
  | .keep => some v
  | .prune s => some (prune s v)

variable {s : Option Schema} {name : String} {v : Document}

theorem pruneMembers_eq (ms : List (String × Document)) :
    pruneMembers s ms = ms.filterMap fun m => (m.2.result (fateOf s m.1)).map (m.1, ·) := by
  induction ms with
  | nil => rfl
  | cons m ms ih =>
    obtain ⟨name, v⟩ := m
    rw [pruneMembers, List.filterMap_cons]
    cases fateOf s name <;> simp [result, ih]

theorem pruneItems_eq (items : List Document) : pruneItems s items = items.map (prune s) := by
  induction items with
  | nil => rfl
  | cons v items ih => rw [pruneItems, List.map_cons, ih]

end Document

/-! ### Paths -/

/-- To a member, or to every item. -/
inductive Step
  | member (name : String)
  | items
deriving DecidableEq, Repr

namespace Document

/-- What there is in a document along a path. -/
def values : List Step → Document → List Document
  | [], d => [d]
  | .member name :: path, obj ms => ms.flatMap fun m => if m.1 = name then values path m.2 else []
  | .items :: path, arr items => items.flatMap (values path)
  | _ :: _, _ => []

/-- The document without what there is along a path. -/
def forget : List Step → Document → Option Document
  | [], _ => none
  | .member name :: path, obj ms =>
    some (obj (ms.filterMap fun m => if m.1 = name then (forget path m.2).map (m.1, ·) else some m))
  | .items :: path, arr items => some (arr (items.filterMap (forget path)))
  | _ :: _, d => some d

/-- The document without what there is along any of the paths. -/
def forgetAll (paths : List (List Step)) (d : Document) : Option Document :=
  paths.foldlM (fun d path => forget path d) d

end Document

/-! ### Removing and pruning -/

namespace Document

section Forget

variable {s : Option Schema} {d d' : Document} {path : List Step}

/-- **What is removed before pruning may as well be removed after it.** -/
theorem forget_prune (path : List Step) (s : Option Schema) (d : Document) :
    forget path (prune s d) = (forget path d).map (prune s) := by
  induction path generalizing s d with
  | nil => rfl
  | cons step path ih =>
    cases step with
    | member name =>
      cases d with
      | obj ms =>
        rw [prune, forget, forget, Option.map_some, prune, pruneMembers_eq, pruneMembers_eq,
          List.filterMap_filterMap, List.filterMap_filterMap]
        refine congrArg (fun ms => some (obj ms)) (List.filterMap_congr fun m _ => ?_)
        obtain ⟨name', v⟩ := m
        by_cases hm : name' = name
        · subst hm
          cases hf : fateOf s name' with
          | drop => cases forget path v <;> simp [hf, result]
          | keep => cases hv : forget path v <;> simp [hf, hv, result]
          | prune s' => cases hv : forget path v <;> simp [hf, hv, result, ih]
        · cases hr : v.result (fateOf s name') <;> simp [hm, hr]
      | _ => rfl
    | items =>
      cases d with
      | arr items =>
        rw [prune, forget, forget, Option.map_some, prune, pruneItems_eq, pruneItems_eq,
          List.filterMap_map, List.map_filterMap]
        exact congrArg (fun items => some (arr items)) (List.filterMap_congr fun v _ => ih _ v)
      | _ => rfl

theorem forgetAll_cons (path : List Step) (paths : List (List Step)) (d : Document) :
    forgetAll (path :: paths) d = (forget path d).bind (forgetAll paths) := rfl

end Forget

end Document

/-! ### Relaxing a schema -/

section Entries

variable {α : Type} {name name' : String} {v : α} {f : α → α} {ms : List (String × α)}

/-- Put an entry in place of the one with the given name, or add it. -/
def insertEntry (name : String) (v : α) : List (String × α) → List (String × α)
  | [] => [(name, v)]
  | m :: ms => if m.1 = name then (name, v) :: ms else m :: insertEntry name v ms

/-- Change the entry with the given name, if there is one. -/
def modifyEntry (name : String) (f : α → α) (ms : List (String × α)) : List (String × α) :=
  ms.map fun m => if m.1 = name then (m.1, f m.2) else m

theorem lookup_insertEntry_self : (insertEntry name v ms).lookup name = some v := by
  induction ms with
  | nil => exact List.lookup_cons_self
  | cons m ms ih =>
    rw [insertEntry]
    by_cases hm : m.1 = name
    · rw [if_pos hm, List.lookup_cons_self]
    · rw [if_neg hm, List.lookup_cons, beq_false_of_ne (Ne.symm hm)]
      exact ih

theorem lookup_insertEntry_of_ne (hne : name' ≠ name) :
    (insertEntry name v ms).lookup name' = ms.lookup name' := by
  induction ms with
  | nil => rw [insertEntry, List.lookup_cons, beq_false_of_ne hne]
  | cons m ms ih =>
    rw [insertEntry]
    by_cases hm : m.1 = name
    · rw [if_pos hm, List.lookup_cons, List.lookup_cons, beq_false_of_ne hne,
        beq_false_of_ne (hm ▸ hne)]
    · rw [if_neg hm, List.lookup_cons, List.lookup_cons, ih]

theorem lookup_modifyEntry_self :
    (modifyEntry name f ms).lookup name = (ms.lookup name).map f := by
  induction ms with
  | nil => rfl
  | cons m ms ih =>
    rw [modifyEntry, List.map_cons, List.lookup_cons, List.lookup_cons]
    by_cases hm : m.1 = name
    · obtain rfl := hm
      simp
    · simp only [if_neg hm, beq_false_of_ne (Ne.symm hm)]
      exact ih

theorem lookup_modifyEntry_of_ne (hne : name' ≠ name) :
    (modifyEntry name f ms).lookup name' = ms.lookup name' := by
  induction ms with
  | nil => rfl
  | cons m ms ih =>
    rw [modifyEntry, List.map_cons, List.lookup_cons, List.lookup_cons]
    by_cases hm : m.1 = name
    · simp only [if_pos hm, beq_false_of_ne (hm ▸ hne)]
      exact ih
    · simp only [if_neg hm]
      cases name' == m.1
      · exact ih
      · rfl

theorem modifyEntry_modifyEntry (g : α → α) :
    modifyEntry name g (modifyEntry name f ms) = modifyEntry name (g ∘ f) ms := by
  rw [modifyEntry, modifyEntry, modifyEntry, List.map_map]
  refine List.map_congr_left fun m _ => ?_
  by_cases hm : m.1 = name <;> simp [hm]

end Entries

namespace Schema

/-- Nothing is specified, and everything is preserved. -/
def unknown : Schema := { preserveUnknownFields := some true }

def insertProperty (s : Schema) (name : String) (p : Schema) : Schema :=
  { s with properties := some (insertEntry name p (s.properties.getD [])) }

def modifyProperty (s : Schema) (name : String) (f : Schema → Schema) : Schema :=
  { s with properties := s.properties.map (modifyEntry name f) }

/-- Change the schema of all items, which is an empty one if there was none. -/
def modifyItem (s : Schema) (f : Schema → Schema) : Schema :=
  match s.items with
  | none => { s with items := some (.inl (f {})) }
  | some (.inl x) => { s with items := some (.inl (f x)) }
  | some (.inr _) => s

/-- Set the property at the end of a path to one of which nothing is specified. A property on the
way has to be there. -/
def relax : List Step → Schema → Schema
  | [], _ => unknown
  | [.member name], s => s.insertProperty name unknown
  | .member name :: path, s => s.modifyProperty name (relax path)
  | .items :: path, s => s.modifyItem (relax path)

theorem relax_member_cons (name : String) (step : Step) (path : List Step) (s : Schema) :
    s.relax (.member name :: step :: path) = s.modifyProperty name (relax (step :: path)) := rfl

variable {s p : Schema} {name name' : String} {f : Schema → Schema}

theorem modifyProperty_modifyProperty (g : Schema → Schema) :
    (s.modifyProperty name f).modifyProperty name g = s.modifyProperty name (g ∘ f) := by
  rw [modifyProperty, modifyProperty, modifyProperty, Option.map_map]
  exact congrArg (fun o => { s with properties := o })
    (Option.map_congr fun ms _ => modifyEntry_modifyEntry g)

@[simp] theorem property_insertProperty_self :
    (s.insertProperty name p).property name = some p := by
  rw [insertProperty, property]
  exact lookup_insertEntry_self

theorem property_insertProperty_of_ne (hne : name' ≠ name) :
    (s.insertProperty name p).property name' = s.property name' := by
  rw [insertProperty, property, property, Option.bind_some, lookup_insertEntry_of_ne hne]
  cases s.properties <;> rfl

@[simp] theorem property_modifyProperty_self :
    (s.modifyProperty name f).property name = (s.property name).map f := by
  rw [modifyProperty, property, property]
  cases s.properties with
  | none => rfl
  | some ms => exact lookup_modifyEntry_self

theorem property_modifyProperty_of_ne (hne : name' ≠ name) :
    (s.modifyProperty name f).property name' = s.property name' := by
  rw [modifyProperty, property, property]
  cases s.properties with
  | none => rfl
  | some ms => exact lookup_modifyEntry_of_ne hne

theorem fate_eq_of_property {s s' : Schema} (h : s'.property name = s.property name)
    (ha : s'.additionalProperties = s.additionalProperties)
    (hp : s'.preserveUnknownFields = s.preserveUnknownFields) : s'.fate name = s.fate name := by
  rw [fate, fate, h, ha, hp]

theorem fate_relax_of_ne (hne : name' ≠ name) (path : List Step) :
    (s.relax (.member name :: path)).fate name' = s.fate name' := by
  cases path with
  | nil => exact fate_eq_of_property (property_insertProperty_of_ne hne) rfl rfl
  | cons step path => exact fate_eq_of_property (property_modifyProperty_of_ne hne) rfl rfl

theorem fate_relax_items (path : List Step) :
    (s.relax (.items :: path)).fate name = s.fate name := by
  rw [relax, modifyItem]
  split <;> rfl

theorem item_relax_member (path : List Step) : (s.relax (.member name :: path)).item = s.item := by
  cases path <;> rfl

end Schema

/-! ### Off the path -/

namespace Document

variable {s : Schema} {name : String}

/-- An empty schema is as good as none. -/
theorem prune_empty (d : Document) : prune (some {}) d = prune none d := by
  cases d with
  | obj ms =>
    have hmembers : pruneMembers (some {}) ms = pruneMembers none ms := by
      rw [pruneMembers_eq, pruneMembers_eq]
      rfl
    exact congrArg obj hmembers
  | _ => rfl

/-- What is left of a member, after what there is along a path has been removed from it. -/
theorem result_bind_forget_relax {path : List Step}
    (ih : ∀ (s : Schema) d, forget path (prune (some (s.relax path)) d) =
      forget path (prune (some s) d)) (v : Document) :
    (v.result ((s.relax (.member name :: path)).fate name)).bind (forget path) =
      (v.result (s.fate name)).bind (forget path) := by
  cases path with
  | nil =>
    have hnone (o : Option Document) : o.bind (forget []) = none := by
      cases o <;> rfl
    rw [hnone, hnone]
  | cons step path =>
    have hproperty : (s.relax (.member name :: step :: path)).property name =
        (s.property name).map (Schema.relax (step :: path)) := Schema.property_modifyProperty_self
    cases hp : s.property name with
    | none =>
      rw [hp] at hproperty
      rw [Schema.fate_eq_of_property (hproperty.trans hp.symm) rfl rfl]
    | some x =>
      rw [Schema.fate, hproperty, hp, Schema.fate, hp]
      exact ih x v

/-- **Off the path, pruning is as before.** -/
theorem forget_prune_relax (path : List Step) (s : Schema) (d : Document) :
    forget path (prune (some (s.relax path)) d) = forget path (prune (some s) d) := by
  induction path generalizing s d with
  | nil => rfl
  | cons step path ih =>
    cases step with
    | member name =>
      cases d with
      | obj ms =>
        rw [prune, prune, forget, forget, pruneMembers_eq, pruneMembers_eq,
          List.filterMap_filterMap, List.filterMap_filterMap]
        refine congrArg (fun ms => some (obj ms)) (List.filterMap_congr fun m _ => ?_)
        obtain ⟨name', v⟩ := m
        by_cases hm : name' = name
        · subst hm
          have hbind (o : Option Document) :
              ((o.map (name', ·)).bind fun m =>
                if m.1 = name' then (forget path m.2).map (m.1, ·) else some m) =
                  (o.bind (forget path)).map (name', ·) := by
            cases o <;> simp
          rw [hbind, hbind]
          exact congrArg (Option.map (name', ·)) (result_bind_forget_relax ih v)
        · dsimp only [fateOf, Option.elim]
          rw [Schema.fate_relax_of_ne hm]
      | arr items =>
        rw [prune, prune, Option.bind_some, Option.bind_some, Schema.item_relax_member]
      | _ => rfl
    | items =>
      cases d with
      | arr items =>
        rw [prune, prune, forget, forget, pruneItems_eq, pruneItems_eq, List.filterMap_map,
          List.filterMap_map]
        refine congrArg (fun items => some (arr items)) (List.filterMap_congr fun v _ => ?_)
        rw [Schema.relax, Function.comp_apply, Function.comp_apply, Option.bind_some,
          Option.bind_some, Schema.modifyItem, Schema.item]
        rcases hi : s.items with _ | x | x
        · have hempty := ih {} v
          rw [prune_empty] at hempty
          rw [Schema.item, hi]
          exact hempty
        · rw [Schema.item, hi]
          exact ih x v
        · rw [Schema.item]
      | obj ms =>
        rw [prune, prune, pruneMembers_eq, pruneMembers_eq]
        dsimp only [fateOf, Option.elim]
        simp only [Schema.fate_relax_items]
      | _ => rfl

end Document

/-- The schema relaxed along several paths. -/
def Schema.relaxAll (s : Schema) (paths : List (List Step)) : Schema :=
  paths.foldl (fun s path => s.relax path) s

/-- **Off several paths, pruning is as before.** -/
theorem Document.forgetAll_prune_relaxAll (paths : List (List Step)) (s : Schema) (d : Document) :
    forgetAll paths (prune (some (s.relaxAll paths)) d) = forgetAll paths (prune (some s) d) := by
  induction paths generalizing s d with
  | nil => rfl
  | cons path paths ih =>
    have hall (s' : Schema) : (forget path (prune (some s') d)).bind (forgetAll paths) =
        (forget path d).bind fun d' => forgetAll paths (prune (some s') d') := by
      rw [forget_prune, Option.bind_map]
      rfl
    rw [forgetAll_cons, forgetAll_cons]
    calc (forget path (prune (some ((s.relax path).relaxAll paths)) d)).bind (forgetAll paths)
        = (forget path d).bind fun d' =>
            forgetAll paths (prune (some ((s.relax path).relaxAll paths)) d') := hall _
      _ = (forget path d).bind fun d' => forgetAll paths (prune (some (s.relax path)) d') :=
          Option.bind_congr fun d' _ => ih _ d'
      _ = (forget path (prune (some (s.relax path)) d)).bind (forgetAll paths) := (hall _).symm
      _ = (forget path (prune (some s) d)).bind (forgetAll paths) := by rw [forget_prune_relax]

/-! ### On the path -/

namespace Schema

/-- At the end of the path nothing is specified, and everything is preserved. -/
def Relaxed : List Step → Option Schema → Prop
  | [], s => s = some unknown
  | .member name :: path, s => ∃ x, fateOf s name = .prune (some x) ∧ Relaxed path (some x)
  | .items :: path, s => Relaxed path (s.bind item)

/-- There is a way along the path, up to its last step. -/
def Reaches : List Step → Schema → Prop
  | [], _ => True
  | [.member _], _ => True
  | .member name :: path, s => ∃ x, s.property name = some x ∧ Reaches path x
  | .items :: path, s => ∃ x, (s.items = none ∧ x = {} ∨ s.items = some (.inl x)) ∧ Reaches path x

/-- Neither path leads along the other. -/
def Apart (path path' : List Step) : Prop := ¬ path <+: path' ∧ ¬ path' <+: path

instance : DecidableRel Apart := fun _ _ => inferInstanceAs (Decidable (_ ∧ _))

variable {s : Schema} {path path' : List Step} {paths : List (List Step)} {step : Step}

theorem Apart.of_cons (h : Apart (step :: path) (step :: path')) : Apart path path' :=
  ⟨fun hp => h.1 (List.prefix_cons_inj step |>.mpr hp),
    fun hp => h.2 (List.prefix_cons_inj step |>.mpr hp)⟩

theorem Apart.symm (h : Apart path path') : Apart path' path := ⟨h.2, h.1⟩

theorem Apart.ne_nil (h : Apart path path') : path ≠ [] ∧ path' ≠ [] :=
  ⟨fun hp => h.1 (hp ▸ List.nil_prefix), fun hp => h.2 (hp ▸ List.nil_prefix)⟩

theorem not_relaxed_none : ¬ Relaxed path none := by
  induction path with
  | nil => rintro ⟨⟩
  | cons step path ih =>
    cases step with
    | member name =>
      rintro ⟨x, hx, -⟩
      cases hx
    | items => exact ih

theorem Reaches.relaxed (h : Reaches path s) : Relaxed path (some (s.relax path)) := by
  induction path generalizing s with
  | nil => rfl
  | cons step path ih =>
    cases step with
    | member name =>
      cases path with
      | nil =>
        refine ⟨unknown, ?_, rfl⟩
        dsimp only [fateOf, Option.elim]
        rw [relax, fate, property_insertProperty_self]
      | cons step path =>
        obtain ⟨x, hx, hreach⟩ := h
        refine ⟨x.relax (step :: path), ?_, ih hreach⟩
        dsimp only [fateOf, Option.elim]
        rw [relax_member_cons, fate, property_modifyProperty_self, hx]
        rfl
    | items =>
      obtain ⟨x, ⟨hitems, rfl⟩ | hitems, hreach⟩ := h
      · rw [Relaxed, relax, modifyItem, hitems]
        exact ih hreach
      · rw [Relaxed, relax, modifyItem, hitems]
        exact ih hreach

/-- What is relaxed stays so. -/
theorem Relaxed.relax (h : Relaxed path (some s)) (ha : Apart path path') :
    Relaxed path (some (s.relax path')) := by
  induction path generalizing s path' with
  | nil => exact absurd rfl ha.ne_nil.1
  | cons step path ih =>
    obtain ⟨step', path', rfl⟩ := List.exists_cons_of_ne_nil ha.ne_nil.2
    cases step with
    | member name =>
      obtain ⟨x, hx, hrest⟩ := h
      cases step' with
      | member name' =>
        by_cases hname : name = name'
        · subst hname
          have ha' := ha.of_cons
          obtain ⟨step', path', rfl⟩ := List.exists_cons_of_ne_nil ha'.ne_nil.2
          have hproperty : (s.relax (.member name :: step' :: path')).property name =
              (s.property name).map (Schema.relax (step' :: path')) := property_modifyProperty_self
          cases hp : s.property name with
          | none =>
            rw [hp] at hproperty
            exact ⟨x, (fate_eq_of_property (hproperty.trans hp.symm) rfl rfl).trans hx, hrest⟩
          | some y =>
            obtain rfl : y = x := by
              dsimp only [fateOf, Option.elim] at hx
              rw [fate, hp] at hx
              cases hx
              rfl
            refine ⟨y.relax (step' :: path'), ?_, ih hrest ha'⟩
            dsimp only [fateOf, Option.elim]
            rw [fate, hproperty, hp]
            rfl
        · exact ⟨x, (fate_relax_of_ne hname path').trans hx, hrest⟩
      | items => exact ⟨x, (fate_relax_items path').trans hx, hrest⟩
    | items =>
      cases step' with
      | member name' =>
        rw [Relaxed, Option.bind_some, item_relax_member]
        exact h
      | items =>
        rw [Relaxed, Option.bind_some, item] at h
        rw [Relaxed, Option.bind_some, Schema.relax, modifyItem, item]
        rcases hitems : s.items with _ | x | x <;> rw [hitems] at h
        · exact absurd h not_relaxed_none
        · exact ih h ha.of_cons
        · exact absurd h not_relaxed_none

/-- What is there stays there. -/
theorem Reaches.relax (h : Reaches path s) (ha : Apart path path') :
    Reaches path (s.relax path') := by
  induction path generalizing s path' with
  | nil => trivial
  | cons step path ih =>
    obtain ⟨step', path', rfl⟩ := List.exists_cons_of_ne_nil ha.ne_nil.2
    cases step with
    | member name =>
      cases path with
      | nil => trivial
      | cons step path =>
        obtain ⟨x, hx, hrest⟩ := h
        cases step' with
        | member name' =>
          by_cases hname : name = name'
          · subst hname
            have ha' := ha.of_cons
            obtain ⟨step', path', rfl⟩ := List.exists_cons_of_ne_nil ha'.ne_nil.2
            refine ⟨x.relax (step' :: path'), ?_, ih hrest ha'⟩
            rw [relax_member_cons, property_modifyProperty_self, hx]
            rfl
          · refine ⟨x, ?_, hrest⟩
            cases path' with
            | nil => exact (property_insertProperty_of_ne hname).trans hx
            | cons step' path' => exact (property_modifyProperty_of_ne hname).trans hx
        | items =>
          refine ⟨x, ?_, hrest⟩
          rw [Schema.relax, modifyItem]
          split <;> exact hx
    | items =>
      obtain ⟨x, hitems, hrest⟩ := h
      cases step' with
      | member name' =>
        refine ⟨x, ?_, hrest⟩
        cases path' <;> exact hitems
      | items =>
        refine ⟨x.relax path', .inr ?_, ih hrest ha.of_cons⟩
        rw [Schema.relax, modifyItem]
        rcases hitems with ⟨hnone, rfl⟩ | hsome
        · rw [hnone]
        · rw [hsome]

/-- Every one of several paths that do not lead along each other is relaxed. -/
theorem relaxed_relaxAll (hpaths : paths.Pairwise Apart) (hpath : path ∈ paths)
    (hreach : Reaches path s) : Relaxed path (some (s.relaxAll paths)) := by
  induction paths generalizing s with
  | nil => cases hpath
  | cons path' paths ih =>
    obtain ⟨hhead, htail⟩ := List.pairwise_cons.mp hpaths
    rcases List.mem_cons.mp hpath with rfl | hpath
    · have hstays (s : Schema) (hs : Relaxed path (some s)) (qs : List (List Step))
          (hqs : ∀ q ∈ qs, Apart path q) : Relaxed path (some (s.relaxAll qs)) := by
        induction qs generalizing s with
        | nil => exact hs
        | cons q qs ihq =>
          exact ihq _ (hs.relax (hqs q List.mem_cons_self))
            fun q' hq' => hqs q' (List.mem_cons_of_mem _ hq')
      exact hstays _ hreach.relaxed paths hhead
    · exact ih htail hpath (hreach.relax (hhead path hpath).symm)

end Schema

namespace Document

/-- Where nothing is specified, the members of an object are kept. The items of an array are not
specified either, and nothing preserves what is unknown in them. -/
theorem prune_unknown {d : Document} (h : ∀ items, d ≠ arr items) :
    prune (some Schema.unknown) d = d := by
  cases d with
  | obj ms =>
    rw [prune, pruneMembers_eq]
    refine congrArg obj (Eq.trans ?_ List.filterMap_some)
    rfl
  | arr items => exact absurd rfl (h items)
  | _ => rfl

/-- **On the path, what there is is pruned by a schema that specifies nothing.** -/
theorem values_prune {path : List Step} {s : Option Schema} (h : Schema.Relaxed path s)
    (d : Document) :
    values path (prune s d) = (values path d).map (prune (some Schema.unknown)) := by
  induction path generalizing s d with
  | nil =>
    obtain rfl : s = some Schema.unknown := h
    rfl
  | cons step path ih =>
    cases step with
    | member name =>
      obtain ⟨x, hx, hrest⟩ := h
      cases d with
      | obj ms =>
        rw [prune, values, values, List.map_flatMap]
        induction ms with
        | nil => rfl
        | cons m ms ihm =>
          obtain ⟨name', v⟩ := m
          rw [pruneMembers, List.flatMap_cons]
          by_cases hname : name' = name
          · subst hname
            rw [hx]
            dsimp only
            rw [List.flatMap_cons, if_pos rfl, if_pos rfl, ih hrest v, ihm]
          · rw [if_neg hname, List.map_nil, List.nil_append, ← ihm]
            cases fateOf s name' <;> dsimp only <;>
              rw [List.flatMap_cons, if_neg hname, List.nil_append]
      | _ => rfl
    | items =>
      cases d with
      | arr items =>
        rw [prune, values, values, pruneItems_eq, List.flatMap_map, List.map_flatMap]
        exact List.flatMap_congr fun v _ => ih h v
      | _ => rfl

end Document

end Json
