import SdbController.Json.Decoder
import SdbController.Json.Schema

/-!
# Validation

A structural schema says of a document what type it has, whether it may be `null`, which values and
which members are admitted. `Schema.admits` decides it, as far as the keywords that are looked at
here go: `type`, `nullable`, `enum`, `minimum`, `maximum` and `required`.

A schema and a decoder suit each other if what is admitted can be read, and what pruning removes is
not read; `SuitsIf` says of which documents this holds where it does not hold of all. A schema, a
way to write values and a decoder store a value if what is written is admitted, is not pruned, and
is read back.

## Main results

* `suits_object`, `suits_derived` — objects and structures, by their members
* `SuitsIf.required_iff`, `SuitsIf.defaulted_iff` — the members
* `stored_object`, `stored_derived` — what is written as an object is stored, if its members are
-/

namespace Json

namespace Document

def hasType (t : String) : Document → Bool
  | null => false
  | bool _ => t == "boolean"
  | num _ => t == "integer" || t == "number"
  | str _ => t == "string"
  | arr _ => t == "array"
  | obj _ => t == "object"

/-- The same scalar. Of objects and arrays, none are the same. -/
def same : Document → Document → Bool
  | null, null => true
  | bool a, bool b => a == b
  | num a, num b => a == b
  | str a, str b => a == b
  | _, _ => false

end Document

namespace Schema

open Document

/-- What the schema says under a keyword. -/
def keyword (s : Schema) (name : String) : Option Document := s.other.lookup name

def isNullable (s : Schema) : Bool := (s.keyword "nullable").any (·.same (bool true))

def permitsType (s : Schema) (d : Document) : Bool :=
  match s.keyword "type" with
  | some (str t) => d.hasType t || (s.isNullable && d.same null)
  | _ => true

def permitsValue (s : Schema) (d : Document) : Bool :=
  match s.keyword "enum" with
  | some (arr values) => values.any (·.same d)
  | _ => true

/-- Numbers are within bounds. -/
def permitsNumber (s : Schema) : Document → Bool
  | num n =>
    (match s.keyword "minimum" with
      | some (num lo) => decide (lo ≤ n)
      | _ => true) &&
    (match s.keyword "maximum" with
      | some (num hi) => decide (n ≤ hi)
      | _ => true)
  | _ => true

/-- The member has to be there. -/
def requires (s : Schema) (name : String) : Bool :=
  match s.keyword "required" with
  | some (arr names) => names.any (·.same (str name))
  | _ => false

def permitsMembers (s : Schema) : Document → Bool
  | obj ms =>
    match s.keyword "required" with
    | some (arr names) => names.all fun name => ms.any fun m => name.same (str m.1)
    | _ => true
  | _ => true

/-- What the schema says of a document, without what is below it. -/
def permits (s : Schema) (d : Document) : Bool :=
  s.permitsType d && s.permitsValue d && s.permitsNumber d && s.permitsMembers d

mutual

/-- The document is admitted. What is not specified is. -/
def admits (s : Schema) : Document → Bool
  | .obj ms => s.permits (.obj ms) && admitsMembers s ms
  | .arr items => s.permits (.arr items) && admitsItems s.item items
  | .null => s.permits .null
  | .bool b => s.permits (.bool b)
  | .num n => s.permits (.num n)
  | .str t => s.permits (.str t)

def admitsMembers (s : Schema) : List (String × Document) → Bool
  | [] => true
  | (name, v) :: ms =>
    (match s.fate name with
      | .prune (some p) => admits p v
      | _ => true) && admitsMembers s ms

def admitsItems (s : Option Schema) : List Document → Bool
  | [] => true
  | v :: items =>
    (match s with
      | some p => admits p v
      | none => true) && admitsItems s items

end

variable {s p : Schema} {d v : Document} {ms : List (String × Document)} {name t : String}

theorem permits_of_admits (h : s.admits d) : s.permits d := by
  cases d with
  | obj ms | arr items =>
    rw [admits, Bool.and_eq_true] at h
    exact h.1
  | _ => exact h

theorem admitsMembers_iff : s.admitsMembers ms ↔
    ∀ m ∈ ms, ∀ p, s.fate m.1 = .prune (some p) → p.admits m.2 := by
  induction ms with
  | nil => simp [admitsMembers]
  | cons m ms ih =>
    rw [admitsMembers, Bool.and_eq_true, ih, List.forall_mem_cons]
    refine and_congr_left fun _ => ?_
    rcases hfate : s.fate m.1 with _ | _ | _ | p <;> simp

theorem admits_of_mem (h : s.admits (obj ms)) (hm : (name, v) ∈ ms)
    (hp : s.property name = some p) : p.admits v := by
  rw [admits, Bool.and_eq_true] at h
  exact admitsMembers_iff.mp h.2 _ hm p (by rw [fate, hp])

theorem permitsType_of_admits (h : s.admits d) : s.permitsType d := by
  have hp := permits_of_admits h
  simp only [permits, Bool.and_eq_true] at hp
  exact hp.1.1.1

theorem permitsValue_of_admits (h : s.admits d) : s.permitsValue d := by
  have hp := permits_of_admits h
  simp only [permits, Bool.and_eq_true] at hp
  exact hp.1.1.2

theorem permitsNumber_of_admits (h : s.admits d) : s.permitsNumber d := by
  have hp := permits_of_admits h
  simp only [permits, Bool.and_eq_true] at hp
  exact hp.1.2

theorem permitsMembers_of_admits (h : s.admits d) : s.permitsMembers d := by
  have hp := permits_of_admits h
  simp only [permits, Bool.and_eq_true] at hp
  exact hp.2

theorem same_str (h : v.same (str t)) : v = str t := by
  cases v <;> simp_all [same]

/-- What is not `null` has the type that the schema asks for. -/
theorem hasType_of_admits (ht : s.keyword "type" = some (str t)) (h : s.admits d)
    (hnull : d ≠ null) : d.hasType t := by
  have hp := permitsType_of_admits h
  rw [permitsType, ht] at hp
  cases d with
  | null => exact absurd rfl hnull
  | _ => simpa [same] using hp

/-- A member that has to be there is there. -/
theorem exists_lookup_of_admits (hreq : s.requires name) (h : s.admits (obj ms)) :
    ∃ v, ms.lookup name = some v := by
  have hp := permitsMembers_of_admits h
  rw [requires] at hreq
  rw [permitsMembers] at hp
  cases hk : s.keyword "required" with
  | none => simp [hk] at hreq
  | some names =>
    rw [hk] at hreq hp
    cases names with
    | arr names =>
      obtain ⟨x, hx, hname⟩ := List.any_eq_true.mp hreq
      obtain rfl := same_str hname
      obtain ⟨m, hm, hsame⟩ := List.any_eq_true.mp (List.all_eq_true.mp hp _ hx)
      obtain rfl : m.1 = name := (beq_iff_eq.mp hsame).symm
      exact Option.isSome_iff_exists.mp (List.lookup_isSome_iff.mpr ⟨m, hm, beq_self_eq_true _⟩)
    | _ => cases hreq

theorem admits_of_lookup (h : s.admits (obj ms)) (hv : ms.lookup name = some v)
    (hp : s.property name = some p) : p.admits v := by
  obtain ⟨l₁, l₂, rfl, -⟩ := List.lookup_eq_some_iff.mp hv
  exact admits_of_mem h (by simp) hp

end Schema

/-! ### Schemas and decoders -/

open Document Schema Decoder

variable {α : Type} {s p : Schema} {r : Decoder α} {ms : List (String × Document)}

theorem Document.lookup_pruneMembers (s : Option Schema) (ms : List (String × Document))
    (name : String) :
    (pruneMembers s ms).lookup name = (ms.lookup name).bind (·.result (fateOf s name)) := by
  induction ms with
  | nil => rfl
  | cons m ms ih =>
    obtain ⟨name', v⟩ := m
    rw [pruneMembers, List.lookup_cons]
    by_cases hname : name = name'
    · subst hname
      rw [beq_self_eq_true]
      cases hfate : fateOf s name with
      | drop =>
        -- whatever else has the name is dropped as well
        rw [hfate] at ih
        dsimp only
        rw [ih]
        cases ms.lookup name <;> rfl
      | keep => simp [result]
      | prune s' => simp [result]
    · rw [beq_false_of_ne hname]
      cases fateOf s name' <;> simp [List.lookup_cons, beq_false_of_ne hname, ih]

/-- What is admitted and is not `null` can be read if it is `readable`, and only then. What pruning
removes of what is `kept` is not read. -/
structure SuitsIf (s : Schema) (r : Decoder α) (readable kept : Document → Prop) : Prop where
  reads : ∀ {d}, d ≠ null → s.admits d → ((∃ a, r d = some a) ↔ readable d)
  keeps : ∀ {d}, s.admits d → kept d → r (prune (some s) d) = r d

/-- All that is admitted can be read, if it is not `null`, and what pruning removes is not read. -/
abbrev Suits (s : Schema) (r : Decoder α) : Prop := SuitsIf s r (fun _ => True) fun _ => True

theorem suits_mk (hreads : ∀ {d}, d ≠ null → s.admits d → ∃ a, r d = some a)
    (hkeeps : ∀ {d}, s.admits d → r (prune (some s) d) = r d) : Suits s r :=
  ⟨fun hd h => iff_of_true (hreads hd h) trivial, fun h _ => hkeeps h⟩

theorem suits_string (ht : s.keyword "type" = some (str "string")) : Suits s string := by
  refine suits_mk (fun {d} hd h => ?_) fun {d} _ => by cases d <;> rfl
  have htype := hasType_of_admits ht h hd
  cases d with
  | str t => exact ⟨t, rfl⟩
  | _ => simp [hasType] at htype

theorem suits_boolean (ht : s.keyword "type" = some (str "boolean")) : Suits s boolean := by
  refine suits_mk (fun {d} hd h => ?_) fun {d} _ => by cases d <;> rfl
  have htype := hasType_of_admits ht h hd
  cases d with
  | bool b => exact ⟨b, rfl⟩
  | _ => simp [hasType] at htype

theorem suits_uint8 (ht : s.keyword "type" = some (str "integer"))
    (hmin : s.keyword "minimum" = some (num 0)) (hmax : s.keyword "maximum" = some (num 255)) :
    Suits s uint8 := by
  refine suits_mk (fun {d} hd h => ?_) fun {d} _ => by cases d <;> rfl
  have htype := hasType_of_admits ht h hd
  cases d with
  | num n =>
    have hbounds := permitsNumber_of_admits h
    rw [permitsNumber, hmin, hmax, Bool.and_eq_true] at hbounds
    exact ⟨_, if_pos ⟨of_decide_eq_true hbounds.1, of_decide_eq_true hbounds.2⟩⟩
  | _ => simp [hasType] at htype

/-- The words that are admitted can be read. -/
theorem suits_word {words : List (String × α)} {values : List Document}
    (ht : s.keyword "type" = some (str "string")) (hvalues : s.keyword "enum" = some (arr values))
    (hwords : ∀ t, values.any (·.same (str t)) → (words.lookup t).isSome) :
    Suits s (word words) := by
  refine suits_mk (fun {d} hd h => ?_) fun {d} h => ?_
  · have htype := hasType_of_admits ht h hd
    cases d with
    | str t =>
      have hvalue := permitsValue_of_admits h
      rw [permitsValue, hvalues] at hvalue
      exact Option.isSome_iff_exists.mp (hwords t hvalue)
    | _ => simp [hasType] at htype
  · cases d with
    | arr items | obj ms =>
      have htype := hasType_of_admits ht h (by simp)
      simp [hasType] at htype
    | _ => rfl

/-- **An object**, by its members. -/
theorem suitsIf_members {read : Members → Option α} {readable kept : Document → Prop}
    (ht : s.keyword "type" = some (str "object")) (hr : ∀ ms, r (obj ms) = read (ms.lookup ·))
    (hreads : ∀ {ms}, s.admits (obj ms) →
      ((∃ a, read (ms.lookup ·) = some a) ↔ readable (obj ms)))
    (hkeeps : ∀ {ms}, s.admits (obj ms) → kept (obj ms) →
      read ((pruneMembers (some s) ms).lookup ·) = read (ms.lookup ·)) :
    SuitsIf s r readable kept where
  reads {d} hd h := by
    have htype := hasType_of_admits ht h hd
    cases d with
    | obj ms => exact hr ms ▸ hreads h
    | _ => simp [hasType] at htype
  keeps {d} h hk := by
    cases d with
    | obj ms => exact (hr _).trans ((hkeeps h hk).trans (hr ms).symm)
    | arr items =>
      have htype := hasType_of_admits ht h (by simp)
      simp [hasType] at htype
    | _ => rfl

theorem suitsIf_derived {fields : Fields} {read : Members → Option α}
    {readable kept : Document → Prop} (ht : s.keyword "type" = some (str "object"))
    (hreads : ∀ {ms}, s.admits (obj ms) →
      ((∃ a, read (ms.lookup ·) = some a) ↔ readable (obj ms)))
    (hkeeps : ∀ {ms}, s.admits (obj ms) → kept (obj ms) →
      read ((pruneMembers (some s) ms).lookup ·) = read (ms.lookup ·)) :
    SuitsIf s (derived fields read) readable kept :=
  suitsIf_members ht (fun _ => rfl) hreads hkeeps

section Objects

variable {read : Members → Option α} (ht : s.keyword "type" = some (str "object"))
  (hreads : ∀ {ms}, s.admits (obj ms) → ∃ a, read (ms.lookup ·) = some a)
  (hkeeps : ∀ {ms}, s.admits (obj ms) →
    read ((pruneMembers (some s) ms).lookup ·) = read (ms.lookup ·))

include ht hreads hkeeps

/-- **An object**, if its members can be read and are kept. -/
theorem suits_object : Suits s (object read) :=
  suitsIf_members ht (fun _ => rfl) (fun h => iff_of_true (hreads h) trivial)
    fun h _ => hkeeps h

/-- **A structure**, if its members can be read and are kept. No array is admitted. -/
theorem suits_derived {fields : Fields} : Suits s (derived fields read) :=
  suitsIf_members ht (fun _ => rfl) (fun h => iff_of_true (hreads h) trivial)
    fun h _ => hkeeps h

end Objects

/-- What is left of a member that is specified. -/
theorem lookup_prune {name : String} (hp : s.property name = some p)
    (ms : List (String × Document)) :
    (pruneMembers (some s) ms).lookup name = (ms.lookup name).map (prune (some p)) := by
  have hfate : fateOf (some s) name = .prune (some p) := by
    rw [fateOf, Option.elim_some, fate, hp]
  rw [lookup_pruneMembers, hfate]
  cases ms.lookup name <;> rfl

/-- Of a schema that is not known, this says nothing. -/
theorem suitsIf_self (s : Schema) (r : Decoder α) :
    SuitsIf s r (fun v => ∃ a, r v = some a) fun v => r (prune (some s) v) = r v :=
  ⟨fun _ _ => Iff.rfl, fun _ h => h⟩

namespace SuitsIf

variable {readable kept : Document → Prop} {name : String}

/-- **A member that has to be there.** -/
theorem required_iff (h : SuitsIf p r readable kept) (name : String)
    (hp : s.property name = some p) (hnull : p.admits null = false) (hreq : s.requires name)
    (hs : s.admits (obj ms)) : (∃ a, Decoder.required name r (ms.lookup ·) = some a) ↔
      ∀ v, ms.lookup name = some v → readable v := by
  obtain ⟨v, hv⟩ := exists_lookup_of_admits hreq hs
  have hadm := admits_of_lookup hs hv hp
  have hne : v ≠ null := by
    rintro rfl
    rw [hnull] at hadm
    cases hadm
  rw [Decoder.required, hv, Option.bind_some, h.reads hne hadm]
  simp

/-- **A member that may be missing.** -/
theorem defaulted_iff (h : SuitsIf p r readable kept) (name : String)
    (hp : s.property name = some p) (hs : s.admits (obj ms)) :
    (∃ o, Decoder.defaulted name r (ms.lookup ·) = some o) ↔
      ∀ v, ms.lookup name = some v → v ≠ null → readable v := by
  rw [Decoder.defaulted]
  cases hv : ms.lookup name with
  | none => simp
  | some v =>
    rw [Option.elim_some]
    by_cases hne : v = null
    · subst hne
      simp [nullable]
    · rw [nullable_of_ne hne]
      have hreads := h.reads hne (admits_of_lookup hs hv hp)
      simp only [Option.map_eq_some_iff, Option.some.injEq, forall_eq']
      constructor
      · rintro ⟨_, a, ha, -⟩ _
        exact hreads.mp ⟨a, ha⟩
      · intro hv
        obtain ⟨a, ha⟩ := hreads.mpr (hv hne)
        exact ⟨some a, a, ha, rfl⟩

theorem required_prune (h : SuitsIf p r readable kept) (hp : s.property name = some p)
    (hs : s.admits (obj ms)) (hk : ∀ v, ms.lookup name = some v → kept v) :
    Decoder.required name r ((pruneMembers (some s) ms).lookup ·) =
      Decoder.required name r (ms.lookup ·) := by
  rw [Decoder.required, Decoder.required, lookup_prune hp]
  cases hv : ms.lookup name with
  | none => rfl
  | some v => exact h.keeps (admits_of_lookup hs hv hp) (hk v hv)

theorem defaulted_prune (h : SuitsIf p r readable kept) (hp : s.property name = some p)
    (hs : s.admits (obj ms)) (hk : ∀ v, ms.lookup name = some v → v ≠ null → kept v) :
    Decoder.defaulted name r ((pruneMembers (some s) ms).lookup ·) =
      Decoder.defaulted name r (ms.lookup ·) := by
  rw [Decoder.defaulted, Decoder.defaulted, lookup_prune hp]
  cases hv : ms.lookup name with
  | none => rfl
  | some v =>
    by_cases hne : v = null
    · subst hne
      rfl
    · have hkeeps := h.keeps (admits_of_lookup hs hv hp) (hk v hv hne)
      cases v with
      | null => rfl
      | _ => exact congrArg (Option.map some) hkeeps

end SuitsIf

namespace Suits

variable {name : String}

theorem required (h : Suits p r) (name : String) (hp : s.property name = some p)
    (hnull : p.admits null = false) (hreq : s.requires name) (hs : s.admits (obj ms)) :
    ∃ a, Decoder.required name r (ms.lookup ·) = some a :=
  (h.required_iff name hp hnull hreq hs).mpr fun _ _ => trivial

theorem defaulted (h : Suits p r) (name : String) (hp : s.property name = some p)
    (hs : s.admits (obj ms)) : ∃ o, Decoder.defaulted name r (ms.lookup ·) = some o :=
  (h.defaulted_iff name hp hs).mpr fun _ _ _ => trivial

theorem required_prune (h : Suits p r) (hp : s.property name = some p) (hs : s.admits (obj ms)) :
    Decoder.required name r ((pruneMembers (some s) ms).lookup ·) =
      Decoder.required name r (ms.lookup ·) :=
  SuitsIf.required_prune h hp hs fun _ _ => trivial

theorem defaulted_prune (h : Suits p r) (hp : s.property name = some p) (hs : s.admits (obj ms)) :
    Decoder.defaulted name r ((pruneMembers (some s) ms).lookup ·) =
      Decoder.defaulted name r (ms.lookup ·) :=
  SuitsIf.defaulted_prune h hp hs fun _ _ _ => trivial

end Suits

/-! ### Schemas, decoders and writers -/

/-- What is written is no `null`, is admitted, is kept, and is read back. -/
structure Stored (s : Schema) (write : α → Document) (r : Decoder α) (a : α) : Prop where
  ne_null : write a ≠ null
  admits : s.admits (write a)
  keeps : prune (some s) (write a) = write a
  reads : r (write a) = some a

/-- Every value is stored. -/
abbrev Stores (s : Schema) (write : α → Document) (r : Decoder α) : Prop :=
  ∀ a, Stored s write r a

theorem admits_str {t : String} (ht : s.keyword "type" = some (str "string"))
    (hvalue : s.permitsValue (str t)) : s.admits (str t) := by
  simp [admits, permits, permitsType, ht, hasType, hvalue, permitsNumber, permitsMembers]

theorem stores_string (ht : s.keyword "type" = some (str "string"))
    (henum : s.keyword "enum" = none) : Stores s str string := fun _ =>
  ⟨nofun, admits_str ht (by rw [permitsValue, henum]), rfl, rfl⟩

theorem stores_boolean (ht : s.keyword "type" = some (str "boolean"))
    (henum : s.keyword "enum" = none) : Stores s bool boolean := by
  refine fun b => ⟨nofun, ?_, rfl, rfl⟩
  simp [admits, permits, permitsType, permitsValue, ht, henum, hasType, permitsNumber,
    permitsMembers]

theorem stores_uint8 (ht : s.keyword "type" = some (str "integer"))
    (henum : s.keyword "enum" = none) (hmin : s.keyword "minimum" = some (num 0))
    (hmax : s.keyword "maximum" = some (num 255)) :
    Stores s (fun n => num n.toNat) uint8 := by
  intro n
  have hn : n.toNat ≤ 255 := Nat.le_of_lt_succ n.toNat_lt
  refine ⟨nofun, ?_, rfl, ?_⟩
  · simp [admits, permits, permitsType, permitsValue, ht, henum, hmin, hmax, hasType,
      permitsNumber, permitsMembers]
    omega
  · rw [uint8, if_pos (by omega)]
    simp

/-- Words that are admitted, each of which is read as what it is written for. -/
theorem stores_word {words : List (String × α)} {spell : α → String} {values : List Document}
    (ht : s.keyword "type" = some (str "string")) (hvalues : s.keyword "enum" = some (arr values))
    (hspell : ∀ a, values.any (·.same (str (spell a))) ∧ words.lookup (spell a) = some a) :
    Stores s (fun a => str (spell a)) (word words) := fun a =>
  ⟨nofun, admits_str ht (by rw [permitsValue, hvalues]; exact (hspell a).1), rfl,
    (hspell a).2⟩

/-- Members that are specified, admitted and kept. -/
def Fits (s : Schema) (ms : List (String × Document)) : Prop :=
  ∀ m ∈ ms, ∃ p, s.property m.1 = some p ∧ p.admits m.2 ∧ prune (some p) m.2 = m.2

namespace Fits

variable {ms' : List (String × Document)}

theorem nil (s : Schema) : Fits s [] := fun _ h => by cases h

theorem append (h : Fits s ms) (h' : Fits s ms') : Fits s (ms ++ ms') := fun m hm =>
  (List.mem_append.mp hm).elim (h m) (h' m)

theorem admitsMembers (h : Fits s ms) : s.admitsMembers ms := by
  refine admitsMembers_iff.mpr fun m hm p hfate => ?_
  obtain ⟨p', hp', hadm, -⟩ := h m hm
  rw [fate, hp', Fate.prune.injEq, Option.some.injEq] at hfate
  exact hfate ▸ hadm

theorem pruneMembers (h : Fits s ms) : pruneMembers (some s) ms = ms := by
  induction ms with
  | nil => rfl
  | cons m ms ih =>
    obtain ⟨p, hp, -, hkeeps⟩ := h m List.mem_cons_self
    have hfate : fateOf (some s) m.1 = .prune (some p) := by
      rw [fateOf, Option.elim_some, fate, hp]
    rw [Document.pruneMembers, hfate]
    dsimp only
    rw [hkeeps, ih fun m' hm' => h m' (List.mem_cons_of_mem _ hm')]

end Fits

namespace Stored

variable {write : α → Document} {a : α}

theorem fits (h : Stored p write r a) (name : String) (hp : s.property name = some p) :
    Fits s [(name, write a)] := by
  intro m hm
  obtain rfl := List.mem_singleton.mp hm
  exact ⟨p, hp, h.admits, h.keeps⟩

/-- A member that is left out if there is nothing to write. -/
theorem fits_option {o : Option α} (h : ∀ a, o = some a → Stored p write r a) (name : String)
    (hp : s.property name = some p) : Fits s ((o.map write).map (name, ·)).toList := by
  cases o with
  | none => exact .nil s
  | some a => exact (h a rfl).fits name hp

/-- A member that is `null` if there is nothing to write. -/
theorem fits_null {o : Option α} (h : ∀ a, o = some a → Stored p write r a) (name : String)
    (hp : s.property name = some p) (hnull : p.admits null) :
    Fits s [(name, (o.map write).getD null)] := by
  cases o with
  | none =>
    intro m hm
    obtain rfl := List.mem_singleton.mp hm
    exact ⟨p, hp, hnull, rfl⟩
  | some a => exact (h a rfl).fits name hp

/-- What is written under a name, or nothing, is read back. -/
theorem defaulted {o : Option α} (h : ∀ a, o = some a → Stored p write r a) {name : String}
    {m : Members} (hm : m name = o.map write) : Decoder.defaulted name r m = some o := by
  rw [Decoder.defaulted, hm]
  cases o with
  | none => rfl
  | some a =>
    rw [Option.map_some, Option.elim_some, nullable_of_ne (h a rfl).ne_null, (h a rfl).reads]
    rfl

/-- What is written under a name, or `null`, is read back. -/
theorem defaulted_null {o : Option α} (h : ∀ a, o = some a → Stored p write r a) {name : String}
    {m : Members} (hm : m name = some ((o.map write).getD null)) :
    Decoder.defaulted name r m = some o := by
  rw [Decoder.defaulted, hm]
  cases o with
  | none => rfl
  | some a =>
    rw [Option.map_some, Option.getD_some, Option.elim_some, nullable_of_ne (h a rfl).ne_null,
      (h a rfl).reads]
    rfl

theorem required (h : Stored p write r a) {name : String} {m : Members}
    (hm : m name = some (write a)) : Decoder.required name r m = some a := by
  rw [Decoder.required, hm]
  exact h.reads

end Stored

namespace Stores

variable {write : α → Document} {name : String} {m : Members} {o : Option α}

theorem fits (h : Stores p write r) (name : String) (hp : s.property name = some p) (a : α) :
    Fits s [(name, write a)] := (h a).fits name hp

theorem fits_option (h : Stores p write r) (name : String) (hp : s.property name = some p)
    (o : Option α) : Fits s ((o.map write).map (name, ·)).toList :=
  Stored.fits_option (fun a _ => h a) name hp

theorem fits_null (h : Stores p write r) (name : String) (hp : s.property name = some p)
    (hnull : p.admits null) (o : Option α) : Fits s [(name, (o.map write).getD null)] :=
  Stored.fits_null (fun a _ => h a) name hp hnull

theorem defaulted (h : Stores p write r) (hm : m name = o.map write) :
    Decoder.defaulted name r m = some o := Stored.defaulted (fun a _ => h a) hm

theorem defaulted_null (h : Stores p write r) (hm : m name = some ((o.map write).getD null)) :
    Decoder.defaulted name r m = some o := Stored.defaulted_null (fun a _ => h a) hm

theorem required (h : Stores p write r) {a : α} (hm : m name = some (write a)) :
    Decoder.required name r m = some a := (h a).required hm

end Stores

/-- What is written as an object is stored, if the members fit and are read back. -/
theorem stored_members {members : α → List (String × Document)} {read : Members → Option α} {a : α}
    (ht : s.keyword "type" = some (str "object")) (henum : s.keyword "enum" = none)
    (hr : ∀ ms, r (obj ms) = read (ms.lookup ·)) (hmembers : s.permitsMembers (obj (members a)))
    (hfits : Fits s (members a)) (hreads : read ((members a).lookup ·) = some a) :
    Stored s (fun a => obj (members a)) r a where
  ne_null h := by cases h
  admits := by
    simp [admits, permits, permitsType, permitsValue, ht, henum, hasType, permitsNumber, hmembers,
      hfits.admitsMembers]
  keeps := by rw [prune, hfits.pruneMembers]
  reads := (hr _).trans hreads

section Objects

variable {members : α → List (String × Document)} {read : Members → Option α} {a : α}
  (ht : s.keyword "type" = some (str "object")) (henum : s.keyword "enum" = none)
  (hmembers : s.permitsMembers (obj (members a))) (hfits : Fits s (members a))
  (hreads : read ((members a).lookup ·) = some a)

include ht henum hmembers hfits hreads

/-- **What is written as an object**, and is read as one. -/
theorem stored_object : Stored s (fun a => obj (members a)) (object read) a :=
  stored_members ht henum (fun _ => rfl) hmembers hfits hreads

/-- **What is written as an object**, and is read as a structure. -/
theorem stored_derived {fields : Fields} :
    Stored s (fun a => obj (members a)) (derived fields read) a :=
  stored_members ht henum (fun _ => rfl) hmembers hfits hreads

end Objects

/-- A member of an object that is stored is stored, if it is read from the member. -/
theorem Stored.member {β : Type} {write : β → Document} {read : Decoder β}
    {members : α → List (String × Document)} {a : α}
    (h : Stored s (fun a => obj (members a)) r a) {name : String} (hp : s.property name = some p)
    {b : β} (hb : (members a).lookup name = some (write b))
    (hread : Decoder.defaulted name read ((members a).lookup ·) = some (some b)) :
    Stored p write read b := by
  have hne : write b ≠ null := by
    intro hnull
    rw [Decoder.defaulted, hb, hnull] at hread
    cases hread
  refine ⟨hne, admits_of_lookup h.admits hb hp, ?_, ?_⟩
  · have hkeeps : pruneMembers (some s) (members a) = members a := by
      simpa only [prune, obj.injEq] using h.keeps
    have hlookup := lookup_prune hp (members a)
    rw [hkeeps, hb] at hlookup
    exact (Option.some.inj hlookup).symm
  · rw [Decoder.defaulted, hb, Option.elim_some, nullable_of_ne hne] at hread
    obtain ⟨b', hb', heq⟩ := Option.map_eq_some_iff.mp hread
    exact hb'.trans heq

end Json
