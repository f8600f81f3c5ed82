import SdbController.Json.Document

/-!
# Reading values from documents

A `Decoder` reads a value from a document or fails. An object is read by the names of its members.
A member that has to be there is `required`; one that is `defaulted` may be missing, and `null`
counts as missing. Members that nothing asks for are not looked at. A structure with a derived
decoder is read from an array as well, which has its fields in order.

## Main definitions

* `Decoder`, `Members` — how a value is read, and what an object has under a name
* `Decoder.object`, `Decoder.derived` — objects and structures
* `Decoder.required`, `Decoder.defaulted`, `Decoder.orEmpty` — their members
-/

namespace Json

/-- How a value is read from a document. -/
abbrev Decoder (α : Type) : Type := Document → Option α

/-- What an object has under a name. -/
abbrev Members : Type := String → Option Document

namespace Decoder

variable {α β : Type}

def string : Decoder String
  | .str s => some s
  | _ => none

def boolean : Decoder Bool
  | .bool b => some b
  | _ => none

def uint8 : Decoder UInt8
  | .num n => if 0 ≤ n ∧ n ≤ 255 then some (UInt8.ofNat n.toNat) else none
  | _ => none

/-- One of several words. It is read from an object as well, which has nothing under it. -/
def word (words : List (String × α)) : Decoder α
  | .str s => words.lookup s
  | .obj [(s, .null)] => words.lookup s
  | _ => none

/-- A value or `null`. -/
def nullable (r : Decoder α) : Decoder (Option α)
  | .null => some none
  | d => (r d).map some

/-- An object, by its members. -/
def object (read : Members → Option α) : Decoder α
  | .obj ms => read (ms.lookup ·)
  | _ => none

/-- The fields of a structure, and which of them may be missing at the end of an array. -/
abbrev Fields : Type := List (String × Bool)

/-- What an array has under the names of the fields. -/
def Fields.members (fields : Fields) (items : List Document) : Members :=
  fun name => ((fields.map Prod.fst).zip items).lookup name

/-- A structure, from an object or from an array. -/
def derived (fields : Fields) (read : Members → Option α) : Decoder α
  | .obj ms => read (ms.lookup ·)
  | .arr items =>
    if items.length ≤ fields.length ∧ (fields.drop items.length).all Prod.snd then
      read (fields.members items)
    else none
  | _ => none

/-- A member that has to be there. -/
def required (name : String) (r : Decoder α) (m : Members) : Option α := (m name).bind r

/-- A member that may be missing. -/
def defaulted (name : String) (r : Decoder α) (m : Members) : Option (Option α) :=
  (m name).elim (some none) (nullable r)

/-- A text that is empty where it is missing. -/
def orEmpty (name : String) (m : Members) : Option String :=
  (defaulted name string m).map (·.getD "")

variable {r : Decoder α} {read : Members → Option α} {name : String} {m : Members}
  {d : Document} {a : α}

theorem nullable_of_ne (h : d ≠ .null) : nullable r d = (r d).map some := by
  cases d with
  | null => exact absurd rfl h
  | _ => rfl

theorem object_eq_some (h : object read d = some a) :
    ∃ ms, d = .obj ms ∧ read (ms.lookup ·) = some a := by
  cases d with
  | obj ms => exact ⟨ms, rfl, h⟩
  | _ => cases h

theorem required_congr {ms ms' : List (String × Document)} (h : ms.lookup name = ms'.lookup name) :
    required name r (ms.lookup ·) = required name r (ms'.lookup ·) := by
  rw [required, h, required]

theorem defaulted_congr {ms ms' : List (String × Document)} (h : ms.lookup name = ms'.lookup name) :
    defaulted name r (ms.lookup ·) = defaulted name r (ms'.lookup ·) := by
  rw [defaulted, h, defaulted]

end Decoder

end Json
