import Mathlib

/-!
# JSON values

The values `serde_json` decodes, and the accessors the program reads them
with. An object is kept as the list of its members; `get` finds the member of
a name. A number keeps the three forms the library tells apart: only a
non-negative integer is an `as_u64`.
-/

namespace Inferences

/-- The bytes of a body, a file or a network stream. -/
abbrev Bytes := List UInt8

/-! ## Entries with names -/

section

variable {α : Type} (entries : List (String × α)) (name : String)

theorem lookup_filter_self : (entries.filter (·.1 ≠ name)).lookup name = none := by
  rw [List.lookup_eq_none_iff]
  intro entry hentry
  have hne : entry.1 ≠ name := by simpa using (List.mem_filter.1 hentry).2
  simpa using Ne.symm hne

variable {name} in
theorem lookup_filter_ne {other : String} (h : other ≠ name) :
    (entries.filter (·.1 ≠ name)).lookup other = entries.lookup other := by
  induction entries with
  | nil => rfl
  | cons entry entries ih =>
    by_cases hname : entry.1 = name
    · have hother : (other == entry.1) = false := by simpa [hname] using h
      rw [List.filter_cons_of_neg (by simpa using hname), ih, List.lookup_cons, hother]
    · rw [List.filter_cons_of_pos (by simpa using hname), List.lookup_cons, List.lookup_cons, ih]

end

/-! ## Values -/

namespace Json

/-- A JSON number: a non-negative integer, a negative one, or a finite float
    (every finite float is a rational number, but for the zero with a sign). -/
inductive Number
  | posInt (n : UInt64)
  | negInt (n : Int64)
  | float (x : Rat)
  | neg_zero
  deriving DecidableEq

/-- A JSON value. -/
inductive Value
  | null
  | bool (b : Bool)
  | number (n : Number)
  | string (s : String)
  | array (items : List Value)
  | object (members : List (String × Value))

namespace Value

/-- The member of an object; nothing in any other value. -/
def get (value : Value) (name : String) : Option Value :=
  match value with
  | object members => members.lookup name
  | _ => none

/-- The items of an array. -/
def as_array : Value → Option (List Value)
  | array items => some items
  | _ => none

/-- The text of a string. -/
def as_str : Value → Option String
  | string s => some s
  | _ => none

/-- The value of a number that is a `u64`. -/
def as_u64 : Value → Option UInt64
  | number (.posInt n) => some n
  | _ => none

/-- The value is `null`. -/
def is_null : Value → Bool
  | null => true
  | _ => false

end Value

end Json

end Inferences
