import Inferences.Binary32
import Inferences.Json

/-!
# Decoding JSON

A JSON text, once parsed, is a document: a value with the members of its
objects as they are written, a name possibly more than once. `to_value` is the
value that is kept of it, with the last member of each name.

A record with derived decoding is read from an object or from an array
(`struct`). A member that is not there is absent: the reader of the field says
whether that is an error or a default (`required`, `defaulted`, `nullable`).
-/

namespace Inferences.Json

/-- What a number is worth, in whichever form it is written. -/
def Number.value : Number → ℚ
  | posInt n => n.toNat
  | negInt n => n.toInt
  | float x => x
  | neg_zero => 0

/-- The integer a number is written as; a float is none, whatever its value. -/
def Number.integer : Number → Option ℤ
  | posInt n => some n.toNat
  | negInt n => some n.toInt
  | float _ | neg_zero => none

/-- What a number is as an `f32`: rounded, with the sign of a zero. -/
def Number.as_f32 : Number → Float32
  | neg_zero => Binary32.negative_zero
  | n => Binary32.of_rat n.value

theorem Number.as_f32_cases (n : Number) :
    n = neg_zero ∨ n.as_f32 = Binary32.of_rat n.value := by
  cases n with
  | neg_zero => exact .inl rfl
  | _ => exact .inr rfl

theorem Number.integer_eq {n : Number} {z : ℤ} (h : n.integer = some z) : n.value = z := by
  cases n with
  | posInt n | negInt n =>
    obtain rfl := Option.some.inj h
    rfl
  | float x | neg_zero => cases h

namespace Serde

open Value

mutual

/-- The value of a document: of the members of a name, the last counts. -/
def to_value : Value → Value
  | .array items => .array (to_values items)
  | .object members => .object (to_members members)
  | value => value

/-- The items of an array, read so. -/
def to_values : List Value → List Value
  | [] => []
  | item :: items => to_value item :: to_values items

/-- The members of an object, read so: the last of each name is kept. -/
def to_members : List (String × Value) → List (String × Value)
  | [] => []
  | (name, value) :: members =>
    if name ∈ members.map Prod.fst then to_members members
    else (name, to_value value) :: to_members members

end

/-- The fields of a record that knows these names, and no others: from an object
    by name, from an array in order. -/
def struct (names : List String) : Value → Option (String → Option Value)
  | .object members =>
    if ∀ member ∈ members, member.1 ∈ names then some fun name => members.lookup name else none
  | .array items =>
    if items.length ≤ names.length then some fun name => (names.zip items).lookup name else none
  | _ => none

/-- No member of the document is written twice. -/
def unique : Value → Bool
  | .object members => (members.map Prod.fst).Nodup
  | _ => true

/-! ## Fields -/

/-- A `u32` is a number that is one. -/
def read_u32 : Value → Option UInt32
  | .number n => n.integer.bind fun z =>
    if 0 ≤ z ∧ z < UInt32.size then some (.ofNat z.toNat) else none
  | _ => none

/-- Every number is read, and rounded. -/
def read_f32 : Value → Option Float32
  | .number n => some n.as_f32
  | _ => none

/-- A `bool`. -/
def read_bool : Value → Option Bool
  | .bool b => some b
  | _ => none

/-- A list whose items can all be read. -/
def read_vec {α : Type} (read : Value → Option α) : Value → Option (List α)
  | .array items => items.mapM read
  | _ => none

section

variable {α : Type} (read : Value → Option α)

/-- A field that has to be there. -/
def required (field : Option Value) : Option α := field.bind read

/-- A field that has a default. -/
def defaulted (default : α) (field : Option Value) : Option α := field.elim (some default) read

/-- An `Option`: nothing when the member is absent or null. -/
def nullable : Option Value → Option (Option α)
  | none | some .null => some none
  | some value => (read value).map some

end

/-- An integer is read by value, when the type can hold it. -/
theorem read_u32_value {n : Number} {m : UInt32} (h : read_u32 (.number n) = some m) :
    n.value = m.toNat := by
  obtain ⟨z, hz, h⟩ := Option.bind_eq_some_iff.1 h
  split at h
  · rename_i hrange
    obtain rfl := Option.some.inj h
    have htoNat : (UInt32.ofNat z.toNat).toNat = z.toNat :=
      UInt32.toNat_ofNat_of_lt (by omega)
    rw [Number.integer_eq hz, htoNat]
    exact_mod_cast (Int.toNat_of_nonneg hrange.1).symm
  · cases h

theorem read_u32_isSome {n : Number} (hlow : 0 ≤ n.value) (hhigh : n.value < UInt32.size) :
    (∃ m, read_u32 (.number n) = some m) ↔ n.integer.isSome := by
  rw [read_u32]
  cases hn : n.integer with
  | none => simp
  | some z =>
    rw [Number.integer_eq hn] at hlow hhigh
    have hrange : 0 ≤ z ∧ z < UInt32.size := ⟨by exact_mod_cast hlow, by exact_mod_cast hhigh⟩
    rw [Option.bind_some, if_pos hrange]
    exact iff_of_true ⟨_, rfl⟩ rfl

/-- A list whose items are all read is read. -/
theorem read_vec_of_forall {α : Type} {read : Value → Option α} {P : α → Prop}
    {items : List Value} (h : ∀ item ∈ items, ∃ a, read item = some a ∧ P a) :
    ∃ as, read_vec read (.array items) = some as ∧ as = items.filterMap read ∧
      as.length = items.length ∧ ∀ a ∈ as, P a := by
  rw [read_vec]
  induction items with
  | nil => exact ⟨[], rfl, rfl, rfl, by simp⟩
  | cons item items ih =>
    obtain ⟨⟨a, hread, ha⟩, hitems⟩ := List.forall_mem_cons.1 h
    obtain ⟨as, has, hfilter, hlength, hP⟩ := ih hitems
    refine ⟨a :: as, ?_, ?_, congrArg (· + 1) hlength, List.forall_mem_cons.2 ⟨ha, hP⟩⟩
    · rw [List.mapM_cons, hread, has]
      rfl
    · rw [List.filterMap_cons_some hread, hfilter]

/-! ## Documents -/

/-- The members that count are those written, when none is written twice. -/
theorem lookup_to_members {members : List (String × Value)}
    (h : (members.map Prod.fst).Nodup) (name : String) :
    (to_members members).lookup name = (members.lookup name).map to_value := by
  induction members with
  | nil => simp [to_members]
  | cons member members ih =>
    obtain ⟨key, value⟩ := member
    obtain ⟨hkey, hnodup⟩ := List.nodup_cons.1 h
    -- a member that is not written again is kept
    rw [to_members, if_neg hkey, List.lookup_cons, List.lookup_cons, ih hnodup]
    cases name == key <;> rfl

/-- A member of a document that is written once is that of its value. -/
theorem get_to_value {members : List (String × Value)} (h : unique (.object members))
    (name : String) :
    (to_value (.object members)).get name = (members.lookup name).map to_value := by
  rw [to_value, Value.get]
  exact lookup_to_members (by simpa [unique] using h) name

end Serde

end Inferences.Json
