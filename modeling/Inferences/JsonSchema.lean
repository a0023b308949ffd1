import Inferences.Serde

/-!
# JSON Schema

The keywords of JSON Schema that describe the shape of a value, with the
meaning the specification gives them: a keyword constrains the values it is
about and accepts every other. Lengths of strings are counted in characters,
and numbers are compared by value, so that `16.0` is an integer.

`valid` reads a schema, itself a JSON value. `valid_record` says what the usual
schema of a record means.
-/

namespace Inferences.Json.Schema

open Value

mutual

/-- Equal JSON values; the order of the members of an object does not count. -/
def same : Value → Value → Bool
  | .null, .null => true
  | .bool b, .bool b' => b == b'
  | .number n, .number n' => n.value == n'.value
  | .string s, .string s' => s == s'
  | .array items, .array items' => same_items items items'
  | .object members, .object members' =>
    members.length == members'.length && same_members members members'
  | _, _ => false

/-- The items are equal, one by one. -/
def same_items : List Value → List Value → Bool
  | [], [] => true
  | item :: items, item' :: items' => same item item' && same_items items items'
  | _, _ => false

/-- Each member has an equal one among the others. -/
def same_members : List (String × Value) → List (String × Value) → Bool
  | [], _ => true
  | (name, value) :: members, others =>
    (others.lookup name).any (same value) && same_members members others

end

/-- The names of `type`. -/
def has_type (name : String) : Value → Bool
  | .null => name == "null"
  | .bool _ => name == "boolean"
  | .number n => name == "number" || name == "integer" && n.value.den == 1
  | .string _ => name == "string"
  | .array _ => name == "array"
  | .object _ => name == "object"

/-- The number that a value is. -/
def number_of : Value → Option ℚ
  | .number n => some n.value
  | _ => none

/-- The length of a string, in characters. -/
def length_of : Value → Option ℚ
  | .string s => some s.length
  | _ => none

/-- The number of items of an array. -/
def size_of : Value → Option ℚ
  | .array items => some items.length
  | _ => none

/-- The members of an object. -/
def members_of : Value → List (String × Value)
  | .object members => members
  | _ => []

/-- The items of an array. -/
def items_of (value : Value) : List Value := value.as_array.getD []

/-- A keyword about the values that have a measure. -/
def bounded (measure : Value → Option ℚ) (relation : ℚ → ℚ → Bool) (limit value : Value) : Bool :=
  (number_of limit).all fun bound => (measure value).all (relation · bound)

/-- The keywords whose argument is not a schema; an unknown one is an annotation. -/
def asserts (keyword : String) (argument value : Value) : Bool :=
  match keyword with
  | "type" => argument.as_str.all (has_type · value)
  | "const" => same argument value
  | "enum" => (items_of argument).any (same · value)
  | "minimum" => bounded number_of (· ≥ ·) argument value
  | "maximum" => bounded number_of (· ≤ ·) argument value
  | "exclusiveMinimum" => bounded number_of (· > ·) argument value
  | "minLength" => bounded length_of (· ≥ ·) argument value
  | "maxLength" => bounded length_of (· ≤ ·) argument value
  | "minItems" => bounded size_of (· ≥ ·) argument value
  | "maxItems" => bounded size_of (· ≤ ·) argument value
  | "required" =>
    !has_type "object" value ||
      (items_of argument).all fun name => name.as_str.all (· ∈ (members_of value).map Prod.fst)
  | _ => true

/-- The names `properties` has a schema for. -/
def property_names (keywords : List (String × Value)) : List String :=
  ((keywords.lookup "properties").elim [] members_of).map Prod.fst

mutual

/-- A value that satisfies a schema. -/
def valid : Value → Value → Bool
  | .object keywords, value => holds keywords (property_names keywords) value
  | .bool accepts, _ => accepts
  | _, _ => false

/-- The keywords of a schema, with the names it has properties for. -/
def holds : List (String × Value) → List String → Value → Bool
  | [], _, _ => true
  | (keyword, argument) :: keywords, known, value =>
    (match keyword with
      | "items" => (items_of value).all fun item => valid argument item
      | "properties" => each_property argument value
      | "additionalProperties" =>
        (members_of value).all fun member => member.1 ∈ known || valid argument member.2
      | "oneOf" => alternatives argument value == 1
      | _ => asserts keyword argument value) && holds keywords known value

/-- `properties`: the members named there meet their schemas. -/
def each_property : Value → Value → Bool
  | .object schemas, value => properties schemas value
  | _, _ => true

def properties : List (String × Value) → Value → Bool
  | [], _ => true
  | (name, schema) :: schemas, value =>
    (members_of value).all (fun member => member.1 != name || valid schema member.2) &&
      properties schemas value

/-- How many of the schemas accept the value. -/
def alternatives : Value → Value → Nat
  | .array schemas, value => count_valid schemas value
  | _, _ => 0

/-- How many of the schemas the value meets. -/
def count_valid : List Value → Value → Nat
  | [], _ => 0
  | schema :: schemas, value => (valid schema value).toNat + count_valid schemas value

end

/-! ## What the keywords say -/

section

variable {keywords : List (String × Value)} {value : Value}

/-- A keyword of a valid value, other than those with schemas. -/
theorem asserts_of_valid (h : valid (.object keywords) value = true) {keyword : String}
    {argument : Value} (hmem : (keyword, argument) ∈ keywords)
    (hplain : keyword ∉ ["items", "properties", "additionalProperties", "oneOf"]) :
    asserts keyword argument value = true := by
  rw [valid] at h
  generalize property_names keywords = known at h
  induction keywords with
  | nil => cases hmem
  | cons entry keywords ih =>
    obtain ⟨name, schema⟩ := entry
    unfold holds at h
    rw [Bool.and_eq_true] at h
    rcases List.mem_cons.1 hmem with heq | hmem
    · obtain ⟨rfl, rfl⟩ := Prod.mk.inj heq
      simp only [List.mem_cons, List.not_mem_nil, or_false, not_or] at hplain
      obtain ⟨hitems, hproperties, hadditional, hone⟩ := hplain
      -- the keywords with schemas have cases of their own
      have hasserts := h.1
      split at hasserts
      · exact absurd rfl hitems
      · exact absurd rfl hproperties
      · exact absurd rfl hadditional
      · exact absurd rfl hone
      · exact hasserts
    · exact ih hmem h.2

/-- The items of a valid value satisfy their schema. -/
theorem items_of_valid (h : valid (.object keywords) value = true) {schema : Value}
    (hmem : ("items", schema) ∈ keywords) :
    ∀ item ∈ items_of value, valid schema item = true := by
  rw [valid] at h
  generalize property_names keywords = known at h
  induction keywords with
  | nil => cases hmem
  | cons entry keywords ih =>
    unfold holds at h
    rw [Bool.and_eq_true] at h
    rcases List.mem_cons.1 hmem with rfl | hmem
    · exact List.all_eq_true.1 h.1
    · exact ih hmem h.2

theorem has_type_of_valid (h : valid (.object keywords) value = true) {name : String}
    (hmem : ("type", .string name) ∈ keywords) : has_type name value = true :=
  asserts_of_valid h hmem (by decide)

/-- A value with the type of a number is one, and within the bounds. -/
theorem number_of_valid (h : valid (.object keywords) value = true) {name : String}
    (hmem : ("type", .string name) ∈ keywords) (hname : name = "integer" ∨ name = "number") :
    ∃ n : Number, value = .number n ∧
      (∀ least, ("minimum", .number least) ∈ keywords → least.value ≤ n.value) ∧
      (∀ least, ("exclusiveMinimum", .number least) ∈ keywords → least.value < n.value) ∧
      ∀ most, ("maximum", .number most) ∈ keywords → n.value ≤ most.value := by
  have htype := has_type_of_valid h hmem
  cases value with
  | number n =>
    refine ⟨n, rfl, fun least hleast => ?_, fun least hleast => ?_, fun most hmost => ?_⟩
    · exact of_decide_eq_true (asserts_of_valid h hleast (by decide))
    · exact of_decide_eq_true (asserts_of_valid h hleast (by decide))
    · exact of_decide_eq_true (asserts_of_valid h hmost (by decide))
  | _ => rcases hname with rfl | rfl <;> simp [has_type] at htype

theorem string_of_valid (h : valid (.object keywords) value = true)
    (hmem : ("type", .string "string") ∈ keywords) :
    ∃ text, value = .string text ∧
      ∀ least, ("minLength", .number least) ∈ keywords → least.value ≤ (text.length : ℚ) := by
  have htype := has_type_of_valid h hmem
  cases value with
  | string text =>
    refine ⟨text, rfl, fun least hleast => ?_⟩
    exact of_decide_eq_true (asserts_of_valid h hleast (by decide))
  | _ => simp [has_type] at htype

theorem array_of_valid (h : valid (.object keywords) value = true)
    (hmem : ("type", .string "array") ∈ keywords) :
    ∃ items : List Value, value = .array items ∧
      (∀ schema, ("items", schema) ∈ keywords → ∀ item ∈ items, valid schema item = true) ∧
      (∀ least, ("minItems", .number least) ∈ keywords → least.value ≤ (items.length : ℚ)) ∧
      ∀ most, ("maxItems", .number most) ∈ keywords → (items.length : ℚ) ≤ most.value := by
  have htype := has_type_of_valid h hmem
  cases value with
  | array items =>
    refine ⟨items, rfl, fun schema hschema => items_of_valid h hschema, fun least hleast => ?_,
      fun most hmost => ?_⟩
    · exact of_decide_eq_true (asserts_of_valid h hleast (by decide))
    · exact of_decide_eq_true (asserts_of_valid h hmost (by decide))
  | _ => simp [has_type] at htype

end

/-! ## Records -/

/-- The schema of a record: an object with these members, some of them required. -/
def record (required : List String) (schemas : List (String × Value)) : Value :=
  .object [("type", .string "object"), ("required", .array (required.map .string)),
    ("properties", .object schemas), ("additionalProperties", .bool false)]

theorem properties_iff {schemas : List (String × Value)} {value : Value} :
    properties schemas value = true ↔ ∀ entry ∈ schemas, ∀ member ∈ members_of value,
      member.1 = entry.1 → valid entry.2 member.2 = true := by
  induction schemas with
  | nil => simp [properties]
  | cons entry schemas ih =>
    rw [properties, Bool.and_eq_true, ih, List.forall_mem_cons]
    refine and_congr_left' ?_
    simp [List.all_eq_true, ← imp_iff_not_or]

theorem valid_record {required : List String} {schemas : List (String × Value)} {value : Value} :
    valid (record required schemas) value = true ↔ ∃ members, value = .object members ∧
      (∀ name ∈ required, name ∈ members.map Prod.fst) ∧
      (∀ entry ∈ schemas, ∀ member ∈ members, member.1 = entry.1 →
        valid entry.2 member.2 = true) ∧
      ∀ member ∈ members, member.1 ∈ schemas.map Prod.fst := by
  cases value with
  | object members =>
    have hrequired : (∀ name ∈ required, decide (name ∈ members.map Prod.fst) = true) ↔
        ∀ name ∈ required, ∃ value, (name, value) ∈ members := by
      simp only [decide_eq_true_eq, List.mem_map, Prod.exists, exists_and_right, exists_eq_right]
    simp [record, valid, holds, asserts, has_type, as_str, items_of, as_array, each_property,
      properties_iff, members_of, property_names, List.lookup]
    exact fun _ _ => hrequired
  | _ => simp [record, valid, holds, asserts, has_type, as_str]

section

variable {required : List String} {schemas members : List (String × Value)} {schema value : Value}

theorem lookup_required (h : valid (record required schemas) (.object members) = true)
    (name : String) (hname : name ∈ required) : ∃ value, members.lookup name = some value := by
  obtain ⟨_, hmembers, hrequired, -⟩ := valid_record.1 h
  obtain rfl := Value.object.inj hmembers
  obtain ⟨member, hmem, rfl⟩ := List.mem_map.1 (hrequired name hname)
  refine Option.isSome_iff_exists.1 (List.lookup_isSome_iff.2 ⟨member, hmem, ?_⟩)
  exact beq_self_eq_true _

theorem lookup_valid (h : valid (record required schemas) (.object members) = true)
    (name : String) (hschema : (name, schema) ∈ schemas)
    (hvalue : members.lookup name = some value) :
    valid schema value = true := by
  obtain ⟨_, hmembers, -, hvalid, -⟩ := valid_record.1 h
  obtain rfl := Value.object.inj hmembers
  obtain ⟨before, after, rfl, -⟩ := List.lookup_eq_some_iff.1 hvalue
  exact hvalid _ hschema (name, value) (by simp) rfl

theorem lookup_unknown (h : valid (record required schemas) (.object members) = true)
    {name : String} (hname : name ∉ schemas.map Prod.fst) : members.lookup name = none := by
  obtain ⟨_, hmembers, -, -, hknown⟩ := valid_record.1 h
  obtain rfl := Value.object.inj hmembers
  refine List.lookup_eq_none_iff.2 fun member hmem => bne_iff_ne.2 ?_
  rintro rfl
  exact hname (hknown member hmem)

end

end Inferences.Json.Schema
