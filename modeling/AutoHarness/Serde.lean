import AutoHarness.Tool

namespace AutoHarness

namespace JsonValue

/-- The value under a key of an object. -/
def get? (name : String) : JsonValue → Option JsonValue
  | .object fields => fields.lookup name
  | _ => none

def asU64? : JsonValue → Option Nat
  | .number (.posInt value) => some value.toNat
  | _ => none

end JsonValue

-- Derived deserialization: a struct is read from an object of its fields or from an array of them
-- in order, and unknown keys and surplus items are refused.
namespace Serde

variable {α : Type} {names : List String} {name : String} {value : JsonValue}

/-- Known keys only, or no more items than fields. -/
def shaped (names : List String) : JsonValue → Bool
  | .object fields => fields.all fun field => names.contains field.1
  | .array items => items.length ≤ names.length
  | _ => false

/-- What stands for a field of a struct. -/
def member (names : List String) (name : String) : JsonValue → Option JsonValue
  | .object fields => fields.lookup name
  | .array items => items[names.idxOf name]?
  | _ => none

/-- An optional field with a default: absent and `null` are the same. -/
def optional (decode : JsonValue → Option α) : Option JsonValue → Option (Option α)
  | none => some none
  | some .null => some none
  | some value => (decode value).map some

/-- A field with a default. -/
def orDefault (decode : JsonValue → Option α) (default : α) : Option JsonValue → Option α
  | none => some default
  | some value => decode value

def required (decode : JsonValue → Option α) : Option JsonValue → Option α
  | none => none
  | some value => decode value

def string : JsonValue → Option String
  | .string value => some value
  | _ => none

def bool : JsonValue → Option Bool
  | .bool value => some value
  | _ => none

/-- An unsigned integer below a bound. -/
def unsigned (bound : Nat) : JsonValue → Option Nat
  | .number (.posInt value) => if value.toNat < bound then some value.toNat else none
  | _ => none

/-- A variant without data: its name, or an object that maps the name to `null`. -/
def variant (variants : List (String × α)) : JsonValue → Option α
  | .string name => variants.lookup name
  | .object [(name, .null)] => variants.lookup name
  | _ => none

def list (decode : JsonValue → Option α) : JsonValue → Option (List α)
  | .array items => items.mapM decode
  | _ => none

/-- Nothing, or an explicit `null`. -/
def Silent : Option JsonValue → Prop
  | none => True
  | some .null => True
  | some _ => False

instance : DecidablePred Silent
  | none => .isTrue trivial
  | some .null => .isTrue trivial
  | some (.bool _) | some (.number _) | some (.string _) | some (.array _) | some (.object _) =>
    .isFalse id

theorem optional_none_iff {decode : JsonValue → Option α} {field : Option JsonValue}
    {result : Option α} (h : optional decode field = some result) :
    result = none ↔ Silent field := by
  unfold optional at h
  split at h
  next =>
    cases Option.some.inj h
    simp [Silent]
  next =>
    cases Option.some.inj h
    simp [Silent]
  next value notNull =>
    obtain ⟨decoded, -, rfl⟩ := Option.map_eq_some_iff.mp h
    cases value with
    | null => exact absurd rfl notNull
    | _ => simp [Silent]

theorem lookup_eq_none {fields : List (String × JsonValue)}
    (h : ∀ field ∈ fields, field.1 ≠ name) : fields.lookup name = none := by
  induction fields with
  | nil => rfl
  | cons field rest ih =>
    have apart : (name == field.1) = false := by
      simpa using (h field (by simp)).symm
    rw [List.lookup_cons, apart]
    exact ih fun other mem => h other (by simp [mem])

theorem lookup_mem {fields : List (String × JsonValue)} (h : fields.lookup name = some value) :
    (name, value) ∈ fields := by
  induction fields with
  | nil => cases h
  | cons field rest ih =>
    rw [List.lookup_cons] at h
    split at h
    next same =>
      cases Option.some.inj h
      have equal : name = field.1 := by simpa using same
      simp [equal]
    next => simp [ih h]

end Serde

end AutoHarness
