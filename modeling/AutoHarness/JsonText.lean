import AutoHarness.Tool
import Mathlib.Algebra.GroupWithZero.Nat

namespace AutoHarness

/-- The bytes of one character of a JSON string, escaped as the compact formatter does. -/
def escapedBytes (character : Char) : Nat :=
  let code := character.toNat
  if code = 0x22 ∨ code = 0x5C ∨ code = 0x08 ∨ code = 0x09 ∨ code = 0x0A ∨ code = 0x0C ∨
      code = 0x0D then 2
  else if code < 0x20 then 6
  else character.utf8Size

def stringBytes (text : String) : Nat :=
  2 + (text.toList.map escapedBytes).sum

section Encoded

variable (floatBytes : UInt64 → Nat)

def JsonNumber.encodedBytes : JsonNumber → Nat
  | .posInt value => (Nat.repr value.toNat).length
  | .negInt value => (Int.repr value.toInt).length
  | .float bits => floatBytes bits

mutual

/-- The length of the compact text; the printed form of a float is a parameter. -/
def JsonValue.encodedBytes : JsonValue → Nat
  | .null => 4
  | .bool value => if value then 4 else 5
  | .number value => value.encodedBytes floatBytes
  | .string value => stringBytes value
  | .array items => 2 + (items.length - 1) + JsonValue.itemBytes items
  | .object fields => 2 + (fields.length - 1) + JsonValue.fieldBytes fields

def JsonValue.itemBytes : List JsonValue → Nat
  | [] => 0
  | item :: items => item.encodedBytes + JsonValue.itemBytes items

def JsonValue.fieldBytes : List (String × JsonValue) → Nat
  | [] => 0
  | (key, value) :: fields =>
    stringBytes key + 1 + value.encodedBytes + JsonValue.fieldBytes fields

end

end Encoded

mutual

def JsonValue.floatFree : JsonValue → Bool
  | .number (.float _) => false
  | .array items => JsonValue.itemsFloatFree items
  | .object fields => JsonValue.fieldsFloatFree fields
  | _ => true

def JsonValue.itemsFloatFree : List JsonValue → Bool
  | [] => true
  | item :: items => item.floatFree && JsonValue.itemsFloatFree items

def JsonValue.fieldsFloatFree : List (String × JsonValue) → Bool
  | [] => true
  | (_, value) :: fields => value.floatFree && JsonValue.fieldsFloatFree fields

end

mutual

/-- The printed form of floats does not matter to a value without one. -/
theorem encodedBytes_floatFree (f g : UInt64 → Nat) :
    ∀ value : JsonValue, value.floatFree = true → value.encodedBytes f = value.encodedBytes g
  | .null, _ | .bool _, _ | .string _, _ => by simp [JsonValue.encodedBytes]
  | .number (.posInt _), _ | .number (.negInt _), _ => by
    simp [JsonValue.encodedBytes, JsonNumber.encodedBytes]
  | .number (.float _), free => by simp [JsonValue.floatFree] at free
  | .array items, free => by
    simp only [JsonValue.floatFree] at free
    simp only [JsonValue.encodedBytes, itemBytes_floatFree f g items free]
  | .object fields, free => by
    simp only [JsonValue.floatFree] at free
    simp only [JsonValue.encodedBytes, fieldBytes_floatFree f g fields free]

theorem itemBytes_floatFree (f g : UInt64 → Nat) :
    ∀ items : List JsonValue, JsonValue.itemsFloatFree items = true →
      JsonValue.itemBytes f items = JsonValue.itemBytes g items
  | [], _ => by simp [JsonValue.itemBytes]
  | item :: items, free => by
    simp only [JsonValue.itemsFloatFree, Bool.and_eq_true] at free
    simp only [JsonValue.itemBytes, encodedBytes_floatFree f g item free.1,
      itemBytes_floatFree f g items free.2]

theorem fieldBytes_floatFree (f g : UInt64 → Nat) :
    ∀ fields : List (String × JsonValue), JsonValue.fieldsFloatFree fields = true →
      JsonValue.fieldBytes f fields = JsonValue.fieldBytes g fields
  | [], _ => by simp [JsonValue.fieldBytes]
  | (key, value) :: fields, free => by
    simp only [JsonValue.fieldsFloatFree, Bool.and_eq_true] at free
    simp only [JsonValue.fieldBytes, encodedBytes_floatFree f g value free.1,
      fieldBytes_floatFree f g fields free.2]

end

def JsonValue.isObject : JsonValue → Bool
  | .object _ => true
  | _ => false

end AutoHarness
