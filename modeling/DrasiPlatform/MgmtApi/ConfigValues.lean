/-
Configuration values in the management API (`control-planes/mgmt_api/src/api/v1/models/mod.rs`, `mappings/mod.rs`): how a
GET response writes them, how a PUT request reads them, and the mappings to the domain.

Writing is derived: a tagged map around an externally tagged one. Reading is a visitor of its own, which takes a bare
string, number, boolean or list, or a map with a `kind` whose fields are those of `FakeConfigValueDto`. An integer of a
document is a `u64` or an `i64` where it fits, and a floating point number otherwise; its bits are the parameter `float`.
A `kind` given by its index in place of its name is not modelled.

- `toValue_ofValue`: the mappings lose nothing.
- `deserialize_bare`: values written bare are read back, to any depth of nesting.
- `round_trip_iff`: a value that the API has written is read back if and only if it is a secret; every inline value is
  refused.
- `deserialize_integer_inj_iff`: two integers are read as one value if and only if they are 2^64 apart and one is an `i64`,
  the other a `u64`.
- `config_values_iff`: both.
Witness: `inline_refused`.
-/
import Mathlib.Tactic
import DrasiPlatform.MgmtApi.ExtensibleSpec

namespace DrasiPlatform.MgmtApi

open Json Serde

/-! ## The model of the API -/

mutual

inductive ConfigValueDto where
  | inline (value : InlineValueDto)
  | secret (name key : String)

inductive InlineValueDto where
  | string (value : String)
  | integer (value : Int64)
  | boolean (value : Bool)
  | list (value : List ConfigValueDto)

end

/-! ### Mappings -/

namespace ConfigValueDto

mutual

/-- `From<ConfigValue> for ConfigValueDto` -/
def ofValue : ConfigValue → ConfigValueDto
  | .string value => .inline (.string value)
  | .integer value => .inline (.integer value)
  | .boolean value => .inline (.boolean value)
  | .list value => .inline (.list (ofValues value))
  | .secret name key => .secret name key

def ofValues : List ConfigValue → List ConfigValueDto
  | [] => []
  | v :: vs => ofValue v :: ofValues vs

end

mutual

/-- `From<ConfigValueDto> for ConfigValue` -/
def toValue : ConfigValueDto → ConfigValue
  | .inline (.string value) => .string value
  | .inline (.integer value) => .integer value
  | .inline (.boolean value) => .boolean value
  | .inline (.list value) => .list (toValues value)
  | .secret name key => .secret name key

def toValues : List ConfigValueDto → List ConfigValue
  | [] => []
  | v :: vs => toValue v :: toValues vs

end

mutual

theorem toValue_ofValue : (v : ConfigValue) → toValue (ofValue v) = v
  | .string _ => rfl
  | .integer _ => rfl
  | .boolean _ => rfl
  | .list value => congrArg ConfigValue.list (toValues_ofValues value)
  | .secret _ _ => rfl

theorem toValues_ofValues : (vs : List ConfigValue) → toValues (ofValues vs) = vs
  | [] => rfl
  | v :: vs => congrArg₂ List.cons (toValue_ofValue v) (toValues_ofValues vs)

end

end ConfigValueDto

/-! ### Writing -/

mutual

/-- `Serialize`: tagged by `kind` -/
def ConfigValueDto.json : ConfigValueDto → Value
  | .inline value => .object [("kind", .string "Inline"), ("value", value.json)]
  | .secret name key => .object [("kind", .string "Secret"), ("name", .string name), ("key", .string key)]

/-- `Serialize`: tagged by the name of the variant -/
def InlineValueDto.json : InlineValueDto → Value
  | .string value => .object [("String", .object [("value", .string value)])]
  | .integer value => .object [("Integer", .object [("value", .ofInt64 value)])]
  | .boolean value => .object [("Boolean", .object [("value", .bool value)])]
  | .list value => .object [("List", .object [("value", .array (ConfigValueDto.jsonList value))])]

def ConfigValueDto.jsonList : List ConfigValueDto → List Value
  | [] => []
  | v :: vs => v.json :: ConfigValueDto.jsonList vs

end

/-! ### Reading -/

namespace ConfigValueDto

def fromStr (s : String) : ConfigValueDto := .inline (.string s)

def fromInteger (n : Int64) : ConfigValueDto := .inline (.integer n)

def fromBoolean (b : Bool) : ConfigValueDto := .inline (.boolean b)

/-- `StringOrConfig::expecting` -/
def expecting : DecodeError := .invalidType "string or map or bool"

def i64 : Decoder Int64
  | .number n =>
    match asI64 n with
    | some n => .ok n
    | none => .error (.invalidType "i64")
  | _ => .error (.invalidType "i64")

/-- `FakeConfigValueDto`, tagged by `kind`; `lists` is what each field would be as a list of values -/
def fakeConfigValue (lists : List (String × Except DecodeError (List ConfigValueDto))) (fields : Fields) :
    Except DecodeError ConfigValueDto := do
  match ← required string "kind" fields with
  | "Inline" =>
    let value ← required string "value" fields
    return .inline (.string value)
  | "Secret" =>
    let name ← required string "name" fields
    let key ← required string "key" fields
    return .secret name key
  | "List" =>
    match lists.filter fun f => f.1 = "value" with
    | [] => .error (.missingField "value")
    | [(_, value)] => value.map fun value => .inline (.list value)
    | _ => .error (.duplicateField "value")
  | "Boolean" =>
    let value ← required bool "value" fields
    return .inline (.boolean value)
  | "Integer" =>
    let value ← required i64 "value" fields
    return .inline (.integer value)
  | kind => .error (.unknownVariant kind)

mutual

/-- `Deserialize`, with the visitor `StringOrConfig` -/
def deserialize : Value → Except DecodeError ConfigValueDto
  | .null => .error expecting
  | .bool b => .ok (fromBoolean b)
  | .number (.posInt n) => .ok (fromInteger n.toInt64) -- `value as i64`
  | .number (.negInt n) => .ok (fromInteger n)
  | .number (.float _) => .error expecting
  | .string s => .ok (fromStr s)
  | .array a => (deserializeAll a).map fun value => .inline (.list value)
  | .object fields => fakeConfigValue (deserializeLists fields) fields

def deserializeAll : List Value → Except DecodeError (List ConfigValueDto)
  | [] => .ok []
  | v :: vs => do
    let x ← deserialize v
    let xs ← deserializeAll vs
    return x :: xs

/-- every field, as a list of values -/
def deserializeLists : Fields → List (String × Except DecodeError (List ConfigValueDto))
  | [] => []
  | (k, .array a) :: fields => (k, deserializeAll a) :: deserializeLists fields
  | (k, _) :: fields => (k, .error (.invalidType "a sequence")) :: deserializeLists fields

end

end ConfigValueDto

/-! ## What is written bare is read -/

mutual

/-- a value as a client writes it: inline values without a tag -/
def ConfigValue.bare : ConfigValue → Value
  | .string value => .string value
  | .integer value => .ofInt64 value
  | .boolean value => .bool value
  | .list value => .array (ConfigValue.bareList value)
  | .secret name key => .object [("kind", .string "Secret"), ("name", .string name), ("key", .string key)]

def ConfigValue.bareList : List ConfigValue → List Value
  | [] => []
  | v :: vs => v.bare :: ConfigValue.bareList vs

end

namespace ConfigValueDto

theorem deserialize_ofInt64 (n : Int64) : deserialize (.ofInt64 n) = .ok (fromInteger n) := by
  unfold Value.ofInt64
  split
  · simp [deserialize]
  · simp [deserialize]

mutual

/-- **Bare values are read back**, to any depth of nesting. -/
theorem deserialize_bare : (v : ConfigValue) → deserialize v.bare = .ok (ofValue v)
  | .string _ => rfl
  | .integer value => deserialize_ofInt64 value
  | .boolean _ => rfl
  | .list value => by
    rw [ConfigValue.bare, deserialize, deserializeAll_bareList value]
    rfl
  | .secret _ _ => rfl

theorem deserializeAll_bareList : (vs : List ConfigValue) → deserializeAll (ConfigValue.bareList vs) = .ok (ofValues vs)
  | [] => rfl
  | v :: vs => by
    rw [ConfigValue.bareList, deserializeAll, deserialize_bare v, deserializeAll_bareList vs]
    rfl

end

end ConfigValueDto

/-! ## What the API writes -/

def ConfigValue.isSecret : ConfigValue → Bool
  | .secret _ _ => true
  | _ => false

/-- out in a GET response and back in a PUT request -/
def ConfigValue.roundTrip (v : ConfigValue) : Except DecodeError ConfigValue :=
  (ConfigValueDto.deserialize (ConfigValueDto.ofValue v).json).map ConfigValueDto.toValue

/-- an inline value is written as a map, where its reader takes a string -/
theorem deserialize_inline (value : InlineValueDto) :
    ConfigValueDto.deserialize (ConfigValueDto.inline value).json = .error (.invalidType "a string") := by
  cases value <;> rfl

/-- **Only secrets round trip.** -/
theorem round_trip_iff (v : ConfigValue) : v.roundTrip = .ok v ↔ v.isSecret = true := by
  have hinline : ∀ value, ConfigValueDto.ofValue v = .inline value → v.roundTrip ≠ .ok v := by
    intro value hv
    rw [ConfigValue.roundTrip, hv, deserialize_inline]
    exact fun h => by cases h
  cases v with
  | secret name key => exact ⟨fun _ => rfl, fun _ => rfl⟩
  | string _ | integer _ | boolean _ | list _ => exact ⟨fun h => absurd h (hinline _ rfl), fun h => by cases h⟩

/-! ## Integers of a document -/

/-- an integer as `serde_json` takes it from a document; `float` gives the bits of one that fits no integer type -/
def integerLiteral (float : ℤ → UInt64) (i : ℤ) : Value :=
  if 0 ≤ i ∧ i < 2 ^ 64 then .number (.posInt (.ofNat i.toNat))
  else if -2 ^ 63 ≤ i ∧ i < 0 then .number (.negInt (.ofInt i))
  else .number (.float (float i))

/-- one is read by `visit_i64` and the other by `visit_u64`, 2^64 above it -/
def WrapsTo (a b : ℤ) : Prop := -2 ^ 63 ≤ a ∧ b = a + 2 ^ 64 ∧ b < 2 ^ 64

/-- an integer is read modulo 2^64, when it fits one of the two types -/
theorem deserialize_integer (float : ℤ → UInt64) (i : ℤ) :
    ConfigValueDto.deserialize (integerLiteral float i) =
      if -2 ^ 63 ≤ i ∧ i < 2 ^ 64 then .ok (ConfigValueDto.fromInteger (.ofInt i)) else .error ConfigValueDto.expecting := by
  unfold integerLiteral
  by_cases hpos : 0 ≤ i ∧ i < 2 ^ 64
  · have hnat : Int64.ofNat i.toNat = .ofInt i := by rw [← Int64.ofInt_eq_ofNat, Int.toNat_of_nonneg hpos.1]
    rw [if_pos hpos, if_pos ⟨by omega, hpos.2⟩, ConfigValueDto.deserialize, UInt64.toInt64_ofNat', hnat]
  · rw [if_neg hpos]
    by_cases hneg : -2 ^ 63 ≤ i ∧ i < 0
    · rw [if_pos hneg, if_pos ⟨hneg.1, by omega⟩, ConfigValueDto.deserialize]
    · rw [if_neg hneg, if_neg (by omega), ConfigValueDto.deserialize]

theorem ofInt_eq_iff {a b : ℤ} (ha : -2 ^ 63 ≤ a ∧ a < 2 ^ 64) (hb : -2 ^ 63 ≤ b ∧ b < 2 ^ 64) :
    Int64.ofInt a = Int64.ofInt b ↔ a = b ∨ WrapsTo a b ∨ WrapsTo b a := by
  have hsize : (Int64.size : ℤ) = 2 ^ 64 := rfl
  unfold WrapsTo
  rw [← Int64.toInt_inj, Int64.toInt_ofInt, Int64.toInt_ofInt, Int.bmod_def, Int.bmod_def, hsize]
  omega

/-- **When integers are kept apart.** -/
theorem deserialize_integer_inj_iff (float : ℤ → UInt64) (a b : ℤ) :
    (∀ x, ConfigValueDto.deserialize (integerLiteral float a) = .ok x →
      ConfigValueDto.deserialize (integerLiteral float b) = .ok x → a = b) ↔ ¬ (WrapsTo a b ∨ WrapsTo b a) := by
  rw [deserialize_integer, deserialize_integer]
  constructor
  · intro h hwrap
    have hrange : (-2 ^ 63 ≤ a ∧ a < 2 ^ 64) ∧ -2 ^ 63 ≤ b ∧ b < 2 ^ 64 := by
      unfold WrapsTo at hwrap
      omega
    have heq : Int64.ofInt a = Int64.ofInt b := (ofInt_eq_iff hrange.1 hrange.2).2 (.inr hwrap)
    rw [if_pos hrange.1, if_pos hrange.2, heq] at h
    have hab : a = b := h _ rfl rfl
    unfold WrapsTo at hwrap
    omega
  · intro hwrap x hx hy
    split at hx
    · next ha =>
      split at hy
      · next hb =>
        cases hx
        simp only [Except.ok.injEq, ConfigValueDto.fromInteger, ConfigValueDto.inline.injEq,
          InlineValueDto.integer.injEq] at hy
        exact ((ofInt_eq_iff ha hb).1 hy.symm).resolve_right hwrap
      · cases hy
    · cases hx

/-- **Config values through the API**: exactly the secrets come back, and two integers are kept apart unless one wraps to
the other. -/
theorem config_values_iff (float : ℤ → UInt64) (v : ConfigValue) (a b : ℤ) :
    (v.roundTrip = .ok v ↔ v.isSecret = true) ∧
    ((∀ x, ConfigValueDto.deserialize (integerLiteral float a) = .ok x →
      ConfigValueDto.deserialize (integerLiteral float b) = .ok x → a = b) ↔ ¬ (WrapsTo a b ∨ WrapsTo b a)) :=
  ⟨round_trip_iff v, deserialize_integer_inj_iff float a b⟩

/-- the inline string `redis` is refused when it comes back, and the greatest `u64` is read as -1 -/
theorem inline_refused :
    (¬ ∀ v : ConfigValue, v.roundTrip = .ok v) ∧
    (ConfigValue.string "redis").roundTrip = .error (.invalidType "a string") ∧
    ConfigValueDto.deserialize (integerLiteral (fun _ => 0) 18446744073709551615) =
      ConfigValueDto.deserialize (integerLiteral (fun _ => 0) (-1)) ∧
    (ConfigValueDto.deserialize (integerLiteral (fun _ => 0) (-1))).isOk = true := by
  refine ⟨fun h => ?_, rfl, rfl, rfl⟩
  cases h (.string "redis")

end DrasiPlatform.MgmtApi
