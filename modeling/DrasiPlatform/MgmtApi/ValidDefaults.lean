/-
Whether the defaults of a provider pass the provider's own schema: `populate_default_values` turns them into configuration
values, and the validators (`SourceSpecValidator`, `ReactionSpecValidator`) turn those back into JSON.

JSON Schema itself is a parameter, with what its documentation says of a schema for objects (`Documented`).

For the properties of a resource the two conversions undo each other (`json_of_listDefault`). For those of a service an
array becomes the text of its items, and no schema that accepts the array accepts a text.

- `checkProperties_eq_ok_iff`: what the validation of one map comes down to.
- `check_listDefaults`: a resource with its defaults is valid.
- `check_joinedDefaults_iff`: a service with its defaults is valid exactly when the user sets every property with an array
  as its default.
- `defaults_accepted_iff`: the two validators, on every source and every reaction.

Witness: `listed_scopes_accepted`. A default that is refused: `array_default_refused`.
-/
import Mathlib.Tactic
import DrasiPlatform.MgmtApi.MergedSpecs
import DrasiPlatform.Provider.BuiltSpecs

namespace DrasiPlatform.MgmtApi

open Json
open Provider (StrMap)

/-! ## JSON Schema -/

def JsonSchema.fields (schema : JsonSchema) : StrMap PropertySchema := schema.properties.getD ∅

/-- a schema for objects, which lists no values -/
def JsonSchema.IsObject (schema : JsonSchema) : Prop :=
  schema.keywords.get "type" = .string "object" ∧ schema.keywords.get "enum" = .null

/-- every required property is there, and every property that has a schema is valid -/
structure ValidFields (accepts : PropertySchema → Value → Prop) (schema : JsonSchema) (fields : List (String × Value)) :
    Prop where
  required : ∀ key ∈ schema.required.getD [], key ∈ fields.map Prod.fst
  properties : ∀ key v property, (key, v) ∈ fields → schema.fields.lookup key = some property → accepts property v

/-- what `properties`, `required` and `type` say; `accepts` is the validity of a value for the schema of a property -/
structure Documented (compile : Compile) (accepts : PropertySchema → Value → Prop) : Prop where
  object : ∀ schema validate, compile schema = some validate → schema.IsObject → ∀ fields : List (String × Value),
    (fields.map Prod.fst).Nodup → (validate (.object fields) = none ↔ ValidFields accepts schema fields)
  oneType : ∀ property items text, accepts property (.array items) → ¬ accepts property (.string text)

/-- a string, a boolean or an integer -/
def IsScalar : Value → Prop
  | .string _ => True
  | .bool _ => True
  | .number (.posInt _) => True
  | .number (.negInt n) => n < 0
  | _ => False

/-- a scalar, or an array of scalars -/
def IsDefault : Value → Prop
  | .array items => ∀ v ∈ items, IsScalar v
  | v => IsScalar v

/-- a schema for objects whose defaults are valid for the properties they belong to -/
structure SoundSchema (compile : Compile) (accepts : PropertySchema → Value → Prop) (schema : JsonSchema) : Prop where
  compiles : (compile schema).isSome
  isObject : schema.IsObject
  defaults : ∀ key property v, schema.fields.lookup key = some property → property.default_ = some v →
    IsDefault v ∧ accepts property v

/-- the user's values are valid, and no required property without a default is missing -/
structure Supplies (accepts : PropertySchema → Value → Prop) (schema : JsonSchema) (user : StrMap ConfigValue) : Prop where
  valid : ∀ key value property, user.lookup key = some value → schema.fields.lookup key = some property →
    accepts property value.json
  required : ∀ key ∈ schema.required.getD [], key ∈ user ∨
    ∃ property v, schema.fields.lookup key = some property ∧ property.default_ = some v

/-! ## Numbers and back -/

theorem ofInt64_of_asI64 {n : Number} {i : Int64} (hscalar : IsScalar (.number n)) (h : asI64 n = some i) :
    Value.ofInt64 i = .number n := by
  cases n with
  | posInt n =>
    simp only [asI64, Option.ite_none_right_eq_some, Option.some.injEq] at h
    obtain ⟨hlt, rfl⟩ := h
    have hint : n.toInt64 = Int64.ofNat n.toNat := by rw [← UInt64.toInt64_ofNat', UInt64.ofNat_toNat]
    have hnonneg : 0 ≤ n.toInt64 := by
      rw [Int64.le_iff_toInt_le, hint, Int64.toInt_ofNat_of_lt hlt]
      exact Int.natCast_nonneg n.toNat
    rw [Value.ofInt64, if_pos hnonneg, UInt64.toUInt64_toInt64]
  | negInt n =>
    obtain rfl : n = i := Option.some.inj h
    have hneg : ¬ 0 ≤ n := by
      rw [Int64.not_le]
      exact hscalar
    rw [Value.ofInt64, if_neg hneg]
  | float bits => cases h

theorem expectInteger_eq_ok {n : Number} {i : Int64} (h : expectInteger n = .ok i) : asI64 n = some i := by
  unfold expectInteger at h
  split at h
  · next hn =>
    cases h
    exact hn
  · cases h

/-- a scalar default is converted to a value whose JSON is the default, as a value and as an item of a list -/
theorem json_of_scalarDefault {v : Value} {converted : Option ConfigValue} (h : scalarDefault v = .ok converted)
    (hscalar : IsScalar v) : ∃ value, converted = some value ∧ value.json = v ∧ value.itemJson = v := by
  cases v with
  | string s =>
    cases h
    exact ⟨_, rfl, rfl, rfl⟩
  | bool b =>
    cases h
    exact ⟨_, rfl, rfl, rfl⟩
  | number n =>
    cases hn : expectInteger n with
    | error e => simp [scalarDefault, hn, Except.map] at h
    | ok i =>
      obtain rfl : some (.integer i) = converted := by simpa [scalarDefault, hn, Except.map] using h
      have hjson := ofInt64_of_asI64 hscalar (expectInteger_eq_ok hn)
      exact ⟨_, rfl, hjson, hjson⟩
  | _ => cases hscalar

theorem itemsJson_of_convertItems {items : List Value} (hscalar : ∀ v ∈ items, IsScalar v) {values : List ConfigValue}
    (h : convertItems scalarDefault items = .ok values) : values.map ConfigValue.itemJson = items := by
  induction items generalizing values with
  | nil =>
    cases h
    rfl
  | cons v items ih =>
    obtain ⟨hv, hitems⟩ := List.forall_mem_cons.1 hscalar
    obtain ⟨converted, hconverted, h⟩ := Serde.bind_eq_ok.1 h
    obtain ⟨rest, hrest, h⟩ := Serde.bind_eq_ok.1 h
    cases h
    obtain ⟨value, rfl, -, hjson⟩ := json_of_scalarDefault hconverted hv
    rw [Option.toList_some, List.singleton_append, List.map_cons, hjson, ih hitems hrest]

theorem scalar_or_array {v : Value} (h : IsDefault v) :
    (∃ items, v = .array items ∧ ∀ item ∈ items, IsScalar item) ∨
      IsScalar v ∧ ∀ array, defaultValue array v = scalarDefault v := by
  cases v with
  | array items => exact .inl ⟨items, rfl, h⟩
  | _ => exact .inr ⟨h, fun _ => rfl⟩

/-- **A default of a resource is the value that the provider declares**, once it is JSON again. -/
theorem json_of_listDefault {v : Value} (hdefault : IsDefault v) {converted : Option ConfigValue}
    (h : defaultValue listDefault v = .ok converted) : ∃ value, converted = some value ∧ value.json = v := by
  rcases scalar_or_array hdefault with ⟨items, rfl, hscalar⟩ | ⟨hscalar, hconvert⟩
  · cases hitems : convertItems scalarDefault items with
    | error e => simp [defaultValue, listDefault, hitems, Except.map] at h
    | ok values =>
      obtain rfl : some (.list values) = converted := by simpa [defaultValue, listDefault, hitems, Except.map] using h
      refine ⟨_, rfl, ?_⟩
      rw [ConfigValue.json, itemsJson_of_convertItems hscalar hitems]
  · rw [hconvert] at h
    obtain ⟨value, hvalue, hjson, -⟩ := json_of_scalarDefault h hscalar
    exact ⟨value, hvalue, hjson⟩

/-- a default of a service is the same value, or the text of an array's items -/
theorem json_of_joinedDefault {v : Value} (hdefault : IsDefault v) {converted : Option ConfigValue}
    (h : defaultValue joinedDefault v = .ok converted) : ∃ value, converted = some value ∧
      ((∃ items text, v = .array items ∧ value.json = .string text) ∨ (∀ items, v ≠ .array items) ∧ value.json = v) := by
  rcases scalar_or_array hdefault with ⟨items, rfl, -⟩ | ⟨hscalar, hconvert⟩
  · cases hitems : convertItems itemText items with
    | error e => simp [defaultValue, joinedDefault, hitems, Except.map] at h
    | ok texts =>
      obtain rfl : some (.string (",".intercalate texts)) = converted := by
        simpa [defaultValue, joinedDefault, hitems, Except.map] using h
      exact ⟨_, rfl, .inl ⟨items, _, rfl, rfl⟩⟩
  · rw [hconvert] at h
    obtain ⟨value, hvalue, hjson, -⟩ := json_of_scalarDefault h hscalar
    refine ⟨value, hvalue, .inr ⟨?_, hjson⟩⟩
    rintro items rfl
    exact hscalar

/-! ## One map of properties -/

/-- the fields that the validator makes of a map -/
def fieldsOf (properties : StrMap ConfigValue) : List (String × Value) :=
  (Provider.sorted properties).map fun e => (e.1, e.2.json)

theorem keys_fieldsOf (properties : StrMap ConfigValue) :
    (fieldsOf properties).map Prod.fst = (Provider.sorted properties).map Prod.fst := by
  rw [fieldsOf, List.map_map]
  rfl

theorem mem_keys_fieldsOf {properties : StrMap ConfigValue} {key : String} :
    key ∈ (fieldsOf properties).map Prod.fst ↔ key ∈ properties := by
  have hperm := (Provider.sortEntries_perm (properties.entries.map fun e => (e.1, e.2))).map Prod.fst
  rw [keys_fieldsOf, Provider.sorted, hperm.mem_iff, List.map_map]
  rfl

theorem mem_fieldsOf {properties : StrMap ConfigValue} {key : String} {v : Value} :
    (key, v) ∈ fieldsOf properties ↔ ∃ value, properties.lookup key = some value ∧ value.json = v := by
  have hperm := Provider.sortEntries_perm (properties.entries.map fun e => (e.1, e.2))
  rw [fieldsOf, List.mem_map]
  constructor
  · rintro ⟨entry, hentry, h⟩
    cases h
    exact ⟨entry.2, Provider.mem_sorted hentry, rfl⟩
  · rintro ⟨value, hvalue, rfl⟩
    have hmem : (⟨key, value⟩ : Σ _ : String, ConfigValue) ∈ properties.entries := AList.mem_lookup_iff.1 hvalue
    exact ⟨(key, value), hperm.mem_iff.2 (List.mem_map.2 ⟨_, hmem, rfl⟩), rfl⟩

/-- a map of properties is what the schema asks for -/
structure ValidProperties (accepts : PropertySchema → Value → Prop) (schema : JsonSchema)
    (properties : StrMap ConfigValue) : Prop where
  required : ∀ key ∈ schema.required.getD [], key ∈ properties
  valid : ∀ key value property, properties.lookup key = some value → schema.fields.lookup key = some property →
    accepts property value.json

theorem validFields_fieldsOf_iff {accepts : PropertySchema → Value → Prop} {schema : JsonSchema}
    {properties : StrMap ConfigValue} :
    ValidFields accepts schema (fieldsOf properties) ↔ ValidProperties accepts schema properties := by
  constructor
  · intro h
    refine ⟨fun key hkey => mem_keys_fieldsOf.1 (h.required key hkey), ?_⟩
    intro key value property hvalue hproperty
    exact h.properties key value.json property (mem_fieldsOf.2 ⟨value, hvalue, rfl⟩) hproperty
  · intro h
    refine ⟨fun key hkey => mem_keys_fieldsOf.2 (h.required key hkey), ?_⟩
    intro key v property hmem hproperty
    obtain ⟨value, hvalue, rfl⟩ := mem_fieldsOf.1 hmem
    exact h.valid key value property hvalue hproperty

section Validation

variable {compile : Compile} {accepts : PropertySchema → Value → Prop}

/-- **What the validation of a map comes down to.** -/
theorem checkProperties_eq_ok_iff (hdocumented : Documented compile accepts) {schema : JsonSchema}
    (hsound : SoundSchema compile accepts schema) (badSchema invalid : String) (properties : StrMap ConfigValue) :
    checkProperties compile schema badSchema invalid (.ok properties) = .ok () ↔
      ValidProperties accepts schema properties := by
  obtain ⟨validate, hvalidate⟩ := Option.isSome_iff_exists.1 hsound.compiles
  have hnodup : ((fieldsOf properties).map Prod.fst).Nodup := by
    rw [keys_fieldsOf]
    exact Provider.nodup_keys_sorted properties
  rw [← validFields_fieldsOf_iff, ← hdocumented.object schema validate hvalidate hsound.isObject _ hnodup]
  have hjson : propertiesJson properties = .object (fieldsOf properties) := rfl
  simp only [checkProperties, hvalidate, hjson]
  cases validate (.object (fieldsOf properties)) with
  | none => simp
  | some error => simp

/-! ## Defaults -/

/-- a default that the user has not set is converted -/
theorem lookup_default {array : List Value → Except DomainError ConfigValue} {schema : JsonSchema}
    {user merged : StrMap ConfigValue} (h : addDefaults array user schema.fields.entries = .ok merged) {key : String}
    (huser : user.lookup key = none) {property : PropertySchema} (hproperty : schema.fields.lookup key = some property)
    {v : Value} (hv : property.default_ = some v) :
    ∃ converted, defaultValue array v = .ok converted ∧ merged.lookup key = converted := by
  have hlookup : merged.lookup key = (defaultValue array v).toOption.join := by
    rw [lookup_addDefaults schema.fields.nodupKeys h, huser, Option.none_or,
      show schema.fields.entries.dlookup key = some property from hproperty, Option.bind_some, defaultOf, hv, Option.bind_some]
  rcases (settled_of_addDefaults h).2 _ (AList.mem_lookup_iff.1 hproperty) with hmem | hnone
  · have hsome := AList.lookup_isSome.2 hmem
    cases hconverted : defaultValue array v with
    | error e => simp [hlookup, hconverted, Except.toOption] at hsome
    | ok converted =>
      rw [hconverted] at hlookup
      exact ⟨converted, rfl, hlookup⟩
  · rw [hnone v hv] at hlookup ⊢
    exact ⟨none, rfl, hlookup⟩

/-- a merged value that is not the user's comes from a default -/
theorem default_of_lookup {array : List Value → Except DomainError ConfigValue} {schema : JsonSchema}
    {user merged : StrMap ConfigValue} (h : addDefaults array user schema.fields.entries = .ok merged) {key : String}
    (huser : user.lookup key = none) {property : PropertySchema} (hproperty : schema.fields.lookup key = some property)
    {value : ConfigValue} (hvalue : merged.lookup key = some value) :
    ∃ v, property.default_ = some v ∧ defaultValue array v = .ok (some value) := by
  cases hv : property.default_ with
  | none =>
    rw [lookup_addDefaults schema.fields.nodupKeys h, huser, Option.none_or,
      show schema.fields.entries.dlookup key = some property from hproperty, Option.bind_some, defaultOf, hv] at hvalue
    cases hvalue
  | some v =>
    obtain ⟨converted, hconverted, hlookup⟩ := lookup_default h huser hproperty hv
    rw [← hlookup, hvalue] at hconverted
    exact ⟨v, rfl, hconverted⟩

/-- a map with its defaults is valid if the conversion of a default, and the validator's back, undo each other -/
theorem validProperties_of_addDefaults {array : List Value → Except DomainError ConfigValue} {schema : JsonSchema}
    (hsound : SoundSchema compile accepts schema) {user merged : StrMap ConfigValue} (huser : Supplies accepts schema user)
    (h : addDefaults array user schema.fields.entries = .ok merged)
    (hjson : ∀ key property v converted, key ∉ user → schema.fields.lookup key = some property →
      property.default_ = some v → defaultValue array v = .ok converted →
      ∃ value, converted = some value ∧ value.json = v) :
    ValidProperties accepts schema merged := by
  constructor
  · intro key hkey
    cases hown : user.lookup key with
    | some value => exact (settled_of_addDefaults h).1 key (AList.lookup_isSome.1 (by rw [hown]; rfl))
    | none =>
      have hmem := AList.lookup_eq_none.1 hown
      obtain ⟨property, v, hproperty, hv⟩ := (huser.required key hkey).resolve_left hmem
      obtain ⟨converted, hconverted, hlookup⟩ := lookup_default h hown hproperty hv
      obtain ⟨value, rfl, -⟩ := hjson key property v converted hmem hproperty hv hconverted
      exact AList.lookup_isSome.1 (by rw [hlookup]; rfl)
  · intro key value property hvalue hproperty
    cases hown : user.lookup key with
    | some own =>
      rw [lookup_addDefaults schema.fields.nodupKeys h, hown, Option.some_or] at hvalue
      cases hvalue
      exact huser.valid key value property hown hproperty
    | none =>
      obtain ⟨v, hv, hconverted⟩ := default_of_lookup h hown hproperty hvalue
      obtain ⟨value', hsome, hback⟩ := hjson key property v _ (AList.lookup_eq_none.1 hown) hproperty hv hconverted
      cases hsome
      rw [hback]
      exact (hsound.defaults key property v hproperty hv).2

/-- **A resource with its defaults is valid.** -/
theorem check_listDefaults {schema : JsonSchema} (hsound : SoundSchema compile accepts schema)
    {user merged : StrMap ConfigValue} (huser : Supplies accepts schema user)
    (h : addDefaults listDefault user schema.fields.entries = .ok merged) : ValidProperties accepts schema merged := by
  refine validProperties_of_addDefaults hsound huser h fun key property v converted _ hproperty hv hconverted => ?_
  exact json_of_listDefault (hsound.defaults key property v hproperty hv).1 hconverted

/-- every property with an array as its default is set by the user -/
def ArraysSet (schema : JsonSchema) (user : StrMap ConfigValue) : Prop :=
  ∀ key property items, schema.fields.lookup key = some property → property.default_ = some (.array items) → key ∈ user

/-- **A service with its defaults is valid when no array is among them.** -/
theorem check_joinedDefaults_iff (hdocumented : Documented compile accepts) {schema : JsonSchema}
    (hsound : SoundSchema compile accepts schema) {user merged : StrMap ConfigValue} (huser : Supplies accepts schema user)
    (h : addDefaults joinedDefault user schema.fields.entries = .ok merged) :
    ValidProperties accepts schema merged ↔ ArraysSet schema user := by
  constructor
  · intro hvalid key property items hproperty hv
    by_contra hkey
    -- the text of the items would be valid, and so is the array
    obtain ⟨converted, hconverted, hlookup⟩ := lookup_default h (AList.lookup_eq_none.2 hkey) hproperty hv
    obtain ⟨hdefault, haccepts⟩ := hsound.defaults key property _ hproperty hv
    obtain ⟨value, rfl, hjson⟩ := json_of_joinedDefault hdefault hconverted
    rcases hjson with ⟨_, text, -, hjson⟩ | ⟨hne, -⟩
    · have htext := hvalid.valid key value property hlookup hproperty
      rw [hjson] at htext
      exact hdocumented.oneType property items text haccepts htext
    · exact hne items rfl
  · intro harrays
    refine validProperties_of_addDefaults hsound huser h fun key property v converted hkey hproperty hv hconverted => ?_
    obtain ⟨value, hvalue, hjson⟩ := json_of_joinedDefault (hsound.defaults key property v hproperty hv).1 hconverted
    rcases hjson with ⟨items, text, rfl, -⟩ | ⟨-, hjson⟩
    · exact absurd (harrays key property items hproperty hv) hkey
    · exact ⟨value, hvalue, hjson⟩

/-! ## The validators -/

/-- a provider whose schemas are sound -/
structure SoundProvider (compile : Compile) (accepts : PropertySchema → Value → Prop) (schema : ProviderSpec) : Prop where
  ofResource : ∀ config, schema.configSchema = some config → SoundSchema compile accepts config
  ofServices : ∀ name provider config, schema.services.lookup name = some provider → provider.configSchema = some config →
    SoundSchema compile accepts config

/-- the properties that a user sets for a service -/
def userProperties (services : Option (StrMap ServiceConfig)) (name : String) : StrMap ConfigValue :=
  (((services.getD ∅).lookup name).getD .empty).properties.getD ∅

/-- a user's specification with valid values, and every required property that has no default -/
structure SuppliesSpec (accepts : PropertySchema → Value → Prop) (schema : ProviderSpec)
    (properties : Option (StrMap ConfigValue)) (services : Option (StrMap ServiceConfig)) : Prop where
  ofResource : ∀ config, schema.configSchema = some config → Supplies accepts config (properties.getD ∅)
  ofServices : ∀ name provider config, schema.services.lookup name = some provider → provider.configSchema = some config →
    Supplies accepts config (userProperties services name)

/-- the user names services of the provider alone, and sets every property of a service whose default is an array -/
structure Completable (schema : ProviderSpec) (services : Option (StrMap ServiceConfig)) : Prop where
  defined : ∀ name ∈ services.getD ∅, name ∈ schema.services
  arrays : ∀ name provider config, schema.services.lookup name = some provider → provider.configSchema = some config →
    ArraysSet config (userProperties services name)

theorem checkDefined_eq_ok_iff {schema : ProviderSpec} {services : List (Σ _ : String, ServiceConfig)} :
    checkDefined schema services = .ok () ↔ ∀ e ∈ services, e.1 ∈ schema.services := by
  refine ⟨defined_of_checkDefined, fun h => ?_⟩
  induction services with
  | nil => rfl
  | cons entry services ih =>
    obtain ⟨hentry, hrest⟩ := List.forall_mem_cons.1 h
    unfold checkDefined
    rw [if_pos hentry]
    exact ih hrest

theorem checkServices_eq_ok_iff {invalid : String} {services : StrMap ServiceConfig}
    {providers : List (Σ _ : String, ProviderService)} :
    checkServices compile invalid services providers = .ok () ↔
      ∀ e ∈ providers, checkService compile invalid services e.1 e.2 = .ok () := by
  induction providers with
  | nil => exact ⟨fun _ => by simp, fun _ => rfl⟩
  | cons entry providers ih =>
    rw [List.forall_mem_cons, ← ih]
    constructor
    · intro h
      obtain ⟨_, hentry, hrest⟩ := Serde.bind_eq_ok.1 h
      exact ⟨hentry, hrest⟩
    · rintro ⟨hentry, hrest⟩
      exact Serde.bind_eq_ok.2 ⟨(), hentry, hrest⟩

theorem checkConfig_merged (hdocumented : Documented compile accepts) {schema : ProviderSpec}
    (hsound : SoundProvider compile accepts schema) {properties : Option (StrMap ConfigValue)}
    {services : Option (StrMap ServiceConfig)} (huser : SuppliesSpec accepts schema properties services)
    {merged : StrMap ConfigValue × StrMap ServiceConfig} (h : mergeSpec properties services schema = .ok merged)
    (badSchema kind : String) : checkConfig compile badSchema kind (some merged.1) schema = .ok () := by
  have hadd := mergeSpec_properties h
  unfold checkConfig
  split
  · rfl
  · next config hconfig =>
    rw [hconfig, Option.bind_some] at hadd
    exact (checkProperties_eq_ok_iff hdocumented (hsound.ofResource config hconfig) _ _ _).2
      (check_listDefaults (hsound.ofResource config hconfig) (huser.ofResource config hconfig) hadd)

/-- the validation of one merged service -/
theorem checkService_merged_iff (hdocumented : Documented compile accepts) {schema : ProviderSpec}
    (hsound : SoundProvider compile accepts schema) {properties : Option (StrMap ConfigValue)}
    {services : Option (StrMap ServiceConfig)} (huser : SuppliesSpec accepts schema properties services)
    {merged : StrMap ConfigValue × StrMap ServiceConfig} (h : mergeSpec properties services schema = .ok merged)
    {name : String} {provider : ProviderService} (hprovider : schema.services.lookup name = some provider)
    (invalid : String) :
    checkService compile invalid merged.2 name provider = .ok () ↔
      ∀ config, provider.configSchema = some config → ArraysSet config (userProperties services name) := by
  obtain ⟨service, hservice, hmerge⟩ := merged_of_provider (mergeSpec_eq_ok h) hprovider
  obtain ⟨merged', endpoints, hproperties, -, rfl⟩ := mergeService_eq_ok.1 hmerge
  unfold checkService
  unfold mergeServiceProperties at hproperties
  cases hconfig : provider.configSchema with
  | none => simp
  | some config =>
    rw [hconfig] at hproperties
    have hsound' := hsound.ofServices name provider config hprovider hconfig
    have huser' := huser.ofServices name provider config hprovider hconfig
    cases hfields : config.properties with
    | none => simp [hfields] at hproperties
    | some fields =>
      have hentries : config.fields = fields := by rw [JsonSchema.fields, hfields, Option.getD_some]
      simp only [hfields] at hproperties
      cases hadd : addDefaults joinedDefault (userProperties services name) fields.entries with
      | error e =>
        unfold userProperties at hadd
        simp [hadd, Except.map] at hproperties
      | ok values =>
        obtain rfl : some values = merged' := by
          unfold userProperties at hadd
          simpa [hadd, Except.map] using hproperties
        rw [← hentries] at hadd
        simp only [hservice]
        rw [checkProperties_eq_ok_iff hdocumented hsound', check_joinedDefaults_iff hdocumented hsound' huser' hadd]
        constructor
        · rintro harrays config' hconfig'
          cases hconfig'
          exact harrays
        · intro harrays
          exact harrays config rfl

theorem validateSpec_eq_ok_iff {badSchema invalidService kind : String} {properties : StrMap ConfigValue}
    {services : StrMap ServiceConfig} {schema : ProviderSpec} :
    validateSpec compile badSchema invalidService kind (some properties) (some services) schema = .ok () ↔
      checkConfig compile badSchema kind (some properties) schema = .ok () ∧
        checkDefined schema services.entries = .ok () ∧
        checkServices compile invalidService services schema.services.entries = .ok () := by
  constructor
  · intro h
    obtain ⟨_, hconfig, h⟩ := Serde.bind_eq_ok.1 h
    obtain ⟨_, hdefined, hservices⟩ := Serde.bind_eq_ok.1 h
    exact ⟨hconfig, hdefined, hservices⟩
  · rintro ⟨hconfig, hdefined, hservices⟩
    exact Serde.bind_eq_ok.2 ⟨(), hconfig, Serde.bind_eq_ok.2 ⟨(), hdefined, hservices⟩⟩

/-- a merged specification has the services of the provider and those of the user -/
theorem defined_merged_iff {schema : ProviderSpec} {properties : Option (StrMap ConfigValue)}
    {services : Option (StrMap ServiceConfig)} {merged : StrMap ConfigValue × StrMap ServiceConfig}
    (h : mergeSpec properties services schema = .ok merged) :
    (∀ e ∈ merged.2.entries, e.1 ∈ schema.services) ↔ ∀ name ∈ services.getD ∅, name ∈ schema.services := by
  have hlookup := lookup_mergeServices schema.services.nodupKeys (mergeSpec_eq_ok h)
  -- a service that the provider does not define is there exactly if the user names it
  have hother : ∀ name, name ∉ schema.services → (name ∈ merged.2 ↔ name ∈ services.getD ∅) := by
    intro name hname
    have hnone : schema.services.entries.dlookup name = none := AList.lookup_eq_none.2 hname
    have hsame := hlookup name
    rw [hnone] at hsame
    rw [← AList.lookup_isSome, hsame, AList.lookup_isSome]
  constructor
  · intro hdefined name hname
    by_contra hschema
    obtain ⟨service, hservice⟩ := Option.isSome_iff_exists.1 (AList.lookup_isSome.2 ((hother name hschema).2 hname))
    exact hschema (hdefined _ (AList.mem_lookup_iff.1 hservice))
  · intro hdefined e he
    by_contra hschema
    exact hschema (hdefined e.1 ((hother e.1 hschema).1 (List.mem_map_of_mem he)))

/-- **When a specification with the provider's defaults is valid.** -/
theorem validate_merged_iff (hdocumented : Documented compile accepts) {schema : ProviderSpec}
    (hsound : SoundProvider compile accepts schema) {properties : Option (StrMap ConfigValue)}
    {services : Option (StrMap ServiceConfig)} (huser : SuppliesSpec accepts schema properties services)
    {merged : StrMap ConfigValue × StrMap ServiceConfig} (h : mergeSpec properties services schema = .ok merged)
    (badSchema invalidService kind : String) :
    validateSpec compile badSchema invalidService kind (some merged.1) (some merged.2) schema = .ok () ↔
      Completable schema services := by
  rw [validateSpec_eq_ok_iff, checkDefined_eq_ok_iff, checkServices_eq_ok_iff, defined_merged_iff h]
  constructor
  · rintro ⟨-, hdefined, hservices⟩
    refine ⟨hdefined, fun name provider config hprovider hconfig => ?_⟩
    have hservice := hservices _ (AList.mem_lookup_iff.1 hprovider)
    exact (checkService_merged_iff hdocumented hsound huser h hprovider invalidService).1 hservice config hconfig
  · intro hcompletable
    refine ⟨checkConfig_merged hdocumented hsound huser h badSchema kind, hcompletable.defined, fun e he => ?_⟩
    have hprovider := AList.mem_lookup_iff.2 he
    exact (checkService_merged_iff hdocumented hsound huser h hprovider invalidService).2
      fun config hconfig => hcompletable.arrays e.1 e.2 config hprovider hconfig

/-- **When the defaults of a provider are accepted**, for every source and every reaction that
`populate_default_values` completes. -/
theorem defaults_accepted_iff (hdocumented : Documented compile accepts) (schema : ProviderSpec)
    (hsound : SoundProvider compile accepts schema) :
    (∀ source completed : SourceSpec, SuppliesSpec accepts schema source.properties source.services →
      source.populateDefaultValues schema = .ok completed →
      (sourceSpecValidator compile schema completed = .ok () ↔ Completable schema source.services)) ∧
    ∀ reaction completed : ReactionSpec, SuppliesSpec accepts schema reaction.properties reaction.services →
      reaction.populateDefaultValues schema = .ok completed →
      (reactionSpecValidator compile schema completed = .ok () ↔ Completable schema reaction.services) := by
  constructor
  · intro source completed huser h
    cases hmerge : mergeSpec source.properties source.services schema with
    | error e => simp [SourceSpec.populateDefaultValues, hmerge, Except.map] at h
    | ok merged =>
      obtain rfl : { source with properties := some merged.1, services := some merged.2 } = completed := by
        simpa [SourceSpec.populateDefaultValues, hmerge, Except.map] using h
      exact validate_merged_iff hdocumented hsound huser hmerge _ _ _
  · intro reaction completed huser h
    cases hmerge : mergeSpec reaction.properties reaction.services schema with
    | error e => simp [ReactionSpec.populateDefaultValues, hmerge, Except.map] at h
    | ok merged =>
      obtain rfl : { reaction with properties := some merged.1, services := some merged.2 } = completed := by
        simpa [ReactionSpec.populateDefaultValues, hmerge, Except.map] using h
      exact validate_merged_iff hdocumented hsound huser hmerge _ _ _

end Validation

/-! ## A service with a list -/

/-- the type that a property declares -/
def declaredType (property : PropertySchema) (v : Value) : Bool :=
  match property.keywords.get "type" with
  | .string type_ => hasType v type_
  | _ => false

/-- a validation that looks at the required properties and at the types -/
def compileObject : Compile := fun schema => some fun
  | .object fields =>
    match (schema.required.getD []).find? fun key => key ∉ fields.map Prod.fst with
    | some key => some (key ++ " is a required property", "")
    | none => fields.findSome? fun field => (schema.fields.lookup field.1).bind fun property =>
      if declaredType property field.2 then none else some ("not of the type", "/" ++ field.1)
  | _ => some ("not of type object", "")

theorem documented_compileObject : Documented compileObject fun property v => declaredType property v = true where
  object schema validate hvalidate _ fields _ := by
    obtain rfl := Option.some.inj hvalidate
    cases hmissing : (schema.required.getD []).find? fun key => key ∉ fields.map Prod.fst with
    | some key =>
      have hkey := List.find?_some hmissing
      simp only [hmissing]
      constructor
      · intro h
        cases h
      · intro h
        exact absurd (h.required key (List.mem_of_find?_eq_some hmissing)) (of_decide_eq_true hkey)
    | none =>
      simp only [hmissing, List.findSome?_eq_none_iff]
      rw [List.find?_eq_none] at hmissing
      constructor
      · intro h
        refine ⟨fun key hkey => by simpa using hmissing key hkey, fun key v property hmem hproperty => ?_⟩
        have hfield := h (key, v) hmem
        simpa [hproperty] using hfield
      · intro h field hmem
        cases hproperty : schema.fields.lookup field.1 with
        | none => rfl
        | some property => simp [h.properties field.1 field.2 property hmem hproperty]
  oneType property items text h := by
    unfold declaredType at h ⊢
    split at h
    · next type_ htype =>
      obtain rfl : type_ = "array" := of_decide_eq_true h
      simp [hasType]
    · cases h

/-- a schema with the property `scopes`, an array with a default -/
def scopesSchema : JsonSchema where
  properties := some (AList.singleton "scopes"
    ⟨some (.array [.string "read", .string "write"]), .object [("type", .string "array")]⟩)
  required := some ["scopes"]
  keywords := .object [("type", .string "object")]

def scopesProvider : ProviderSpec where
  services := AList.singleton "proxy"
    { image := "source-proxy", externalImage := none, dapr := none, endpoints := none, configSchema := some scopesSchema,
      deprovisionHandler := none }
  configSchema := some scopesSchema

def scopesSource (services : Option (StrMap ServiceConfig)) : SourceSpec := ⟨"Scoped", services, none, none⟩

def ownScopes : StrMap ServiceConfig :=
  AList.singleton "proxy"
    { ServiceConfig.empty with properties := some (AList.singleton "scopes" (.list [.string "read"])) }

theorem soundSchema_scopes : SoundSchema compileObject (fun property v => declaredType property v = true) scopesSchema where
  compiles := rfl
  isObject := ⟨rfl, rfl⟩
  defaults key property v hproperty hv := by
    obtain ⟨rfl, rfl⟩ := lookup_singleton hproperty
    cases hv
    refine ⟨?_, rfl⟩
    rintro item hitem
    rcases List.mem_pair.1 hitem with rfl | rfl <;> trivial

theorem soundProvider_scopes :
    SoundProvider compileObject (fun property v => declaredType property v = true) scopesProvider where
  ofResource config hconfig := by
    obtain rfl := Option.some.inj hconfig
    exact soundSchema_scopes
  ofServices name provider config hprovider hconfig := by
    obtain ⟨-, rfl⟩ := lookup_singleton hprovider
    obtain rfl := Option.some.inj hconfig
    exact soundSchema_scopes

theorem supplies_scopes {user : StrMap ConfigValue}
    (h : ∀ key value, user.lookup key = some value → ∃ items, value = .list items) :
    Supplies (fun property v => declaredType property v = true) scopesSchema user where
  valid key value property huser hproperty := by
    obtain ⟨items, rfl⟩ := h key value huser
    obtain ⟨-, rfl⟩ := lookup_singleton hproperty
    rfl
  required key hkey := by
    obtain rfl := List.mem_singleton.1 hkey
    exact .inr ⟨_, _, rfl, rfl⟩

/-- **A default that is refused.** The array is valid; the text that a service gets for it is not. -/
theorem array_default_refused :
    Documented compileObject (fun property v => declaredType property v = true) ∧
    SoundProvider compileObject (fun property v => declaredType property v = true) scopesProvider ∧
    SuppliesSpec (fun property v => declaredType property v = true) scopesProvider none none ∧
    ((scopesSource none).populateDefaultValues scopesProvider).bind (sourceSpecValidator compileObject scopesProvider) =
      .error (.invalidSpec "Invalid source spec: not of the type; error path: /scopes") := by
  refine ⟨documented_compileObject, soundProvider_scopes, ⟨?_, ?_⟩, by decide +kernel⟩
  · intro config hconfig
    obtain rfl := Option.some.inj hconfig
    exact supplies_scopes fun key value h => by cases h
  · intro name provider config hprovider hconfig
    obtain ⟨-, rfl⟩ := lookup_singleton hprovider
    obtain rfl := Option.some.inj hconfig
    exact supplies_scopes fun key value h => by cases h

/-- the user's own list is accepted, and so is the default of the resource -/
theorem listed_scopes_accepted :
    ∃ completed, (scopesSource (some ownScopes)).populateDefaultValues scopesProvider = .ok completed ∧
      sourceSpecValidator compileObject scopesProvider completed = .ok () := by
  have hcompleted : ∃ completed, (scopesSource (some ownScopes)).populateDefaultValues scopesProvider = .ok completed :=
    ⟨_, rfl⟩
  obtain ⟨completed, hcompleted⟩ := hcompleted
  have huser : SuppliesSpec (fun property v => declaredType property v = true) scopesProvider none (some ownScopes) := by
    constructor
    · intro config hconfig
      obtain rfl := Option.some.inj hconfig
      exact supplies_scopes fun key value h => by cases h
    · intro name provider config hprovider hconfig
      obtain ⟨rfl, rfl⟩ := lookup_singleton hprovider
      obtain rfl := Option.some.inj hconfig
      refine supplies_scopes fun key value h => ?_
      have h : (AList.singleton "scopes" (.list [.string "read"]) : StrMap ConfigValue).lookup key = some value := h
      obtain ⟨-, rfl⟩ := lookup_singleton h
      exact ⟨_, rfl⟩
  have hcompletable : Completable scopesProvider (some ownScopes) := by
    constructor
    · intro name hname
      obtain ⟨service, hservice⟩ := Option.isSome_iff_exists.1 (AList.lookup_isSome.2 hname)
      obtain ⟨rfl, -⟩ := lookup_singleton hservice
      decide
    · intro name provider config hprovider hconfig key property items hproperty _
      obtain ⟨rfl, rfl⟩ := lookup_singleton hprovider
      obtain rfl := Option.some.inj hconfig
      obtain ⟨rfl, -⟩ := lookup_singleton hproperty
      decide
  exact ⟨completed, hcompleted,
    ((defaults_accepted_iff documented_compileObject scopesProvider soundProvider_scopes).1 _ _ huser hcompleted).2
      hcompletable⟩

end DrasiPlatform.MgmtApi
