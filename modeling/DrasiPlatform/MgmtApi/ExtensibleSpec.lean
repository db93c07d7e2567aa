/-
Sources and reactions in the management API: default values (`merge_spec`), validation against the provider's schema
(`control-planes/mgmt_api/src/domain/resource_services/extensible/{mod,source_service,reaction_service}.rs`) and the
conversion to the resource provider's types (`domain/mappings.rs`).

A `HashMap` is an association list in any order, and a loop over it goes in that order. Of a schema the merge reads the
properties and their defaults; what `JSONSchema::compile` makes of the whole, and the first error of a validation with the
path it names, are the parameter `Compile`. A conversion answers nothing where it panics.

The merge takes the image, the sidecar's settings and the other fields of a service from the provider alone: of what a
user says about a service, only the properties and the endpoints are kept.

- `lookup_addDefaults`, `lookup_addEndpoints`, `lookup_mergeServices`: what a merged map holds for a key.
- `mergeService_eq_ok`: the fields of a merged service.
- `defined_of_validate`: in a valid specification every service is one of the provider's.
-/
import Mathlib.Tactic
import DrasiPlatform.Core.Serde
import DrasiPlatform.MgmtApi.ResourceService
import DrasiPlatform.Provider.SpecBuilder

namespace DrasiPlatform.MgmtApi

open Json
open Provider (StrMap)

/-! ## Specifications -/

/-- `ConfigValue`, with the four kinds of an inline value -/
inductive ConfigValue where
  | string (value : String)
  | integer (value : Int64)
  | boolean (value : Bool)
  | list (value : List ConfigValue)
  | secret (name key : String)

inductive EndpointSetting where
  | internal
  | external

structure Endpoint where
  setting : EndpointSetting
  target : String

structure ServiceConfig where
  replica : Option String
  image : Option String
  externalImage : Option Bool
  dapr : Option (StrMap ConfigValue)
  endpoints : Option (StrMap Endpoint)
  properties : Option (StrMap ConfigValue)
  deprovisionHandler : Option Bool

inductive ServiceIdentity where
  | microsoftEntraWorkloadID (clientId : String)
  | microsoftEntraApplication (tenantId clientId : ConfigValue) (secret certificate : Option ConfigValue)
  | connectionString (value : ConfigValue)
  | accessKey (value : ConfigValue)
  | awsIamRole (roleArn : ConfigValue)
  | awsIamAccessKey (accessKeyId secretAccessKey awsRegion : ConfigValue)

structure SourceSpec where
  kind : String
  services : Option (StrMap ServiceConfig)
  properties : Option (StrMap ConfigValue)
  identity : Option ServiceIdentity

structure ReactionSpec where
  kind : String
  tag : Option String
  services : Option (StrMap ServiceConfig)
  properties : Option (StrMap ConfigValue)
  queries : StrMap String
  identity : Option ServiceIdentity

/-! ## Providers -/

/-- the schema of one property: its default, and the other keywords as JSON -/
structure PropertySchema where
  default_ : Option Value
  keywords : Value

structure JsonSchema where
  properties : Option (StrMap PropertySchema)
  required : Option (List String)
  keywords : Value

structure ServiceEndpoint where
  setting : EndpointSetting
  target : String

structure ProviderService where
  image : String
  externalImage : Option Bool
  dapr : Option (StrMap String)
  endpoints : Option (StrMap ServiceEndpoint)
  configSchema : Option JsonSchema
  deprovisionHandler : Option Bool

structure ProviderSpec where
  services : StrMap ProviderService
  configSchema : Option JsonSchema

/-- `JSONSchema::compile` and `validate`: nothing for a schema that does not compile, otherwise the text and the path of a
value's first error -/
abbrev Compile := JsonSchema → Option (Value → Option (String × String))

/-! ## Default values -/

/-- `Number::as_i64` -/
def asI64 : Number → Option Int64
  | .posInt n => if n.toNat < 2 ^ 63 then some n.toInt64 else none
  | .negInt n => some n
  | .float _ => none

def expectInteger (n : Number) : Except DomainError Int64 :=
  match asI64 n with
  | some n => .ok n
  | none => .error (.invalidSpec "expected a valid integer")

/-- a default that is no array; nothing for `null` and objects -/
def scalarDefault : Value → Except DomainError (Option ConfigValue)
  | .string s => .ok (some (.string s))
  | .bool b => .ok (some (.boolean b))
  | .number n => (expectInteger n).map (some ∘ .integer)
  | _ => .ok none

/-- an item of an array, as text -/
def itemText : Value → Except DomainError (Option String)
  | .string s => .ok (some s)
  | .bool b => .ok (some (toString b))
  | .number n => (expectInteger n).map fun n => some (toString n.toInt)
  | _ => .ok none

/-- the items of an array that are converted to something -/
def convertItems {α : Type} (convert : Value → Except DomainError (Option α)) : List Value → Except DomainError (List α)
  | [] => .ok []
  | v :: vs => do
    let item ← convert v
    let items ← convertItems convert vs
    .ok (item.toList ++ items)

/-- an array among the defaults of a resource is a list -/
def listDefault (items : List Value) : Except DomainError ConfigValue := (convertItems scalarDefault items).map .list

/-- an array among the defaults of a service is one text -/
def joinedDefault (items : List Value) : Except DomainError ConfigValue :=
  (convertItems itemText items).map fun texts => .string (",".intercalate texts)

def defaultValue (array : List Value → Except DomainError ConfigValue) : Value → Except DomainError (Option ConfigValue)
  | .array items => (array items).map some
  | v => scalarDefault v

/-- the defaults of the properties that are not there -/
def addDefaults (array : List Value → Except DomainError ConfigValue) (properties : StrMap ConfigValue) :
    List (Σ _ : String, PropertySchema) → Except DomainError (StrMap ConfigValue)
  | [] => .ok properties
  | ⟨key, schema⟩ :: rest =>
    if key ∈ properties then addDefaults array properties rest
    else
      match schema.default_ with
      | none => addDefaults array properties rest
      | some v =>
        match defaultValue array v with
        | .error e => .error e
        | .ok none => addDefaults array properties rest
        | .ok (some value) => addDefaults array (properties.insert key value) rest

/-! ## Endpoints -/

/-- `trim_start_matches("$")` -/
def trimDollars (target : String) : String := String.ofList (target.toList.dropWhile (· = '$'))

/-- the value of the property that a provider's endpoint names -/
def targetPort (properties : Option (StrMap ConfigValue)) (target : String) : Except DomainError String :=
  match properties with
  | none => .error (.invalidSpec "Unable to retrieve the target port as the properties are not defined")
  | some properties =>
    match properties.lookup target with
    | some (.string value) => .ok value
    | some (.integer value) => .ok (toString value.toInt)
    | some _ => .error (.invalidSpec "Invalid endpoint value; expected string or integer")
    | none => .error (.invalidSpec ("Unable to retrieve the target port; " ++ target ++ " is not defined"))

/-- the provider's endpoints that the user has not defined -/
def addEndpoints (properties : Option (StrMap ConfigValue)) (endpoints : StrMap Endpoint) :
    List (Σ _ : String, ServiceEndpoint) → Except DomainError (StrMap Endpoint)
  | [] => .ok endpoints
  | ⟨name, endpoint⟩ :: rest =>
    if name ∈ endpoints then addEndpoints properties endpoints rest
    else
      match targetPort properties (trimDollars endpoint.target) with
      | .error e => .error e
      | .ok port => addEndpoints properties (endpoints.insert name ⟨endpoint.setting, port⟩) rest

/-! ## The merge -/

/-- a map with its values converted -/
def mapValues {V W : Type} (f : V → W) (m : StrMap V) : StrMap W :=
  ⟨m.entries.map (.map id fun _ => f), m.nodupKeys.map₂ (fun _ => f) m.entries⟩

def ServiceConfig.empty : ServiceConfig := ⟨none, none, none, none, none, none, none⟩

def mergeServiceProperties (name : String) (provider : ProviderService) (service : ServiceConfig) :
    Except DomainError (Option (StrMap ConfigValue)) :=
  match provider.configSchema with
  | none => .ok none
  | some schema =>
    match schema.properties with
    | none => .error (.invalidSpec ("Unable to retrieve the service properties for " ++ name))
    | some properties => (addDefaults joinedDefault (service.properties.getD ∅) properties.entries).map some

def mergeServiceEndpoints (provider : ProviderService) (service : ServiceConfig)
    (properties : Option (StrMap ConfigValue)) : Except DomainError (Option (StrMap Endpoint)) :=
  let endpoints := service.endpoints.getD ∅
  match provider.endpoints with
  | some defaults => (addEndpoints properties endpoints defaults.entries).map some
  | none => .ok (if endpoints.entries = [] then none else some endpoints)

/-- the body of the loop over the provider's services -/
def mergeService (name : String) (provider : ProviderService) (service : ServiceConfig) :
    Except DomainError ServiceConfig := do
  let properties ← mergeServiceProperties name provider service
  let endpoints ← mergeServiceEndpoints provider service properties
  .ok { replica := none
        image := some provider.image
        externalImage := provider.externalImage
        endpoints := endpoints
        dapr := provider.dapr.map (mapValues .string)
        properties := properties
        deprovisionHandler := provider.deprovisionHandler }

def mergeServices (services : StrMap ServiceConfig) :
    List (Σ _ : String, ProviderService) → Except DomainError (StrMap ServiceConfig)
  | [] => .ok services
  | ⟨name, provider⟩ :: rest => do
    let service ← mergeService name provider ((services.lookup name).getD .empty)
    mergeServices (services.insert name service) rest

/-- `merge_spec` -/
def mergeSpec (properties : Option (StrMap ConfigValue)) (services : Option (StrMap ServiceConfig))
    (schema : ProviderSpec) : Except DomainError (StrMap ConfigValue × StrMap ServiceConfig) := do
  let defaults := ((schema.configSchema.bind JsonSchema.properties).getD ∅).entries
  let properties ← addDefaults listDefault (properties.getD ∅) defaults
  let services ← mergeServices (services.getD ∅) schema.services.entries
  .ok (properties, services)

/-! ## Validation -/

/-- an item of a list, for the validator: a list in a list is empty -/
def ConfigValue.itemJson : ConfigValue → Value
  | .secret name _ => .string name
  | .string value => .string value
  | .integer value => .ofInt64 value
  | .boolean value => .bool value
  | .list _ => .array []

def ConfigValue.json : ConfigValue → Value
  | .secret name _ => .string name
  | .string value => .string value
  | .integer value => .ofInt64 value
  | .boolean value => .bool value
  | .list value => .array (value.map ConfigValue.itemJson)

def propertiesJson (properties : StrMap ConfigValue) : Value :=
  .object ((Provider.sorted properties).map fun e => (e.1, e.2.json))

/-- one schema against the properties it is for; `badSchema` and `invalid` are the texts of the validator -/
def checkProperties (compile : Compile) (schema : JsonSchema) (badSchema invalid : String)
    (properties : Except DomainError (StrMap ConfigValue)) : Except DomainError Unit :=
  match compile schema with
  | none => .error (.invalidSpec badSchema)
  | some validate =>
    match properties with
    | .error e => .error e
    | .ok properties =>
      match validate (propertiesJson properties) with
      | some (error, path) => .error (.invalidSpec (invalid ++ error ++ "; error path: " ++ path))
      | none => .ok ()

/-- the first service that the provider does not define is an error -/
def checkDefined (schema : ProviderSpec) : List (Σ _ : String, ServiceConfig) → Except DomainError Unit
  | [] => .ok ()
  | ⟨name, _⟩ :: rest =>
    if name ∈ schema.services then checkDefined schema rest
    else .error (.undefinedSetting ("Service " ++ name ++ " is not defined in the schema"))

def checkService (compile : Compile) (invalid : String) (services : StrMap ServiceConfig) (name : String)
    (provider : ProviderService) : Except DomainError Unit :=
  match provider.configSchema with
  | none => .ok ()
  | some schema =>
    checkProperties compile schema ("Invalid service config schema for service " ++ name) invalid
      (match services.lookup name with
      | some service =>
        match service.properties with
        | some properties => .ok properties
        | none => .error (.invalidSpec ("Invalid service properties for service " ++ name))
      | none => .ok ∅)

def checkServices (compile : Compile) (invalid : String) (services : StrMap ServiceConfig) :
    List (Σ _ : String, ProviderService) → Except DomainError Unit
  | [] => .ok ()
  | ⟨name, provider⟩ :: rest => do
    checkService compile invalid services name provider
    checkServices compile invalid services rest

def checkConfig (compile : Compile) (badSchema kind : String) (properties : Option (StrMap ConfigValue))
    (schema : ProviderSpec) : Except DomainError Unit :=
  match schema.configSchema with
  | none => .ok ()
  | some configSchema =>
    checkProperties compile configSchema badSchema "Invalid spec: "
      (match properties with
      | some properties => .ok properties
      | none => .error (.invalidSpec ("properties are not defined for " ++ kind)))

/-- what both validators do; they differ in two texts -/
def validateSpec (compile : Compile) (badSchema invalidService kind : String) (properties : Option (StrMap ConfigValue))
    (services : Option (StrMap ServiceConfig)) (schema : ProviderSpec) : Except DomainError Unit := do
  checkConfig compile badSchema kind properties schema
  match services with
  | none => .error (.invalidSpec "Services not defined")
  | some services =>
    checkDefined schema services.entries
    checkServices compile invalidService services schema.services.entries

/-- `SourceSpecValidator` -/
def sourceSpecValidator (compile : Compile) (schema : ProviderSpec) (spec : SourceSpec) : Except DomainError Unit :=
  validateSpec compile "Invalid source config schema" "Invalid source spec: " spec.kind spec.properties spec.services schema

/-- `ReactionSpecValidator` -/
def reactionSpecValidator (compile : Compile) (schema : ProviderSpec) (spec : ReactionSpec) : Except DomainError Unit :=
  validateSpec compile "Invalid config schema" "Invalid spec: " spec.kind spec.properties spec.services schema

/-! ## Conversion -/

/-- an item of a list, for the provider: a list or a secret in a list is no text -/
def ConfigValue.itemText : ConfigValue → String
  | .string value => value
  | .integer value => toString value.toInt
  | .boolean value => toString value
  | .list _ => ""
  | .secret _ _ => ""

def ConfigValue.into : ConfigValue → Provider.ConfigValue
  | .string value => .inline value
  | .integer value => .inline (toString value.toInt)
  | .boolean value => .inline (toString value)
  | .list value => .inline (",".intercalate (value.map ConfigValue.itemText))
  | .secret name key => .secret name key

def EndpointSetting.into : EndpointSetting → Provider.EndpointSetting
  | .internal => .internal
  | .external => .external

def Endpoint.into (endpoint : Endpoint) : Provider.Endpoint := ⟨endpoint.setting.into, endpoint.target⟩

/-- the image is unwrapped -/
def ServiceConfig.into (service : ServiceConfig) : Option Provider.Service :=
  service.image.map fun image =>
    { replica := service.replica
      image := image
      externalImage := service.externalImage
      endpoints := service.endpoints.map (mapValues Endpoint.into)
      dapr := service.dapr.map (mapValues ConfigValue.into)
      properties := service.properties.map (mapValues ConfigValue.into) }

def ServiceIdentity.into : ServiceIdentity → Provider.ServiceIdentity
  | .microsoftEntraWorkloadID clientId => .microsoftEntraWorkloadID clientId
  | .microsoftEntraApplication tenantId clientId secret certificate =>
    .microsoftEntraApplication tenantId.into clientId.into (secret.map ConfigValue.into) (certificate.map ConfigValue.into)
  | .connectionString value => .connectionString value.into
  | .accessKey value => .accessKey value.into
  | .awsIamRole roleArn => .awsIamRole roleArn.into
  | .awsIamAccessKey accessKeyId secretAccessKey awsRegion =>
    .awsIamAccessKey accessKeyId.into secretAccessKey.into awsRegion.into

/-- the services of a map, converted one after the other -/
def convertServices : List (Σ _ : String, ServiceConfig) → Option (StrMap Provider.Service)
  | [] => some ∅
  | ⟨name, service⟩ :: rest => do
    let converted ← service.into
    let services ← convertServices rest
    some (services.insert name converted)

/-- a map that is there is converted -/
def convertOption (services : Option (StrMap ServiceConfig)) : Option (Option (StrMap Provider.Service)) :=
  match services with
  | none => some none
  | some services => (convertServices services.entries).map some

def SourceSpec.into (spec : SourceSpec) : Option Provider.SourceSpec :=
  (convertOption spec.services).map fun services =>
    { kind := spec.kind
      services := services
      properties := spec.properties.map (mapValues ConfigValue.into)
      identity := spec.identity.map ServiceIdentity.into }

def ReactionSpec.into (spec : ReactionSpec) : Option Provider.ReactionSpec :=
  (convertOption spec.services).map fun services =>
    { kind := spec.kind
      tag := spec.tag
      services := services
      properties := spec.properties.map (mapValues ConfigValue.into)
      queries := spec.queries
      identity := spec.identity.map ServiceIdentity.into }

/-! ## The two services -/

def SourceSpec.populateDefaultValues (source : SourceSpec) (schema : ProviderSpec) : Except DomainError SourceSpec :=
  (mergeSpec source.properties source.services schema).map fun merged =>
    { source with properties := some merged.1, services := some merged.2 }

def ReactionSpec.populateDefaultValues (reaction : ReactionSpec) (schema : ProviderSpec) :
    Except DomainError ReactionSpec :=
  (mergeSpec reaction.properties reaction.services schema).map fun merged =>
    { reaction with properties := some merged.1, services := some merged.2 }

/-- `SourceDomainServiceImpl` -/
def sourceService (TStatus : Type) (compile : Compile) (providerRepo : Repository ProviderSpec) :
    ExtensibleService SourceSpec TStatus (Option Provider.SourceSpec) ProviderSpec where
  kind := SourceSpec.kind
  providerRepo := providerRepo
  actorType _ := "SourceResource"
  validators := [sourceSpecValidator compile]
  populateDefaultValues := SourceSpec.populateDefaultValues
  into := SourceSpec.into

/-- `ReactionDomainServiceImpl` -/
def reactionService (TStatus : Type) (compile : Compile) (providerRepo : Repository ProviderSpec) :
    ExtensibleService ReactionSpec TStatus (Option Provider.ReactionSpec) ProviderSpec where
  kind := ReactionSpec.kind
  providerRepo := providerRepo
  actorType _ := "ReactionResource"
  validators := [reactionSpecValidator compile]
  populateDefaultValues := ReactionSpec.populateDefaultValues
  into := ReactionSpec.into

/-! ## What the merged maps hold -/

@[simp] theorem lookup_mapValues {V W : Type} (f : V → W) (m : StrMap V) (key : String) :
    (mapValues f m).lookup key = (m.lookup key).map f := List.dlookup_map₂ key

/-- the value of a default that is a value -/
def defaultOf (array : List Value → Except DomainError ConfigValue) (schema : PropertySchema) : Option ConfigValue :=
  schema.default_.bind fun v => (defaultValue array v).toOption.join

/-- **A property is the user's, or the default.** -/
theorem lookup_addDefaults {array : List Value → Except DomainError ConfigValue}
    {defaults : List (Σ _ : String, PropertySchema)} (hnodup : defaults.NodupKeys) {properties merged : StrMap ConfigValue}
    (h : addDefaults array properties defaults = .ok merged) (key : String) :
    merged.lookup key = (properties.lookup key).or ((defaults.dlookup key).bind (defaultOf array)) := by
  induction defaults generalizing properties with
  | nil =>
    cases h
    simp
  | cons entry defaults ih =>
    obtain ⟨name, schema⟩ := entry
    obtain ⟨hname, hrest⟩ := List.nodupKeys_cons.1 hnodup
    -- a property that is there already, or has no default, changes nothing
    have hskip : (name ∈ properties ∨ defaultOf array schema = none) → addDefaults array properties defaults = .ok merged →
        merged.lookup key =
          (properties.lookup key).or (((⟨name, schema⟩ :: defaults).dlookup key).bind (defaultOf array)) := by
      intro hcase hmerged
      rw [ih hrest hmerged]
      by_cases hkey : key = name
      · subst hkey
        have hnone : defaults.dlookup key = none := List.dlookup_eq_none.2 hname
        rw [hnone, List.dlookup_cons_eq]
        rcases hcase with hmem | hnone
        · obtain ⟨value, hvalue⟩ := Option.isSome_iff_exists.1 (AList.lookup_isSome.2 hmem)
          simp [hvalue]
        · simp [hnone]
      · rw [List.dlookup_cons_ne _ _ hkey]
    unfold addDefaults at h
    split at h
    · next hmem => exact hskip (.inl hmem) h
    · next hmem =>
      split at h
      · next hdefault => exact hskip (.inr (by simp [defaultOf, hdefault])) h
      · next v hdefault =>
        split at h
        · cases h
        · next hv => exact hskip (.inr (by simp [defaultOf, hdefault, hv, Except.toOption])) h
        · next value hv =>
          rw [ih hrest h]
          by_cases hkey : key = name
          · subst hkey
            have hnone : properties.lookup key = none := AList.lookup_eq_none.2 hmem
            simp [defaultOf, hdefault, hv, hnone, Except.toOption]
          · rw [AList.lookup_insert_ne hkey, List.dlookup_cons_ne _ _ hkey]

/-- **An endpoint is the user's, or the provider's with its port.** -/
theorem lookup_addEndpoints {properties : Option (StrMap ConfigValue)} {defaults : List (Σ _ : String, ServiceEndpoint)}
    (hnodup : defaults.NodupKeys) {endpoints merged : StrMap Endpoint}
    (h : addEndpoints properties endpoints defaults = .ok merged) (name : String) :
    merged.lookup name = (endpoints.lookup name).or ((defaults.dlookup name).bind fun endpoint =>
      (targetPort properties (trimDollars endpoint.target)).toOption.map fun port => ⟨endpoint.setting, port⟩) := by
  induction defaults generalizing endpoints with
  | nil =>
    cases h
    simp
  | cons entry defaults ih =>
    obtain ⟨name', endpoint⟩ := entry
    obtain ⟨hname, hrest⟩ := List.nodupKeys_cons.1 hnodup
    unfold addEndpoints at h
    split at h
    · next hmem =>
      rw [ih hrest h]
      by_cases hkey : name = name'
      · subst hkey
        obtain ⟨value, hvalue⟩ := Option.isSome_iff_exists.1 (AList.lookup_isSome.2 hmem)
        simp [hvalue]
      · rw [List.dlookup_cons_ne _ _ hkey]
    · next hmem =>
      split at h
      · cases h
      · next port hport =>
        rw [ih hrest h]
        by_cases hkey : name = name'
        · subst hkey
          have hnone : endpoints.lookup name = none := AList.lookup_eq_none.2 hmem
          simp [hport, hnone, Except.toOption]
        · rw [AList.lookup_insert_ne hkey, List.dlookup_cons_ne _ _ hkey]

/-- every endpoint of the provider that the user has not defined got its port -/
theorem targetPort_of_addEndpoints {properties : Option (StrMap ConfigValue)}
    {defaults : List (Σ _ : String, ServiceEndpoint)} (hnodup : defaults.NodupKeys) {endpoints merged : StrMap Endpoint}
    (h : addEndpoints properties endpoints defaults = .ok merged) {name : String} {endpoint : ServiceEndpoint}
    (hdefault : defaults.dlookup name = some endpoint) (huser : endpoints.lookup name = none) :
    ∃ port, targetPort properties (trimDollars endpoint.target) = .ok port := by
  induction defaults generalizing endpoints with
  | nil => simp at hdefault
  | cons entry defaults ih =>
    obtain ⟨name', endpoint'⟩ := entry
    obtain ⟨hname, hrest⟩ := List.nodupKeys_cons.1 hnodup
    unfold addEndpoints at h
    split at h
    · next hmem =>
      have hkey : name ≠ name' := by
        rintro rfl
        exact AList.lookup_eq_none.1 huser hmem
      rw [List.dlookup_cons_ne _ _ hkey] at hdefault
      exact ih hrest h hdefault huser
    · split at h
      · cases h
      · next port hport =>
        by_cases hkey : name = name'
        · subst hkey
          rw [List.dlookup_cons_eq] at hdefault
          cases hdefault
          exact ⟨port, hport⟩
        · rw [List.dlookup_cons_ne _ _ hkey] at hdefault
          exact ih hrest h hdefault (by rw [AList.lookup_insert_ne hkey]; exact huser)

/-- the parts of a merged service -/
theorem mergeService_eq_ok {name : String} {provider : ProviderService} {service merged : ServiceConfig} :
    mergeService name provider service = .ok merged ↔ ∃ properties endpoints,
      mergeServiceProperties name provider service = .ok properties ∧
      mergeServiceEndpoints provider service properties = .ok endpoints ∧
      merged = ⟨none, some provider.image, provider.externalImage, provider.dapr.map (mapValues .string), endpoints,
        properties, provider.deprovisionHandler⟩ := by
  unfold mergeService
  rw [Serde.bind_eq_ok]
  constructor
  · rintro ⟨properties, hproperties, h⟩
    obtain ⟨endpoints, hendpoints, h⟩ := Serde.bind_eq_ok.1 h
    cases h
    exact ⟨properties, endpoints, hproperties, hendpoints, rfl⟩
  · rintro ⟨properties, endpoints, hproperties, hendpoints, rfl⟩
    exact ⟨properties, hproperties, Serde.bind_eq_ok.2 ⟨endpoints, hendpoints, rfl⟩⟩

/-- **A merged service is the provider's over the user's.** A service that the provider does not define is left as it is. -/
theorem lookup_mergeServices {providers : List (Σ _ : String, ProviderService)} (hnodup : providers.NodupKeys)
    {services merged : StrMap ServiceConfig} (h : mergeServices services providers = .ok merged) (name : String) :
    match providers.dlookup name with
    | none => merged.lookup name = services.lookup name
    | some provider => ∃ service, merged.lookup name = some service ∧
        mergeService name provider ((services.lookup name).getD .empty) = .ok service := by
  induction providers generalizing services with
  | nil =>
    cases h
    simp
  | cons entry providers ih =>
    obtain ⟨name', provider⟩ := entry
    obtain ⟨hname, hrest⟩ := List.nodupKeys_cons.1 hnodup
    obtain ⟨service, hservice, hmerged⟩ := Serde.bind_eq_ok.1 h
    have hih := ih hrest hmerged
    by_cases hkey : name = name'
    · subst hkey
      have hnone : providers.dlookup name = none := List.dlookup_eq_none.2 hname
      rw [hnone, AList.lookup_insert] at hih
      rw [List.dlookup_cons_eq]
      exact ⟨service, hih, hservice⟩
    · rw [AList.lookup_insert_ne hkey] at hih
      rw [List.dlookup_cons_ne _ _ hkey]
      exact hih

/-! ## What a valid specification holds -/

theorem defined_of_checkDefined {schema : ProviderSpec} {services : List (Σ _ : String, ServiceConfig)}
    (h : checkDefined schema services = .ok ()) : ∀ e ∈ services, e.1 ∈ schema.services := by
  induction services with
  | nil => simp
  | cons entry services ih =>
    unfold checkDefined at h
    split at h
    · next hmem => exact List.forall_mem_cons.2 ⟨hmem, ih h⟩
    · cases h

/-- in a valid specification every service is one of the provider's -/
theorem defined_of_validate {compile : Compile} {badSchema invalidService kind : String}
    {properties : Option (StrMap ConfigValue)} {services : StrMap ServiceConfig} {schema : ProviderSpec}
    (h : validateSpec compile badSchema invalidService kind properties (some services) schema = .ok ()) {name : String}
    (hname : name ∈ services) : name ∈ schema.services := by
  obtain ⟨_, -, h⟩ := Serde.bind_eq_ok.1 h
  obtain ⟨_, hdefined, -⟩ := Serde.bind_eq_ok.1 h
  obtain ⟨service, hservice⟩ := Option.isSome_iff_exists.1 (AList.lookup_isSome.2 hname)
  exact defined_of_checkDefined hdefined _ (AList.mem_lookup_iff.1 hservice)

/-! ## What is converted -/

theorem convertServices_eq_some {services : List (Σ _ : String, ServiceConfig)} {converted : StrMap Provider.Service}
    (h : convertServices services = some converted) (name : String) :
    converted.lookup name = (services.dlookup name).bind ServiceConfig.into := by
  induction services generalizing converted with
  | nil =>
    cases h
    rfl
  | cons entry services ih =>
    obtain ⟨name', service⟩ := entry
    obtain ⟨first, hfirst, h⟩ := Option.bind_eq_some_iff.1 h
    obtain ⟨rest, hconverted, h⟩ := Option.bind_eq_some_iff.1 h
    cases h
    by_cases hkey : name = name'
    · subst hkey
      rw [AList.lookup_insert, List.dlookup_cons_eq, Option.bind_some, hfirst]
    · rw [AList.lookup_insert_ne hkey, List.dlookup_cons_ne _ _ hkey, ih hconverted]

theorem isSome_convertServices_iff (services : List (Σ _ : String, ServiceConfig)) :
    (convertServices services).isSome ↔ ∀ e ∈ services, e.2.image.isSome := by
  induction services with
  | nil => simp [convertServices]
  | cons entry services ih =>
    rw [List.forall_mem_cons, ← ih]
    have himage : entry.2.into.isSome = entry.2.image.isSome := Option.isSome_map
    cases hinto : entry.2.into <;> cases hrest : convertServices services <;>
      simp [convertServices, hinto, hrest, ← himage]

end DrasiPlatform.MgmtApi
