/-
What `merge_spec` keeps of a user's specification, and what a second merge makes of its result.

- `respectsUser_iff`: the user's properties and endpoints always stand in the merged specification, and everything else in
  it is a default. Two settings of a service can be lost: its properties, if the provider's service has no schema for
  them, and its sidecar settings, which are the provider's alone. The merge respects the user exactly when neither is set
  to anything else (`SettingsStand`).
- `mergeSpec_idempotent`: a merged specification is not changed by merging it again.

Witnesses: `plainSource_respected`, `plainSource_merged_again`. A setting that is lost: `own_protocol_is_dropped`.
-/
import Mathlib.Tactic
import DrasiPlatform.MgmtApi.AcceptedSpecs

namespace DrasiPlatform.MgmtApi

open Json
open Provider (StrMap)

/-! ## What the user says -/

/-- what the user has set stands, and everything else is a default for a key that the user has not set -/
structure Keeps {V : Type} (user : StrMap V) (default_ : String → Option V) (merged : StrMap V) : Prop where
  stands : ∀ key value, user.lookup key = some value → merged.lookup key = some value
  rest : ∀ key value, merged.lookup key = some value → user.lookup key = none → default_ key = some value

theorem Keeps.of_lookup {V : Type} {user merged : StrMap V} {default_ : String → Option V}
    (h : ∀ key, merged.lookup key = (user.lookup key).or (default_ key)) : Keeps user default_ merged where
  stands key value huser := by rw [h, huser, Option.some_or]
  rest key value hmerged huser := by rw [← hmerged, h, huser, Option.none_or]

/-- the default of a property of the resource -/
def ProviderSpec.propertyDefault (schema : ProviderSpec) (key : String) : Option ConfigValue :=
  ((schema.configSchema.bind JsonSchema.properties).bind (AList.lookup key)).bind (defaultOf listDefault)

/-- the default of a property of a service -/
def ProviderService.propertyDefault (provider : ProviderService) (key : String) : Option ConfigValue :=
  ((provider.configSchema.bind JsonSchema.properties).bind (AList.lookup key)).bind (defaultOf joinedDefault)

def ProviderService.daprDefault (provider : ProviderService) (key : String) : Option ConfigValue :=
  (provider.dapr.bind (AList.lookup key)).map .string

/-- an endpoint of the provider, with the port that it names -/
def ProviderService.endpointDefault (provider : ProviderService) (user : ServiceConfig) (name : String) :
    Option Endpoint :=
  (provider.endpoints.bind (AList.lookup name)).bind fun endpoint =>
    (declaredPort provider user endpoint.target).map fun port => ⟨endpoint.setting, port⟩

structure ServiceRespectsUser (provider : ProviderService) (user merged : ServiceConfig) : Prop where
  properties : Keeps (user.properties.getD ∅) provider.propertyDefault (merged.properties.getD ∅)
  dapr : Keeps (user.dapr.getD ∅) provider.daprDefault (merged.dapr.getD ∅)
  endpoints : Keeps (user.endpoints.getD ∅) (provider.endpointDefault user) (merged.endpoints.getD ∅)

/-- the merge respects the user; a service that the provider does not define is the user's -/
structure RespectsUser (schema : ProviderSpec) (properties : Option (StrMap ConfigValue))
    (services : Option (StrMap ServiceConfig)) (merged : StrMap ConfigValue × StrMap ServiceConfig) : Prop where
  ofResource : Keeps (properties.getD ∅) schema.propertyDefault merged.1
  ofServices : ∀ name provider, schema.services.lookup name = some provider → ∃ service,
    merged.2.lookup name = some service ∧
      ServiceRespectsUser provider (((services.getD ∅).lookup name).getD .empty) service
  ofOthers : ∀ name, schema.services.lookup name = none → merged.2.lookup name = (services.getD ∅).lookup name

/-- what the user says about a service is not lost: there are properties only where the provider has a schema for them,
and the settings of the sidecar are the provider's -/
structure SettingsStand (provider : ProviderService) (user : ServiceConfig) : Prop where
  properties : provider.configSchema = none → ∀ key, (user.properties.getD ∅).lookup key = none
  dapr : ∀ key value, (user.dapr.getD ∅).lookup key = some value → provider.daprDefault key = some value

/-! ## The merged service -/

theorem keeps_mergeServiceProperties_iff {name : String} {provider : ProviderService} {user : ServiceConfig}
    {merged : Option (StrMap ConfigValue)} (h : mergeServiceProperties name provider user = .ok merged) :
    Keeps (user.properties.getD ∅) provider.propertyDefault (merged.getD ∅) ↔
      (provider.configSchema = none → ∀ key, (user.properties.getD ∅).lookup key = none) := by
  cases merged with
  | none =>
    -- without a schema the properties are left out
    have hschema : provider.configSchema = none := by
      unfold mergeServiceProperties at h
      split at h
      · next hnone => exact hnone
      · next schema hschema =>
        split at h
        · cases h
        · next properties hproperties =>
          cases hadd : addDefaults joinedDefault (user.properties.getD ∅) properties.entries <;>
            simp [hadd, Except.map] at h
    constructor
    · intro hkeeps _ key
      cases huser : (user.properties.getD ∅).lookup key with
      | none => rfl
      | some value => cases hkeeps.stands key value huser
    · intro hnone
      refine .of_lookup fun key => ?_
      rw [hnone hschema key, ProviderService.propertyDefault, hschema]
      rfl
  | some properties =>
    have hkeeps : Keeps (user.properties.getD ∅) provider.propertyDefault properties :=
      .of_lookup (lookup_mergeServiceProperties h)
    refine ⟨fun _ hschema => ?_, fun _ => hkeeps⟩
    unfold mergeServiceProperties at h
    rw [hschema] at h
    cases h

theorem keeps_mergeServiceEndpoints {name : String} {provider : ProviderService} {user : ServiceConfig}
    {properties : Option (StrMap ConfigValue)} {endpoints : Option (StrMap Endpoint)}
    (hproperties : mergeServiceProperties name provider user = .ok properties)
    (hendpoints : mergeServiceEndpoints provider user properties = .ok endpoints) :
    Keeps (user.endpoints.getD ∅) (provider.endpointDefault user) (endpoints.getD ∅) := by
  refine .of_lookup fun name => ?_
  rw [lookup_mergeServiceEndpoints hendpoints]
  cases huser : (user.endpoints.getD ∅).lookup name with
  | some endpoint => rfl
  | none =>
    rw [Option.none_or, Option.none_or]
    unfold ProviderService.endpointDefault
    cases hdefault : provider.endpoints.bind (AList.lookup name) with
    | none => rfl
    | some endpoint =>
      obtain ⟨port, hport⟩ := targetPort_of_mergeServiceEndpoints hendpoints hdefault huser
      simp [hport, declaredPort_of_targetPort hproperties hport, Except.toOption]

theorem keeps_dapr_iff (provider : ProviderService) (user : ServiceConfig) :
    Keeps (user.dapr.getD ∅) provider.daprDefault ((provider.dapr.map (mapValues .string)).getD ∅) ↔
      ∀ key value, (user.dapr.getD ∅).lookup key = some value → provider.daprDefault key = some value := by
  have hlookup : ∀ key, ((provider.dapr.map (mapValues ConfigValue.string)).getD ∅).lookup key =
      provider.daprDefault key := by
    intro key
    unfold ProviderService.daprDefault
    cases provider.dapr with
    | none => rfl
    | some dapr => simp
  constructor
  · intro h key value huser
    rw [← hlookup]
    exact h.stands key value huser
  · intro h
    refine ⟨fun key value huser => ?_, fun key value hmerged _ => ?_⟩
    · rw [hlookup, h key value huser]
    · rw [← hlookup, hmerged]

/-- **When a merged service respects the user's.** -/
theorem serviceRespectsUser_iff {name : String} {provider : ProviderService} {user merged : ServiceConfig}
    (h : mergeService name provider user = .ok merged) :
    ServiceRespectsUser provider user merged ↔ SettingsStand provider user := by
  obtain ⟨properties, endpoints, hproperties, hendpoints, rfl⟩ := mergeService_eq_ok.1 h
  constructor
  · intro hrespects
    exact ⟨(keeps_mergeServiceProperties_iff hproperties).1 hrespects.properties,
      (keeps_dapr_iff provider user).1 hrespects.dapr⟩
  · intro hstand
    exact ⟨(keeps_mergeServiceProperties_iff hproperties).2 hstand.properties,
      (keeps_dapr_iff provider user).2 hstand.dapr, keeps_mergeServiceEndpoints hproperties hendpoints⟩

theorem settingsStand_empty (provider : ProviderService) : SettingsStand provider .empty := by
  refine ⟨fun _ _ => rfl, fun key value h => ?_⟩
  cases h

/-! ## The merged specification -/

theorem mergeSpec_properties {properties : Option (StrMap ConfigValue)} {services : Option (StrMap ServiceConfig)}
    {schema : ProviderSpec} {merged : StrMap ConfigValue × StrMap ServiceConfig}
    (h : mergeSpec properties services schema = .ok merged) :
    addDefaults listDefault (properties.getD ∅)
      ((schema.configSchema.bind JsonSchema.properties).getD ∅).entries = .ok merged.1 := by
  obtain ⟨_, hproperties, h⟩ := Serde.bind_eq_ok.1 h
  obtain ⟨_, -, h⟩ := Serde.bind_eq_ok.1 h
  cases h
  exact hproperties

theorem keeps_properties {properties : Option (StrMap ConfigValue)} {services : Option (StrMap ServiceConfig)}
    {schema : ProviderSpec} {merged : StrMap ConfigValue × StrMap ServiceConfig}
    (h : mergeSpec properties services schema = .ok merged) :
    Keeps (properties.getD ∅) schema.propertyDefault merged.1 := by
  refine .of_lookup fun key => ?_
  rw [lookup_addDefaults (AList.nodupKeys _) (mergeSpec_properties h)]
  unfold ProviderSpec.propertyDefault
  cases schema.configSchema.bind JsonSchema.properties <;> rfl

/-- **When the merge respects the user.** -/
theorem respectsUser_iff {properties : Option (StrMap ConfigValue)} {services : Option (StrMap ServiceConfig)}
    {schema : ProviderSpec} {merged : StrMap ConfigValue × StrMap ServiceConfig}
    (h : mergeSpec properties services schema = .ok merged) :
    RespectsUser schema properties services merged ↔
      ∀ name provider user, schema.services.lookup name = some provider → (services.getD ∅).lookup name = some user →
        SettingsStand provider user := by
  have hservices := mergeSpec_eq_ok h
  constructor
  · intro hrespects name provider user hprovider huser
    obtain ⟨service, hservice, hmerge⟩ := merged_of_provider hservices hprovider
    obtain ⟨service', hservice', hrespects'⟩ := hrespects.ofServices name provider hprovider
    obtain rfl : service' = service := Option.some.inj (hservice'.symm.trans hservice)
    rw [huser, Option.getD_some] at hmerge hrespects'
    exact (serviceRespectsUser_iff hmerge).1 hrespects'
  · intro hstand
    refine ⟨keeps_properties h, fun name provider hprovider => ?_, fun name hname => ?_⟩
    · obtain ⟨service, hservice, hmerge⟩ := merged_of_provider hservices hprovider
      refine ⟨service, hservice, (serviceRespectsUser_iff hmerge).2 ?_⟩
      cases huser : (services.getD ∅).lookup name with
      | none => exact settingsStand_empty provider
      | some user => exact hstand name provider user hprovider huser
    · have hlookup := lookup_mergeServices schema.services.nodupKeys hservices name
      rw [show schema.services.entries.dlookup name = none from hname] at hlookup
      exact hlookup

/-- a source of the provider that sets a property of its reactivator, and settings of the reactivator's sidecar -/
def ownService (dapr : Option (StrMap ConfigValue)) : StrMap ServiceConfig :=
  AList.singleton "reactivator"
    { ServiceConfig.empty with properties := some (AList.singleton "connector" (.string "MySQL")), dapr := dapr }

/-- **A setting of the sidecar is lost.** -/
theorem own_protocol_is_dropped :
    ∃ merged, mergeSpec none (some (ownService (some (AList.singleton "app-protocol" (.string "grpc"))))) postgreSql =
        .ok merged ∧
      ¬ RespectsUser postgreSql none (some (ownService (some (AList.singleton "app-protocol" (.string "grpc"))))) merged := by
  refine ⟨_, rfl, fun h => ?_⟩
  obtain ⟨service, hservice, hrespects⟩ := h.ofServices "reactivator" reactivatorService rfl
  cases hservice
  have hprotocol := hrespects.dapr.stands "app-protocol" (.string "grpc") rfl
  cases hprotocol

theorem plainSource_respected :
    ∃ merged, mergeSpec none (some (ownService none)) postgreSql = .ok merged ∧
      RespectsUser postgreSql none (some (ownService none)) merged := by
  refine ⟨_, rfl, (respectsUser_iff rfl).2 fun name provider user hprovider huser => ?_⟩
  obtain ⟨rfl, rfl⟩ := lookup_singleton hprovider
  obtain ⟨-, rfl⟩ := lookup_singleton huser
  refine ⟨fun h => ?_, fun key value h => ?_⟩
  · cases h
  · cases h

/-! ## A second merge -/

/-- there is nothing to add for the property -/
def Settled (array : List Value → Except DomainError ConfigValue) (properties : StrMap ConfigValue)
    (entry : Σ _ : String, PropertySchema) : Prop :=
  entry.1 ∈ properties ∨ ∀ v, entry.2.default_ = some v → defaultValue array v = .ok none

theorem addDefaults_of_settled {array : List Value → Except DomainError ConfigValue} {properties : StrMap ConfigValue}
    {defaults : List (Σ _ : String, PropertySchema)} (h : ∀ e ∈ defaults, Settled array properties e) :
    addDefaults array properties defaults = .ok properties := by
  induction defaults with
  | nil => rfl
  | cons entry defaults ih =>
    obtain ⟨name, schema⟩ := entry
    obtain ⟨hentry, hrest⟩ := List.forall_mem_cons.1 h
    unfold addDefaults
    split
    · exact ih hrest
    · next hmem =>
      split
      · exact ih hrest
      · next v hdefault =>
        have hnone := (hentry.resolve_left hmem) v hdefault
        rw [hnone]
        exact ih hrest

/-- once the defaults are added, all is settled -/
theorem settled_of_addDefaults {array : List Value → Except DomainError ConfigValue}
    {defaults : List (Σ _ : String, PropertySchema)} {properties merged : StrMap ConfigValue}
    (h : addDefaults array properties defaults = .ok merged) :
    (∀ key ∈ properties, key ∈ merged) ∧ ∀ e ∈ defaults, Settled array merged e := by
  induction defaults generalizing properties with
  | nil =>
    cases h
    exact ⟨fun _ hkey => hkey, by simp⟩
  | cons entry defaults ih =>
    obtain ⟨name, schema⟩ := entry
    rw [List.forall_mem_cons]
    unfold addDefaults at h
    split at h
    · next hmem =>
      obtain ⟨hkeys, hrest⟩ := ih h
      exact ⟨hkeys, .inl (hkeys name hmem), hrest⟩
    · split at h
      · next hdefault =>
        obtain ⟨hkeys, hrest⟩ := ih h
        exact ⟨hkeys, .inr (by simp [hdefault]), hrest⟩
      · next v hdefault =>
        split at h
        · cases h
        · next hv =>
          obtain ⟨hkeys, hrest⟩ := ih h
          exact ⟨hkeys, .inr (by simp [hdefault, hv]), hrest⟩
        · next value hv =>
          obtain ⟨hkeys, hrest⟩ := ih h
          refine ⟨fun key hkey => hkeys key ((AList.mem_insert _).2 (.inr hkey)), .inl ?_, hrest⟩
          exact hkeys name ((AList.mem_insert _).2 (.inl rfl))

theorem addEndpoints_of_mem {properties : Option (StrMap ConfigValue)} {endpoints : StrMap Endpoint}
    {defaults : List (Σ _ : String, ServiceEndpoint)} (h : ∀ e ∈ defaults, e.1 ∈ endpoints) :
    addEndpoints properties endpoints defaults = .ok endpoints := by
  induction defaults with
  | nil => rfl
  | cons entry defaults ih =>
    obtain ⟨hentry, hrest⟩ := List.forall_mem_cons.1 h
    unfold addEndpoints
    rw [if_pos hentry]
    exact ih hrest

theorem mem_of_addEndpoints {properties : Option (StrMap ConfigValue)} {defaults : List (Σ _ : String, ServiceEndpoint)}
    {endpoints merged : StrMap Endpoint} (h : addEndpoints properties endpoints defaults = .ok merged) :
    (∀ name ∈ endpoints, name ∈ merged) ∧ ∀ e ∈ defaults, e.1 ∈ merged := by
  induction defaults generalizing endpoints with
  | nil =>
    cases h
    exact ⟨fun _ hname => hname, by simp⟩
  | cons entry defaults ih =>
    obtain ⟨name, endpoint⟩ := entry
    rw [List.forall_mem_cons]
    unfold addEndpoints at h
    split at h
    · next hmem =>
      obtain ⟨hkeys, hrest⟩ := ih h
      exact ⟨hkeys, hkeys name hmem, hrest⟩
    · split at h
      · cases h
      · next port hport =>
        obtain ⟨hkeys, hrest⟩ := ih h
        refine ⟨fun key hkey => hkeys key ((AList.mem_insert _).2 (.inr hkey)), ?_, hrest⟩
        exact hkeys name ((AList.mem_insert _).2 (.inl rfl))

/-- properties that were merged are complete -/
theorem mergeServiceProperties_again {name : String} {provider : ProviderService} {user service : ServiceConfig}
    {properties : Option (StrMap ConfigValue)} (h : mergeServiceProperties name provider user = .ok properties)
    (hservice : service.properties = properties) : mergeServiceProperties name provider service = .ok properties := by
  unfold mergeServiceProperties at h ⊢
  split at h
  · cases h
    rfl
  · next schema hschema =>
    split at h
    · cases h
    · next defaults hdefaults =>
      cases hadd : addDefaults joinedDefault (user.properties.getD ∅) defaults.entries with
      | error e => simp [hadd, Except.map] at h
      | ok merged =>
        obtain rfl : some merged = properties := by simpa [hadd, Except.map] using h
        have hsettled := (settled_of_addDefaults hadd).2
        simp only [hservice, Option.getD_some, addDefaults_of_settled hsettled]
        rfl

/-- endpoints that were merged are complete, whatever the properties -/
theorem mergeServiceEndpoints_again {provider : ProviderService} {user service : ServiceConfig}
    {properties properties' : Option (StrMap ConfigValue)} {endpoints : Option (StrMap Endpoint)}
    (h : mergeServiceEndpoints provider user properties = .ok endpoints) (hservice : service.endpoints = endpoints) :
    mergeServiceEndpoints provider service properties' = .ok endpoints := by
  unfold mergeServiceEndpoints at h ⊢
  cases hprovider : provider.endpoints with
  | none =>
    rw [hprovider] at h
    obtain rfl := Except.ok.inj h
    rw [hservice]
    by_cases hempty : (user.endpoints.getD ∅).entries = []
    · simp only [hempty, if_true]
      rfl
    · simp only [hempty, if_false, Option.getD_some]
  | some defaults =>
    rw [hprovider] at h
    cases hadd : addEndpoints properties (user.endpoints.getD ∅) defaults.entries with
    | error e => simp [hadd, Except.map] at h
    | ok merged =>
      obtain rfl : some merged = endpoints := by simpa [hadd, Except.map] using h
      have hmem := (mem_of_addEndpoints hadd).2
      simp only [hservice, Option.getD_some, addEndpoints_of_mem hmem]
      rfl

/-- **A merged service is not changed by merging it again.** -/
theorem mergeService_again {name : String} {provider : ProviderService} {user merged : ServiceConfig}
    (h : mergeService name provider user = .ok merged) : mergeService name provider merged = .ok merged := by
  obtain ⟨properties, endpoints, hproperties, hendpoints, rfl⟩ := mergeService_eq_ok.1 h
  exact mergeService_eq_ok.2 ⟨properties, endpoints, mergeServiceProperties_again hproperties rfl,
    mergeServiceEndpoints_again hendpoints rfl, rfl⟩

/-- services that merge to themselves stay what they are, in whatever order the provider lists them -/
theorem mergeServices_of_fixed {providers : List (Σ _ : String, ProviderService)} {services : StrMap ServiceConfig}
    (h : ∀ e ∈ providers, ∃ service, services.lookup e.1 = some service ∧ mergeService e.1 e.2 service = .ok service) :
    ∃ merged, mergeServices services providers = .ok merged ∧ ∀ name, merged.lookup name = services.lookup name := by
  induction providers generalizing services with
  | nil => exact ⟨services, rfl, fun _ => rfl⟩
  | cons entry providers ih =>
    obtain ⟨name, provider⟩ := entry
    obtain ⟨⟨service, hlookup, hmerge⟩, hrest⟩ := List.forall_mem_cons.1 h
    have hinsert : ∀ key, (services.insert name service).lookup key = services.lookup key := by
      intro key
      by_cases hkey : key = name
      · subst hkey
        rw [AList.lookup_insert, hlookup]
      · exact AList.lookup_insert_ne hkey
    have hfixed : ∀ e ∈ providers, ∃ service', (services.insert name service).lookup e.1 = some service' ∧
        mergeService e.1 e.2 service' = .ok service' := by
      intro e he
      rw [hinsert]
      exact hrest e he
    obtain ⟨merged, hmerged, hsame⟩ := ih hfixed
    refine ⟨merged, Serde.bind_eq_ok.2 ⟨service, ?_, hmerged⟩, fun key => by rw [hsame, hinsert]⟩
    rw [hlookup, Option.getD_some, hmerge]

/-- **A second merge changes nothing.** It succeeds, and both maps hold what they held. -/
theorem mergeSpec_idempotent {properties : Option (StrMap ConfigValue)} {services : Option (StrMap ServiceConfig)}
    {schema : ProviderSpec} {merged : StrMap ConfigValue × StrMap ServiceConfig}
    (h : mergeSpec properties services schema = .ok merged) :
    ∃ again, mergeSpec (some merged.1) (some merged.2) schema = .ok (merged.1, again) ∧
      ∀ name, again.lookup name = merged.2.lookup name := by
  have hsettled := (settled_of_addDefaults (mergeSpec_properties h)).2
  have hfixed : ∀ e ∈ schema.services.entries, ∃ service, merged.2.lookup e.1 = some service ∧
      mergeService e.1 e.2 service = .ok service := by
    intro e he
    obtain ⟨service, hservice, hmerge⟩ := merged_of_provider (mergeSpec_eq_ok h) (AList.mem_lookup_iff.2 he)
    exact ⟨service, hservice, mergeService_again hmerge⟩
  obtain ⟨again, hagain, hsame⟩ := mergeServices_of_fixed hfixed
  refine ⟨again, ?_, hsame⟩
  exact Serde.bind_eq_ok.2 ⟨merged.1, addDefaults_of_settled hsettled, Serde.bind_eq_ok.2 ⟨again, hagain, rfl⟩⟩

theorem plainSource_merged_again :
    ∃ merged again, mergeSpec none (some (ownService none)) postgreSql = .ok merged ∧
      mergeSpec (some merged.1) (some merged.2) postgreSql = .ok (merged.1, again) ∧
      ∀ name, again.lookup name = merged.2.lookup name := by
  have hmerged : ∃ merged, mergeSpec none (some (ownService none)) postgreSql = .ok merged := ⟨_, rfl⟩
  obtain ⟨merged, hmerge⟩ := hmerged
  obtain ⟨again, hagain⟩ := mergeSpec_idempotent hmerge
  exact ⟨merged, again, hmerge, hagain⟩

end DrasiPlatform.MgmtApi
