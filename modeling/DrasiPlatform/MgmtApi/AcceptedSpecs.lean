/-
From an accepted specification to the objects of its resource: `set` of a source or a reaction completes and validates the
specification, converts it for the resource provider, and the provider's builder unwraps what it needs as numbers.

Three texts reach an `unwrap` or a `panic!` unchecked: the port of the sidecar in the provider's definition, the target of
an endpoint, and a role of an identity that is a reference to a secret. The other ones cannot fail: a merged service always
has an image and never a replica count.

- `portsParse_iff_deployable`: what the builder unwraps of a merged service, said about the user's service and the
  provider's.
- `accepted_builds_iff`: an accepted source or reaction is built exactly when every service is `Deployable` and the
  identity's role is inline.
Witness: `number_target_builds` (a reaction of the SignalR provider, a source of the PostgreSQL one).
`reference_target_panics`: the user writes the target of an endpoint as the provider does, with `$` and the name of a property.
-/
import Mathlib.Tactic
import DrasiPlatform.MgmtApi.ExtensibleSpec

namespace DrasiPlatform.MgmtApi

open Json
open Provider (StrMap)

/-! ## What can be built -/

/-- the text of a value, if it is a string or an integer -/
def ConfigValue.text : ConfigValue → Option String
  | .string value => some value
  | .integer value => some (toString value.toInt)
  | _ => none

/-- a scalar of JSON as text -/
def scalarText : Value → Option String
  | .string s => some s
  | .bool b => some (toString b)
  | .number n => (asI64 n).map fun n => toString n.toInt
  | _ => none

/-- the text of a default, if it is a string, an integer or an array, whose items are joined -/
def PropertySchema.text (schema : PropertySchema) : Option String :=
  match schema.default_ with
  | some (.string s) => some s
  | some (.number n) => (asI64 n).map fun n => toString n.toInt
  | some (.array items) => some (",".intercalate (items.filterMap scalarText))
  | _ => none

/-- the property that an endpoint of the provider names: the user's, or the default -/
def declaredPort (provider : ProviderService) (service : ServiceConfig) (target : String) : Option String :=
  match (service.properties.getD ∅).lookup (trimDollars target) with
  | some value => value.text
  | none => ((provider.configSchema.bind JsonSchema.properties).bind (AList.lookup (trimDollars target))).bind
      PropertySchema.text

/-- the ports of a service are numbers: the sidecar's, those of the user's endpoints, and those that the other endpoints of
the provider name -/
structure Deployable (provider : ProviderService) (service : ServiceConfig) : Prop where
  appPort : ∀ port, provider.dapr.bind (AList.lookup "app-port") = some port → (Provider.parseU16 port).isSome
  own : ∀ name endpoint, (service.endpoints.getD ∅).lookup name = some endpoint →
    (Provider.parseI32 endpoint.target).isSome
  inherited : ∀ name endpoint port, provider.endpoints.bind (AList.lookup name) = some endpoint →
    (service.endpoints.getD ∅).lookup name = none → declaredPort provider service endpoint.target = some port →
    (Provider.parseI32 port).isSome

/-- every service of the provider can be deployed with what the user says about it; with a service to deploy, the role of
the identity is inline -/
def Runnable (schema : ProviderSpec) (services : Option (StrMap ServiceConfig)) (identity : Option ServiceIdentity) :
    Prop :=
  ∀ name provider, schema.services.lookup name = some provider →
    Deployable provider (((services.getD ∅).lookup name).getD .empty) ∧
    ∀ secret key, identity ≠ some (.awsIamRole (.secret secret key))

/-! ## The ports of a merged service -/

theorem filterMap_scalarText {items : List Value} {texts : List String} (h : convertItems itemText items = .ok texts) :
    items.filterMap scalarText = texts := by
  induction items generalizing texts with
  | nil =>
    cases h
    rfl
  | cons v items ih =>
    obtain ⟨item, hitem, h⟩ := Serde.bind_eq_ok.1 h
    obtain ⟨rest, hrest, h⟩ := Serde.bind_eq_ok.1 h
    cases h
    have hscalar : scalarText v = item := by
      cases v with
      | number n =>
        cases hn : asI64 n with
        | none => simp [itemText, expectInteger, hn, Except.map] at hitem
        | some n =>
          simp only [itemText, expectInteger, hn, Except.map, Except.ok.injEq] at hitem
          rw [scalarText, hn]
          exact hitem
      | _ =>
        cases hitem
        rfl
    rw [List.filterMap_cons, hscalar, ih hrest]
    cases item <;> rfl

theorem text_of_defaultOf {schema : PropertySchema} {value : ConfigValue} {port : String}
    (h : defaultOf joinedDefault schema = some value) (hport : value.text = some port) : schema.text = some port := by
  obtain ⟨v, hv, h⟩ := Option.bind_eq_some_iff.1 h
  cases hvalue : defaultValue joinedDefault v with
  | error e => simp [hvalue, Except.toOption] at h
  | ok converted =>
    obtain rfl : converted = some value := by simpa [hvalue, Except.toOption] using h
    unfold PropertySchema.text
    rw [hv]
    cases v with
    | null => cases hvalue
    | object fields => cases hvalue
    | bool b =>
      cases hvalue
      cases hport
    | string s =>
      cases hvalue
      exact hport
    | number n =>
      cases hn : asI64 n with
      | none => simp [defaultValue, scalarDefault, expectInteger, hn, Except.map] at hvalue
      | some m =>
        simp only [defaultValue, scalarDefault, expectInteger, hn, Except.map, Except.ok.injEq, Function.comp_apply,
          Option.some.injEq] at hvalue
        subst hvalue
        change (asI64 n).map (fun n => toString n.toInt) = some port
        rw [hn]
        exact hport
    | array items =>
      cases htexts : convertItems itemText items with
      | error e => simp [defaultValue, joinedDefault, htexts, Except.map] at hvalue
      | ok texts =>
        simp only [defaultValue, joinedDefault, htexts, Except.map, Except.ok.injEq, Option.some.injEq] at hvalue
        subst hvalue
        change some (",".intercalate (items.filterMap scalarText)) = some port
        rw [filterMap_scalarText htexts]
        exact hport

theorem targetPort_eq_ok {properties : Option (StrMap ConfigValue)} {target port : String}
    (h : targetPort properties target = .ok port) :
    ∃ value, properties.bind (AList.lookup target) = some value ∧ value.text = some port := by
  unfold targetPort at h
  split at h
  · cases h
  · next properties =>
    split at h
    · next value hvalue =>
      cases h
      exact ⟨_, hvalue, rfl⟩
    · next value hvalue =>
      cases h
      exact ⟨_, hvalue, rfl⟩
    · cases h
    · cases h

/-- the property of a merged service is the user's, or the default -/
theorem lookup_mergeServiceProperties {name : String} {provider : ProviderService} {service : ServiceConfig}
    {properties : StrMap ConfigValue} (h : mergeServiceProperties name provider service = .ok (some properties))
    (key : String) :
    properties.lookup key = ((service.properties.getD ∅).lookup key).or
      (((provider.configSchema.bind JsonSchema.properties).bind (AList.lookup key)).bind (defaultOf joinedDefault)) := by
  unfold mergeServiceProperties at h
  split at h
  · cases h
  · next schema hschema =>
    split at h
    · cases h
    · next defaults hdefaults =>
      cases hadd : addDefaults joinedDefault (service.properties.getD ∅) defaults.entries with
      | error e => simp [hadd, Except.map] at h
      | ok merged =>
        obtain rfl : merged = properties := by simpa [hadd, Except.map] using h
        rw [hschema, Option.bind_some, hdefaults, Option.bind_some]
        exact lookup_addDefaults defaults.nodupKeys hadd key

/-- the port of an endpoint of the provider, once it is found, is the one that the two specifications declare -/
theorem declaredPort_of_targetPort {name : String} {provider : ProviderService} {service : ServiceConfig}
    {properties : Option (StrMap ConfigValue)} (h : mergeServiceProperties name provider service = .ok properties)
    {target port : String} (hport : targetPort properties (trimDollars target) = .ok port) :
    declaredPort provider service target = some port := by
  obtain ⟨value, hvalue, htext⟩ := targetPort_eq_ok hport
  obtain ⟨merged, rfl, hlookup⟩ := Option.bind_eq_some_iff.1 hvalue
  rw [lookup_mergeServiceProperties h] at hlookup
  unfold declaredPort
  cases huser : (service.properties.getD ∅).lookup (trimDollars target) with
  | some own =>
    obtain rfl : own = value := by simpa [huser] using hlookup
    exact htext
  | none =>
    rw [huser, Option.none_or] at hlookup
    obtain ⟨schema, hschema, hdefault⟩ := Option.bind_eq_some_iff.1 hlookup
    simp only [hschema, Option.bind_some]
    exact text_of_defaultOf hdefault htext

theorem lookup_mergeServiceEndpoints {provider : ProviderService} {service : ServiceConfig}
    {properties : Option (StrMap ConfigValue)} {endpoints : Option (StrMap Endpoint)}
    (h : mergeServiceEndpoints provider service properties = .ok endpoints) (name : String) :
    (endpoints.getD ∅).lookup name = ((service.endpoints.getD ∅).lookup name).or
      ((provider.endpoints.bind (AList.lookup name)).bind fun endpoint =>
        (targetPort properties (trimDollars endpoint.target)).toOption.map fun port => ⟨endpoint.setting, port⟩) := by
  unfold mergeServiceEndpoints at h
  cases hprovider : provider.endpoints with
  | none =>
    rw [hprovider] at h
    obtain rfl := Except.ok.inj h
    rw [Option.bind_none, Option.bind_none, Option.or_none]
    split
    · next hempty =>
      have hnone : (service.endpoints.getD ∅).lookup name = none := by
        rw [AList.lookup, hempty, List.dlookup_nil]
      rw [hnone]
      rfl
    · rfl
  | some defaults =>
    rw [hprovider] at h
    cases hadd : addEndpoints properties (service.endpoints.getD ∅) defaults.entries with
    | error e => simp [hadd, Except.map] at h
    | ok merged =>
      obtain rfl : endpoints = some merged := by simpa [hadd, Except.map, eq_comm] using h
      exact lookup_addEndpoints defaults.nodupKeys hadd name

/-- every endpoint of the provider that the user has not defined got its port -/
theorem targetPort_of_mergeServiceEndpoints {provider : ProviderService} {service : ServiceConfig}
    {properties : Option (StrMap ConfigValue)} {endpoints : Option (StrMap Endpoint)}
    (h : mergeServiceEndpoints provider service properties = .ok endpoints) {name : String} {endpoint : ServiceEndpoint}
    (hdefault : provider.endpoints.bind (AList.lookup name) = some endpoint)
    (huser : (service.endpoints.getD ∅).lookup name = none) :
    ∃ port, targetPort properties (trimDollars endpoint.target) = .ok port := by
  obtain ⟨defaults, hprovider, hlookup⟩ := Option.bind_eq_some_iff.1 hdefault
  unfold mergeServiceEndpoints at h
  rw [hprovider] at h
  cases hadd : addEndpoints properties (service.endpoints.getD ∅) defaults.entries with
  | error e => simp [hadd, Except.map] at h
  | ok merged => exact targetPort_of_addEndpoints defaults.nodupKeys hadd hlookup huser

/-- the targets of a merged service are numbers when the user's endpoints, and the ports that the provider's other
endpoints name, are -/
theorem targets_parse_iff {name : String} {provider : ProviderService} {service : ServiceConfig}
    {properties : Option (StrMap ConfigValue)} {endpoints : Option (StrMap Endpoint)}
    (hproperties : mergeServiceProperties name provider service = .ok properties)
    (hendpoints : mergeServiceEndpoints provider service properties = .ok endpoints) :
    (∀ name endpoint, (endpoints.getD ∅).lookup name = some endpoint → (Provider.parseI32 endpoint.target).isSome) ↔
      (∀ name endpoint, (service.endpoints.getD ∅).lookup name = some endpoint →
        (Provider.parseI32 endpoint.target).isSome) ∧
      ∀ name endpoint port, provider.endpoints.bind (AList.lookup name) = some endpoint →
        (service.endpoints.getD ∅).lookup name = none → declaredPort provider service endpoint.target = some port →
        (Provider.parseI32 port).isSome := by
  constructor
  · intro h
    constructor
    · intro name endpoint huser
      refine h name endpoint ?_
      rw [lookup_mergeServiceEndpoints hendpoints, huser, Option.some_or]
    · intro name endpoint port hdefault huser hport
      obtain ⟨port', hport'⟩ := targetPort_of_mergeServiceEndpoints hendpoints hdefault huser
      have hdeclared := declaredPort_of_targetPort hproperties hport'
      obtain rfl : port' = port := Option.some.inj (hdeclared.symm.trans hport)
      refine h name ⟨endpoint.setting, port'⟩ ?_
      rw [lookup_mergeServiceEndpoints hendpoints, huser, hdefault, Option.none_or, Option.bind_some, hport']
      rfl
  · rintro ⟨hown, hinherited⟩ name endpoint hlookup
    rw [lookup_mergeServiceEndpoints hendpoints] at hlookup
    cases huser : (service.endpoints.getD ∅).lookup name with
    | some own =>
      obtain rfl : own = endpoint := by simpa [huser] using hlookup
      exact hown name own huser
    | none =>
      rw [huser, Option.none_or] at hlookup
      obtain ⟨inherited, hdefault, hlookup⟩ := Option.bind_eq_some_iff.1 hlookup
      cases hport : targetPort properties (trimDollars inherited.target) with
      | error e => simp [hport, Except.toOption] at hlookup
      | ok port =>
        obtain rfl : (⟨inherited.setting, port⟩ : Endpoint) = endpoint := by
          simpa [hport, Except.toOption] using hlookup
        exact hinherited name inherited port hdefault huser (declaredPort_of_targetPort hproperties hport)

/-- **What the builder unwraps of a merged service.** -/
theorem portsParse_iff_deployable {name : String} {provider : ProviderService} {service merged : ServiceConfig}
    (hmerge : mergeService name provider service = .ok merged) {converted : Provider.Service}
    (hinto : merged.into = some converted) : converted.PortsParse ↔ Deployable provider service := by
  obtain ⟨properties, endpoints, hproperties, hendpoints, rfl⟩ := mergeService_eq_ok.1 hmerge
  obtain rfl := Option.some.inj hinto
  have htargets := targets_parse_iff hproperties hendpoints
  have hlookup : ∀ name, ((endpoints.map (mapValues Endpoint.into)).getD ∅).lookup name =
      ((endpoints.getD ∅).lookup name).map Endpoint.into := by
    intro name
    cases endpoints with
    | none => rfl
    | some endpoints => exact lookup_mapValues _ _ _
  have hdapr : ∀ port : String,
      ((provider.dapr.map (mapValues ConfigValue.string)).map (mapValues ConfigValue.into)).bind
          (AList.lookup "app-port") = some (.inline port) ↔
        provider.dapr.bind (AList.lookup "app-port") = some port := by
    intro port
    cases provider.dapr with
    | none => simp
    | some dapr => cases hport : dapr.lookup "app-port" <;> simp [hport, ConfigValue.into]
  constructor
  · rintro ⟨happ, hports⟩
    obtain ⟨hown, hinherited⟩ := htargets.1 fun name endpoint hendpoint =>
      hports name endpoint.into (by rw [hlookup, hendpoint, Option.map_some])
    exact ⟨fun port hport => happ port ((hdapr port).2 hport), hown, hinherited⟩
  · rintro ⟨happ, hown, hinherited⟩
    refine ⟨fun port hport => happ port ((hdapr port).1 hport), ?_⟩
    intro name endpoint hendpoint
    rw [hlookup] at hendpoint
    obtain ⟨endpoint, hmem, rfl⟩ := Option.map_eq_some_iff.1 hendpoint
    exact htargets.2 ⟨hown, hinherited⟩ name endpoint hmem

/-! ## The services of an accepted specification -/

/-- a service of the provider is there after the merge, merged with the user's -/
theorem merged_of_provider {schema : ProviderSpec} {services merged : StrMap ServiceConfig}
    (hmerge : mergeServices services schema.services.entries = .ok merged) {name : String} {provider : ProviderService}
    (hprovider : schema.services.lookup name = some provider) :
    ∃ config, merged.lookup name = some config ∧
      mergeService name provider ((services.lookup name).getD .empty) = .ok config := by
  have hservice := lookup_mergeServices schema.services.nodupKeys hmerge name
  rw [show schema.services.entries.dlookup name = some provider from hprovider] at hservice
  exact hservice

/-- the services of a merged and valid specification are converted, and each is the merge of the provider's and the
user's -/
theorem converted_services {schema : ProviderSpec} {services : Option (StrMap ServiceConfig)}
    {merged : StrMap ServiceConfig} (hmerge : mergeServices (services.getD ∅) schema.services.entries = .ok merged)
    (hdefined : ∀ name ∈ merged, name ∈ schema.services) :
    ∃ converted, convertServices merged.entries = some converted ∧ ∀ name service,
      converted.lookup name = some service ↔ ∃ provider config, schema.services.lookup name = some provider ∧
        mergeService name provider (((services.getD ∅).lookup name).getD .empty) = .ok config ∧
        config.into = some service := by
  have hmem : ∀ name config, merged.lookup name = some config → ∃ provider, schema.services.lookup name = some provider ∧
      mergeService name provider (((services.getD ∅).lookup name).getD .empty) = .ok config := by
    intro name config hlookup
    have hname : name ∈ schema.services := hdefined name (AList.lookup_isSome.1 (by rw [hlookup]; rfl))
    obtain ⟨provider, hprovider⟩ := Option.isSome_iff_exists.1 (AList.lookup_isSome.2 hname)
    obtain ⟨config', hconfig', hmerged⟩ := merged_of_provider hmerge hprovider
    obtain rfl : config' = config := Option.some.inj (hconfig'.symm.trans hlookup)
    exact ⟨provider, hprovider, hmerged⟩
  have himages : ∀ e ∈ merged.entries, e.2.image.isSome := by
    rintro ⟨name, config⟩ he
    obtain ⟨provider, -, hconfig⟩ := hmem name config (AList.mem_lookup_iff.2 he)
    obtain ⟨_, _, -, -, rfl⟩ := mergeService_eq_ok.1 hconfig
    rfl
  obtain ⟨converted, hconverted⟩ := Option.isSome_iff_exists.1 ((isSome_convertServices_iff merged.entries).2 himages)
  refine ⟨converted, hconverted, fun name service => ?_⟩
  rw [convertServices_eq_some hconverted, Option.bind_eq_some_iff]
  constructor
  · rintro ⟨config, hconfig, hinto⟩
    obtain ⟨provider, hprovider, hmerged⟩ := hmem name config hconfig
    exact ⟨provider, config, hprovider, hmerged, hinto⟩
  · rintro ⟨provider, config, hprovider, hconfig, hinto⟩
    obtain ⟨config', hconfig', hmerged⟩ := merged_of_provider hmerge hprovider
    obtain rfl : config' = config := Except.ok.inj (hmerged.symm.trans hconfig)
    exact ⟨config', hconfig', hinto⟩

theorem identityApplies_iff (identity : Option ServiceIdentity) :
    Provider.IdentityApplies (identity.map ServiceIdentity.into) ↔
      ∀ secret key, identity ≠ some (.awsIamRole (.secret secret key)) := by
  cases identity with
  | none => simp [Provider.IdentityApplies]
  | some identity =>
    cases identity with
    | awsIamRole roleArn => cases roleArn <;> simp [Provider.IdentityApplies, ServiceIdentity.into, ConfigValue.into]
    | _ => simp [Provider.IdentityApplies, ServiceIdentity.into]

/-- what a builder needs of all the services is what the specification and the provider must promise -/
theorem runnable_iff {schema : ProviderSpec} {services : Option (StrMap ServiceConfig)}
    (identity : Option ServiceIdentity) {merged : StrMap ServiceConfig}
    (hmerge : mergeServices (services.getD ∅) schema.services.entries = .ok merged)
    (hdefined : ∀ name ∈ merged, name ∈ schema.services) :
    ∃ converted, convertServices merged.entries = some converted ∧
      (∀ name service, converted.lookup name = some service → service.replica = none) ∧
      ((∀ name service, converted.lookup name = some service →
        service.PortsParse ∧ Provider.IdentityApplies (identity.map ServiceIdentity.into)) ↔
        Runnable schema services identity) := by
  obtain ⟨converted, hconverted, hlookup⟩ := converted_services hmerge hdefined
  refine ⟨converted, hconverted, ?_, ?_⟩
  · intro name service hservice
    obtain ⟨provider, config, -, hconfig, hinto⟩ := (hlookup name service).1 hservice
    obtain ⟨_, _, -, -, rfl⟩ := mergeService_eq_ok.1 hconfig
    obtain rfl := Option.some.inj hinto
    rfl
  · rw [identityApplies_iff]
    constructor
    · intro h name provider hprovider
      obtain ⟨config, -, hconfig⟩ := merged_of_provider hmerge hprovider
      have himage : ∃ service, config.into = some service := by
        obtain ⟨_, _, -, -, rfl⟩ := mergeService_eq_ok.1 hconfig
        exact ⟨_, rfl⟩
      obtain ⟨service, hinto⟩ := himage
      obtain ⟨hports, hid⟩ := h name service ((hlookup name service).2 ⟨provider, config, hprovider, hconfig, hinto⟩)
      exact ⟨(portsParse_iff_deployable hconfig hinto).1 hports, hid⟩
    · intro h name service hservice
      obtain ⟨provider, config, hprovider, hconfig, hinto⟩ := (hlookup name service).1 hservice
      obtain ⟨hdeployable, hid⟩ := h name provider hprovider
      exact ⟨(portsParse_iff_deployable hconfig hinto).2 hdeployable, hid⟩

/-! ## Accepted specifications -/

theorem prepare_eq_ok {TSpec TStatus TApiSpec : Type} {X : ExtensibleService TSpec TStatus TApiSpec ProviderSpec}
    {source spec : TSpec} {schema : ProviderSpec} (hschema : X.providerRepo (X.kind source) = some schema)
    (h : X.prepare source = .ok spec) :
    X.populateDefaultValues source schema = .ok spec ∧
      validateAll (X.validators.map fun validate => validate schema) spec = .ok () := by
  simp only [ExtensibleService.prepare, Repository.get, hschema] at h
  split at h
  · cases h
  · next populated hpopulated =>
    split at h
    · cases h
    · next hvalid =>
      cases h
      exact ⟨hpopulated, hvalid⟩

theorem validateAll_singleton {TSpec : Type} {validator : TSpec → Except DomainError Unit} {spec : TSpec}
    (h : validateAll [validator] spec = .ok ()) : validator spec = .ok () := by
  unfold validateAll at h
  split at h
  · next hvalid => exact hvalid
  · cases h

theorem mergeSpec_eq_ok {properties : Option (StrMap ConfigValue)} {services : Option (StrMap ServiceConfig)}
    {schema : ProviderSpec} {merged : StrMap ConfigValue × StrMap ServiceConfig}
    (h : mergeSpec properties services schema = .ok merged) :
    mergeServices (services.getD ∅) schema.services.entries = .ok merged.2 := by
  obtain ⟨_, -, h⟩ := Serde.bind_eq_ok.1 h
  obtain ⟨_, hservices, h⟩ := Serde.bind_eq_ok.1 h
  cases h
  exact hservices

variable (TStatus : Type) (compile : Compile) (providerRepo : Repository ProviderSpec) (config : Provider.BuilderConfig)
  (calcHash : Provider.ReactionSpec → String) (instanceId id : String)

theorem accepted_source_builds_iff {schema : ProviderSpec} {source spec : SourceSpec}
    (hschema : providerRepo source.kind = some schema)
    (haccepted : (sourceService TStatus compile providerRepo).prepare source = .ok spec) :
    (((sourceService TStatus compile providerRepo).into spec).bind
        (Provider.SourceSpecBuilder.build config instanceId id)).isSome ↔
      Runnable schema source.services source.identity := by
  obtain ⟨hpopulate, hvalid⟩ := prepare_eq_ok hschema haccepted
  replace hvalid := validateAll_singleton hvalid
  cases hmerge : mergeSpec source.properties source.services schema with
  | error e => simp [sourceService, SourceSpec.populateDefaultValues, hmerge, Except.map] at hpopulate
  | ok merged =>
    obtain rfl : { source with properties := some merged.1, services := some merged.2 } = spec := by
      simpa [sourceService, SourceSpec.populateDefaultValues, hmerge, Except.map] using hpopulate
    obtain ⟨converted, hconverted, -, hrunnable⟩ :=
      runnable_iff source.identity (mergeSpec_eq_ok hmerge) fun name hname => defined_of_validate hvalid hname
    rw [← hrunnable]
    simp only [sourceService, SourceSpec.into, convertOption, hconverted, Option.map_some, Option.bind_some]
    exact Provider.SourceSpecBuilder.build_isSome_iff config instanceId id _

theorem accepted_reaction_builds_iff {schema : ProviderSpec} {reaction spec : ReactionSpec}
    (hschema : providerRepo reaction.kind = some schema)
    (haccepted : (reactionService TStatus compile providerRepo).prepare reaction = .ok spec) :
    (((reactionService TStatus compile providerRepo).into spec).bind
        (Provider.ReactionSpecBuilder.build config calcHash instanceId id)).isSome ↔
      Runnable schema reaction.services reaction.identity := by
  obtain ⟨hpopulate, hvalid⟩ := prepare_eq_ok hschema haccepted
  replace hvalid := validateAll_singleton hvalid
  cases hmerge : mergeSpec reaction.properties reaction.services schema with
  | error e => simp [reactionService, ReactionSpec.populateDefaultValues, hmerge, Except.map] at hpopulate
  | ok merged =>
    obtain rfl : { reaction with properties := some merged.1, services := some merged.2 } = spec := by
      simpa [reactionService, ReactionSpec.populateDefaultValues, hmerge, Except.map] using hpopulate
    obtain ⟨converted, hconverted, hreplica, hrunnable⟩ :=
      runnable_iff reaction.identity (mergeSpec_eq_ok hmerge) fun name hname => defined_of_validate hvalid hname
    rw [← hrunnable]
    simp only [reactionService, ReactionSpec.into, convertOption, hconverted, Option.map_some, Option.bind_some]
    rw [Provider.ReactionSpecBuilder.build_isSome_iff]
    constructor
    · intro h name service hservice
      obtain ⟨hports, -, hid⟩ := h name service hservice
      exact ⟨hports, hid⟩
    · intro h name service hservice
      obtain ⟨hports, hid⟩ := h name service hservice
      -- the merge drops the user's replica count, and the builder's own default is a number
      refine ⟨hports, ?_, hid⟩
      rw [hreplica name service hservice]
      decide

/-- **When an accepted specification is built.** For every source and every reaction that `set` completes and validates
against its provider, the conversion and the builder get to their end exactly when the specification is `Runnable`. -/
theorem accepted_builds_iff (schema : ProviderSpec) :
    (∀ source spec : SourceSpec, providerRepo source.kind = some schema →
      (sourceService TStatus compile providerRepo).prepare source = .ok spec →
      ((((sourceService TStatus compile providerRepo).into spec).bind
          (Provider.SourceSpecBuilder.build config instanceId id)).isSome ↔
        Runnable schema source.services source.identity)) ∧
    ∀ reaction spec : ReactionSpec, providerRepo reaction.kind = some schema →
      (reactionService TStatus compile providerRepo).prepare reaction = .ok spec →
      ((((reactionService TStatus compile providerRepo).into spec).bind
          (Provider.ReactionSpecBuilder.build config calcHash instanceId id)).isSome ↔
        Runnable schema reaction.services reaction.identity) := by
  constructor
  · intro source spec hschema haccepted
    exact accepted_source_builds_iff TStatus compile providerRepo config instanceId id hschema haccepted
  · intro reaction spec hschema haccepted
    exact accepted_reaction_builds_iff TStatus compile providerRepo config calcHash instanceId id hschema haccepted

/-! ## A reaction with an endpoint, a source with an identity -/

/-- an endpoint whose port is a property with a default -/
def signalRService : ProviderService where
  image := "reaction-signalr"
  externalImage := none
  dapr := none
  endpoints := some (AList.singleton "gateway" ⟨.external, "$signalr-portConfigKey"⟩)
  configSchema := some
    { properties := some (AList.singleton "signalr-portConfigKey"
        ⟨some (.number (.posInt 8080)), .object [("type", .string "number")]⟩)
      required := none
      keywords := .object [("type", .string "object")] }
  deprovisionHandler := none

def reactivatorService : ProviderService where
  image := "source-debezium-reactivator"
  externalImage := none
  dapr := some (AList.singleton "app-port" "80")
  endpoints := none
  configSchema := some
    { properties := some (AList.singleton "connector"
        ⟨some (.string "PostgreSQL"), .object [("type", .string "string")]⟩)
      required := none
      keywords := .object [("type", .string "object")] }
  deprovisionHandler := some true

def signalR : ProviderSpec := ⟨AList.singleton "reaction" signalRService, none⟩

def postgreSql : ProviderSpec := ⟨AList.singleton "reactivator" reactivatorService, none⟩

def providers : Repository ProviderSpec := fun kind =>
  if kind = "SignalR" then some signalR else if kind = "PostgreSQL" then some postgreSql else none

def hasType (v : Value) (type_ : String) : Bool :=
  match v with
  | .number _ => type_ = "number"
  | .string _ => type_ = "string"
  | .bool _ => type_ = "boolean"
  | .array _ => type_ = "array"
  | _ => false

/-- a validation that looks at the types of the properties -/
def compileTypes : Compile := fun schema => some fun properties =>
  (schema.properties.getD ∅).entries.findSome? fun e =>
    match properties.get e.1, (e.2.keywords.get "type").asStr with
    | .null, _ => none
    | v, some type_ => if hasType v type_ then none else some ("is not of type " ++ type_, "/" ++ e.1)
    | _, none => none

def builderConfig : Provider.BuilderConfig where
  ingressClassName := "contour"
  ingressLoadBalancerService := "contour-envoy"
  ingressLoadBalancerNamespace := "projectcontour"
  imagePrefix := "drasi-project/"
  imageTag := "latest"
  imagePullPolicy := "Always"
  daprConfig := "dapr-config"
  daprSidecar := "daprio/daprd:1.9.0"
  pubSubType := "pubsub.redis"
  pubSubVersion := "v1"
  pubSubConfig := []
  ingressAnnotations := []

/-- the user's endpoint of a reaction, with its target -/
def ownEndpoint (target : String) : StrMap ServiceConfig :=
  AList.singleton "reaction"
    { ServiceConfig.empty with endpoints := some (AList.singleton "service" ⟨.external, target⟩) }

def chatReaction (target : String) : ReactionSpec :=
  ⟨"SignalR", none, some (ownEndpoint target), none, AList.singleton "query1" "", none⟩

def rdsSource (roleArn : ConfigValue) : SourceSpec := ⟨"PostgreSQL", none, none, some (.awsIamRole roleArn)⟩

/-- whether an accepted reaction is built, or the error of `set` -/
def builtReaction (reaction : ReactionSpec) : Except DomainError Bool :=
  ((reactionService Unit compileTypes providers).prepare reaction).map fun spec =>
    (((reactionService Unit compileTypes providers).into spec).bind
      (Provider.ReactionSpecBuilder.build builderConfig (fun _ => "0") "drasi" "reaction1")).isSome

def builtSource (source : SourceSpec) : Except DomainError Bool :=
  ((sourceService Unit compileTypes providers).prepare source).map fun spec =>
    (((sourceService Unit compileTypes providers).into spec).bind
      (Provider.SourceSpecBuilder.build builderConfig "drasi" "source1")).isSome

theorem lookup_singleton {V : Type} {key key' : String} {v v' : V}
    (h : (AList.singleton key v : StrMap V).lookup key' = some v') : key' = key ∧ v' = v := by
  have hmem : (⟨key', v'⟩ : Σ _ : String, V) ∈ [⟨key, v⟩] := AList.mem_lookup_iff.1 h
  simpa using hmem

theorem runnable_chatReaction : Runnable signalR (some (ownEndpoint "8080")) none := by
  intro name provider hprovider
  obtain ⟨rfl, rfl⟩ := lookup_singleton hprovider
  refine ⟨⟨?_, ?_, ?_⟩, by simp⟩
  · intro port hport
    cases hport
  · intro name endpoint hendpoint
    obtain ⟨rfl, rfl⟩ := lookup_singleton hendpoint
    decide
  · intro name endpoint port hendpoint _ hport
    obtain ⟨rfl, rfl⟩ := lookup_singleton hendpoint
    have hdefault : declaredPort signalRService ((ownEndpoint "8080").lookup "reaction" |>.getD .empty)
        "$signalr-portConfigKey" = some "8080" := by decide
    obtain rfl : "8080" = port := Option.some.inj (hdefault.symm.trans hport)
    decide

theorem runnable_rdsSource (arn : String) : Runnable postgreSql none (some (.awsIamRole (.string arn))) := by
  intro name provider hprovider
  obtain ⟨rfl, rfl⟩ := lookup_singleton hprovider
  refine ⟨⟨?_, ?_, ?_⟩, by simp⟩
  · intro port hport
    obtain ⟨-, rfl⟩ := lookup_singleton hport
    decide
  · intro name endpoint hendpoint
    cases hendpoint
  · intro name endpoint port hendpoint
    cases hendpoint

/-- **A number is built.** The endpoint of the end-to-end tests is accepted and built beside the provider's own, and so is
a source with an inline role. -/
theorem number_target_builds :
    builtReaction (chatReaction "8080") = .ok true ∧
    builtSource (rdsSource (.string "arn:aws:iam::1:role/drasi")) = .ok true := by
  constructor
  · have hok : ((reactionService Unit compileTypes providers).prepare (chatReaction "8080")).toOption.isSome = true := by
      decide +kernel
    unfold builtReaction
    cases hprepare : (reactionService Unit compileTypes providers).prepare (chatReaction "8080") with
    | error e => simp [hprepare, Except.toOption] at hok
    | ok spec =>
      have hbuilt := ((accepted_builds_iff Unit compileTypes providers builderConfig (fun _ => "0") "drasi" "reaction1"
        signalR).2 (chatReaction "8080") spec rfl hprepare).2 runnable_chatReaction
      exact congrArg Except.ok hbuilt
  · have hok : ((sourceService Unit compileTypes providers).prepare
        (rdsSource (.string "arn:aws:iam::1:role/drasi"))).toOption.isSome = true := by decide +kernel
    unfold builtSource
    cases hprepare : (sourceService Unit compileTypes providers).prepare
        (rdsSource (.string "arn:aws:iam::1:role/drasi")) with
    | error e => simp [hprepare, Except.toOption] at hok
    | ok spec =>
      have hbuilt := ((accepted_builds_iff Unit compileTypes providers builderConfig (fun _ => "0") "drasi" "source1"
        postgreSql).1 (rdsSource (.string "arn:aws:iam::1:role/drasi")) spec rfl hprepare).2 (runnable_rdsSource _)
      exact congrArg Except.ok hbuilt

/-- **A reference is not.** A user who writes the target of an endpoint as the provider does is accepted, and the builder
unwraps the reference as a number; so is a target that is a name, and a role in a secret. -/
theorem reference_target_panics :
    builtReaction (chatReaction "$signalr-portConfigKey") = .ok false ∧
    builtReaction (chatReaction "http") = .ok false ∧
    builtSource (rdsSource (.secret "aws" "role")) = .ok false := by
  decide +kernel

end DrasiPlatform.MgmtApi
