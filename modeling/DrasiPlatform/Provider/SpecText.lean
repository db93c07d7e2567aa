/-
The text that `calc_hash` hashes (`control-planes/kubernetes_provider/src/spec_builder/reaction.rs`): the derived
serialisation of a reaction's specification (`control-planes/resource_provider_api/src/models.rs`), printed by
`serde_json::to_vec`.

A `HashMap` is written in the order in which it is walked. What the hasher makes of the text is a parameter.

- `ReactionSpec.json_injective`: two specifications have one document only when they are the same and all their maps are
  walked in the same order.
- `ReactionSpec.text_eq_iff`: nor have they one text otherwise.
-/
import Mathlib.Tactic
import DrasiPlatform.Core.JsonText
import DrasiPlatform.Provider.SpecBuilder

namespace DrasiPlatform.Provider

open Json JsonText

/-! ## Documents -/

/-- a map, in the order of its walk -/
def jsonMap {V : Type} (json : V → Value) (m : StrMap V) : Value := .object (m.entries.map fun e => (e.1, json e.2))

def ConfigValue.json : ConfigValue → Value
  | .inline value => .object [("kind", .string "Inline"), ("value", .string value)]
  | .secret name key => .object [("kind", .string "Secret"), ("name", .string name), ("key", .string key)]

def EndpointSetting.json : EndpointSetting → Value
  | .internal => .string "Internal"
  | .external => .string "External"

def Endpoint.json (endpoint : Endpoint) : Value :=
  .object [("setting", endpoint.setting.json), ("target", .string endpoint.target)]

def Service.json (service : Service) : Value :=
  .object [("replica", optionJson .string service.replica), ("image", .string service.image),
    ("external_image", optionJson .bool service.externalImage),
    ("endpoints", optionJson (jsonMap Endpoint.json) service.endpoints),
    ("dapr", optionJson (jsonMap ConfigValue.json) service.dapr),
    ("properties", optionJson (jsonMap ConfigValue.json) service.properties)]

def ServiceIdentity.json : ServiceIdentity → Value
  | .microsoftEntraWorkloadID clientId =>
    .object [("kind", .string "MicrosoftEntraWorkloadID"), ("clientId", .string clientId)]
  | .microsoftEntraApplication tenantId clientId secret certificate =>
    .object [("kind", .string "MicrosoftEntraApplication"), ("tenantId", tenantId.json), ("clientId", clientId.json),
      ("secret", optionJson ConfigValue.json secret), ("certificate", optionJson ConfigValue.json certificate)]
  | .connectionString value => .object [("kind", .string "ConnectionString"), ("connectionString", value.json)]
  | .accessKey value => .object [("kind", .string "AccessKey"), ("accessKey", value.json)]
  | .awsIamRole roleArn => .object [("kind", .string "AwsIamRole"), ("roleArn", roleArn.json)]
  | .awsIamAccessKey accessKeyId secretAccessKey awsRegion =>
    .object [("kind", .string "AwsIamAccessKey"), ("accessKeyId", accessKeyId.json),
      ("secretAccessKey", secretAccessKey.json), ("region", awsRegion.json)]

namespace ReactionSpec

def json (reaction : ReactionSpec) : Value :=
  .object [("kind", .string reaction.kind), ("tag", optionJson .string reaction.tag),
    ("services", optionJson (jsonMap Service.json) reaction.services),
    ("properties", optionJson (jsonMap ConfigValue.json) reaction.properties),
    ("queries", jsonMap .string reaction.queries), ("identity", optionJson ServiceIdentity.json reaction.identity)]

/-- `serde_json::to_vec`; there is no floating point number in it -/
def text (reaction : ReactionSpec) : String := String.ofList (print (fun _ => []) reaction.json)

/-- `calc_hash`: the hexadecimal digits of the hash of the text -/
def calcHash (digest : String → String) (reaction : ReactionSpec) : String := digest reaction.text

end ReactionSpec

/-! ## A document tells what it is of -/

theorem jsonMap_injective {V : Type} {json : V → Value} (hjson : Function.Injective json) :
    Function.Injective (jsonMap json) := by
  intro m m' h
  have hpair : Function.Injective fun e : Σ _ : String, V => (e.1, json e.2) := by
    rintro ⟨key, value⟩ ⟨key', value'⟩ heq
    obtain ⟨hkey, hvalue⟩ := Prod.mk.inj heq
    obtain rfl : key = key' := hkey
    obtain rfl : value = value' := hjson hvalue
    rfl
  exact AList.ext (hpair.list_map (Value.object.inj h))

theorem string_injective : Function.Injective Value.string := fun _ _ h => Value.string.inj h

theorem ConfigValue.json_injective : Function.Injective ConfigValue.json := by
  intro a b h
  cases a <;> cases b <;> simp_all [ConfigValue.json]

theorem EndpointSetting.json_injective : Function.Injective EndpointSetting.json := by
  intro a b h
  cases a <;> cases b <;> simp_all [EndpointSetting.json]

theorem Endpoint.json_injective : Function.Injective Endpoint.json := by
  rintro ⟨setting, target⟩ ⟨setting', target'⟩ h
  simp only [Endpoint.json, Value.object.injEq, List.cons.injEq, Prod.mk.injEq, Value.string.injEq, true_and, and_true] at h
  rw [EndpointSetting.json_injective h.1, h.2]

theorem configValues_injective : Function.Injective (optionJson (jsonMap ConfigValue.json)) :=
  optionJson_injective (jsonMap_injective ConfigValue.json_injective) fun _ h => by cases h

theorem Service.json_injective : Function.Injective Service.json := by
  rintro ⟨replica, image, externalImage, endpoints, dapr, properties⟩
    ⟨replica', image', externalImage', endpoints', dapr', properties'⟩ h
  simp only [Service.json, Value.object.injEq, List.cons.injEq, Prod.mk.injEq, Value.string.injEq, true_and, and_true] at h
  obtain ⟨hreplica, himage, hexternal, hendpoints, hdapr, hproperties⟩ := h
  have hbool : Function.Injective Value.bool := fun _ _ h => Value.bool.inj h
  rw [optionJson_injective string_injective (fun _ h => by cases h) hreplica, himage,
    optionJson_injective hbool (fun _ h => by cases h) hexternal,
    optionJson_injective (jsonMap_injective Endpoint.json_injective) (fun _ h => by cases h) hendpoints,
    configValues_injective hdapr, configValues_injective hproperties]

theorem ServiceIdentity.json_injective : Function.Injective ServiceIdentity.json := by
  have hvalue := ConfigValue.json_injective
  have hoption : Function.Injective (optionJson ConfigValue.json) :=
    optionJson_injective hvalue fun a h => by cases a <;> cases h
  intro a b h
  cases a <;> cases b <;> simp_all [ServiceIdentity.json, hvalue.eq_iff, hoption.eq_iff]

theorem ReactionSpec.json_injective : Function.Injective ReactionSpec.json := by
  rintro ⟨kind, tag, services, properties, queries, identity⟩ ⟨kind', tag', services', properties', queries', identity'⟩ h
  simp only [ReactionSpec.json, Value.object.injEq, List.cons.injEq, Prod.mk.injEq, Value.string.injEq, true_and,
    and_true] at h
  obtain ⟨hkind, htag, hservices, hproperties, hqueries, hidentity⟩ := h
  rw [hkind, optionJson_injective string_injective (fun _ h => by cases h) htag,
    optionJson_injective (jsonMap_injective Service.json_injective) (fun _ h => by cases h) hservices,
    configValues_injective hproperties, jsonMap_injective string_injective hqueries,
    optionJson_injective ServiceIdentity.json_injective (fun a h => by cases a <;> cases h) hidentity]

/-! ## A text tells what it is of -/

theorem plain_jsonMap {V : Type} {json : V → Value} (hjson : ∀ v, Plain (json v)) (m : StrMap V) :
    Plain (jsonMap json m) := by
  refine .object _ fun f hf => ?_
  obtain ⟨e, -, rfl⟩ := List.mem_map.1 hf
  exact hjson e.2

theorem ConfigValue.plain_json (value : ConfigValue) : Plain value.json := by
  cases value with
  | inline value => exact .object _ (by simp [Plain.string])
  | secret name key => exact .object _ (by simp [Plain.string])

theorem Endpoint.plain_json (endpoint : Endpoint) : Plain endpoint.json := by
  have hsetting : Plain endpoint.setting.json := by cases endpoint.setting <;> exact .string _
  exact .object _ (by simp [Plain.string, hsetting])

theorem Service.plain_json (service : Service) : Plain service.json :=
  .object _ (by simp [Plain.string, Plain.bool, plain_optionJson, plain_jsonMap, Endpoint.plain_json,
    ConfigValue.plain_json])

theorem ServiceIdentity.plain_json (identity : ServiceIdentity) : Plain identity.json := by
  cases identity <;> exact .object _ (by simp [Plain.string, plain_optionJson, ConfigValue.plain_json])

theorem ReactionSpec.plain_json (reaction : ReactionSpec) : Plain reaction.json :=
  .object _ (by simp [Plain.string, plain_optionJson, plain_jsonMap, Service.plain_json, ConfigValue.plain_json,
    ServiceIdentity.plain_json])

/-- **The hashed text tells the order of the maps.** -/
theorem ReactionSpec.text_eq_iff (reaction reaction' : ReactionSpec) : reaction.text = reaction'.text ↔ reaction = reaction' := by
  constructor
  · intro h
    have hparse := parse_print (fun _ => []) reaction.plain_json
    rw [show String.ofList (print (fun _ => []) reaction.json) = reaction'.text from h, ReactionSpec.text,
      parse_print (fun _ => []) reaction'.plain_json] at hparse
    exact (ReactionSpec.json_injective (Option.some.inj hparse)).symm
  · exact fun h => congrArg ReactionSpec.text h

end DrasiPlatform.Provider
