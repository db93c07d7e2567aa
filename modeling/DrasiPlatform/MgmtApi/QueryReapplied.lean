/-
Reading a query from the management API and applying it again (`control-planes/mgmt_api/src/api/v1/models/query.rs`,
`mappings/query.rs`): the body of a PUT request is read into the types of the API and converted to the domain, a GET response
is written the other way.

The types of the API have defaults that the domain's do not have: no container is the container `default`, missing lists are
empty, a missing view is one that keeps the latest results. How the numbers of a middleware configuration are read from text
is the parameter `reread`, as in `MgmtApi.QuerySpecWire`.

- `into_ofSpec`: the mappings lose nothing but the transient flag.
- `decode_spec`: what is read of a GET response.
- `query_reapplied_iff`: for every body that a PUT request accepts, the GET response is accepted again and gives the same
  spec, exactly when the values of the middleware configurations are read as themselves.
Witness: `query_reapplied_defaults`.
-/
import Mathlib.Tactic
import DrasiPlatform.MgmtApi.QuerySpecWire

namespace DrasiPlatform.QuerySpecWire.Api

open Json Serde
open Domain (QueryLanguage QuerySourceLabel QuerySubscription QueryJoinKey QueryJoin SourceMiddlewareConfig QuerySources
  RetentionPolicy ViewSpec QuerySpec)
open ResourceProvider (serializeOption)

/-! ## Types of the API -/

inductive QueryLanguageDto where
  | cypher
  | gql

structure QuerySourceLabelDto where
  sourceLabel : String

structure QuerySubscriptionDto where
  id : String
  nodes : Option (List QuerySourceLabelDto)
  relations : Option (List QuerySourceLabelDto)
  pipeline : Option (List String)

structure QueryJoinKeyDto where
  label : String
  property : String

structure QueryJoinDto where
  id : String
  keys : List QueryJoinKeyDto

structure SourceMiddlewareConfigDto where
  kind : String
  name : String
  config : Map

structure QuerySourcesDto where
  subscriptions : List QuerySubscriptionDto
  joins : Option (List QueryJoinDto)
  middleware : Option (List SourceMiddlewareConfigDto)

inductive RetentionPolicyDto where
  | latest
  | expire (afterSeconds : UInt64)
  | all

structure ViewSpecDto where
  enabled : Bool
  retentionPolicy : RetentionPolicyDto

/-- `ViewSpecDto::default` -/
def ViewSpecDto.default : ViewSpecDto := ⟨true, .latest⟩

structure QuerySpecDto where
  container : String
  mode : String
  query : String
  queryLanguage : Option QueryLanguageDto
  sources : QuerySourcesDto
  storageProfile : Option String
  view : Option ViewSpecDto

def defaultContainer : String := "default"

/-! ## Requests -/

def QueryLanguageDto.decode : Decoder QueryLanguageDto := fun v => do
  match ← variant v with
  | ("Cypher", content) => (unit content).map fun _ => .cypher
  | ("GQL", content) => (unit content).map fun _ => .gql
  | (tag, _) => .error (.unknownVariant tag)

def QuerySourceLabelDto.decode : Decoder QuerySourceLabelDto := struct fun fields => do
  let sourceLabel ← required string "sourceLabel" fields
  return { sourceLabel }

def QuerySubscriptionDto.decode : Decoder QuerySubscriptionDto := struct fun fields => do
  let id ← required string "id" fields
  let nodes ← optional (list QuerySourceLabelDto.decode) "nodes" fields
  let relations ← optional (list QuerySourceLabelDto.decode) "relations" fields
  let pipeline ← optional (list string) "pipeline" fields
  return { id, nodes, relations, pipeline }

def QueryJoinKeyDto.decode : Decoder QueryJoinKeyDto := struct fun fields => do
  let label ← required string "label" fields
  let property ← required string "property" fields
  return { label, property }

def QueryJoinDto.decode : Decoder QueryJoinDto := struct fun fields => do
  let id ← required string "id" fields
  let keys ← required (list QueryJoinKeyDto.decode) "keys" fields
  return { id, keys }

def SourceMiddlewareConfigDto.decode (reread : Decoder Value) : Decoder SourceMiddlewareConfigDto := struct fun fields => do
  let kind ← required string "kind" fields
  let name ← required string "name" fields
  let config ← map reread (rest ["kind", "name"] fields)
  return { kind, name, config }

def QuerySourcesDto.decode (reread : Decoder Value) : Decoder QuerySourcesDto := struct fun fields => do
  let subscriptions ← required (list QuerySubscriptionDto.decode) "subscriptions" fields
  let joins ← optional (list QueryJoinDto.decode) "joins" fields
  let middleware ← optional (list (SourceMiddlewareConfigDto.decode reread)) "middleware" fields
  return { subscriptions, joins, middleware }

def RetentionPolicyDto.decode : Decoder RetentionPolicyDto := fun v => do
  match ← variant v with
  | ("latest", c) => (unit c).map fun _ => .latest
  | ("expire", c) => content (fun fields => (required u64 "afterSeconds" fields).map .expire) c
  | ("all", c) => (unit c).map fun _ => .all
  | (tag, _) => .error (.unknownVariant tag)

def ViewSpecDto.decode : Decoder ViewSpecDto := struct fun fields => do
  let enabled ← required bool "enabled" fields
  let retentionPolicy ← required RetentionPolicyDto.decode "retentionPolicy" fields
  return { enabled, retentionPolicy }

/-- `#[serde(default = "default_container")]` -/
def containerOrDefault (fields : Fields) : Except DecodeError String := do
  match ← field "container" fields with
  | none => .ok defaultContainer
  | some v => string v

def QuerySpecDto.decode (reread : Decoder Value) : Decoder QuerySpecDto := struct fun fields => do
  let container ← containerOrDefault fields
  let mode ← required string "mode" fields
  let query ← required string "query" fields
  let queryLanguage ← optional QueryLanguageDto.decode "queryLanguage" fields
  let sources ← required (QuerySourcesDto.decode reread) "sources" fields
  let storageProfile ← optional string "storageProfile" fields
  let view ← optional ViewSpecDto.decode "view" fields
  return { container, mode, query, queryLanguage, sources, storageProfile, view }

/-! ## Responses -/

def QueryLanguageDto.serialize : QueryLanguageDto → Value
  | .cypher => .string "Cypher"
  | .gql => .string "GQL"

def QuerySourceLabelDto.serialize (l : QuerySourceLabelDto) : Value := .object [("sourceLabel", .string l.sourceLabel)]

def serializeList {α : Type} (serialize : α → Value) (l : List α) : Value := .array (l.map serialize)

def QuerySubscriptionDto.serialize (s : QuerySubscriptionDto) : Value :=
  .object [("id", .string s.id), ("nodes", serializeOption (serializeList QuerySourceLabelDto.serialize) s.nodes),
    ("relations", serializeOption (serializeList QuerySourceLabelDto.serialize) s.relations),
    ("pipeline", serializeOption (serializeList Value.string) s.pipeline)]

def QueryJoinKeyDto.serialize (k : QueryJoinKeyDto) : Value :=
  .object [("label", .string k.label), ("property", .string k.property)]

def QueryJoinDto.serialize (j : QueryJoinDto) : Value :=
  .object [("id", .string j.id), ("keys", serializeList QueryJoinKeyDto.serialize j.keys)]

def SourceMiddlewareConfigDto.serialize (m : SourceMiddlewareConfigDto) : Value :=
  .object (("kind", .string m.kind) :: ("name", .string m.name) :: m.config.fields)

def QuerySourcesDto.serialize (s : QuerySourcesDto) : Value :=
  .object [("subscriptions", serializeList QuerySubscriptionDto.serialize s.subscriptions),
    ("joins", serializeOption (serializeList QueryJoinDto.serialize) s.joins),
    ("middleware", serializeOption (serializeList SourceMiddlewareConfigDto.serialize) s.middleware)]

def RetentionPolicyDto.serialize : RetentionPolicyDto → Value
  | .latest => .string "latest"
  | .expire afterSeconds => .object [("expire", .object [("afterSeconds", .number (.posInt afterSeconds))])]
  | .all => .string "all"

def ViewSpecDto.serialize (v : ViewSpecDto) : Value :=
  .object [("enabled", .bool v.enabled), ("retentionPolicy", v.retentionPolicy.serialize)]

def QuerySpecDto.serialize (s : QuerySpecDto) : Value :=
  .object [("container", .string s.container), ("mode", .string s.mode), ("query", .string s.query),
    ("queryLanguage", serializeOption QueryLanguageDto.serialize s.queryLanguage), ("sources", s.sources.serialize),
    ("storageProfile", serializeOption Value.string s.storageProfile), ("view", serializeOption ViewSpecDto.serialize s.view)]

/-! ## `mappings/query.rs` -/

def QueryLanguageDto.into : QueryLanguageDto → QueryLanguage
  | .cypher => .cypher
  | .gql => .gql

def QuerySourceLabelDto.into (l : QuerySourceLabelDto) : QuerySourceLabel := ⟨l.sourceLabel⟩

def QuerySubscriptionDto.into (s : QuerySubscriptionDto) : QuerySubscription where
  id := s.id
  nodes := (s.nodes.getD []).map QuerySourceLabelDto.into
  relations := (s.relations.getD []).map QuerySourceLabelDto.into
  pipeline := s.pipeline.getD []

def QueryJoinKeyDto.into (k : QueryJoinKeyDto) : QueryJoinKey := ⟨k.label, k.property⟩

def QueryJoinDto.into (j : QueryJoinDto) : QueryJoin := ⟨j.id, j.keys.map QueryJoinKeyDto.into⟩

def SourceMiddlewareConfigDto.into (m : SourceMiddlewareConfigDto) : SourceMiddlewareConfig := ⟨m.kind, m.name, m.config⟩

def QuerySourcesDto.into (s : QuerySourcesDto) : QuerySources where
  subscriptions := s.subscriptions.map QuerySubscriptionDto.into
  joins := (s.joins.getD []).map QueryJoinDto.into
  middleware := (s.middleware.getD []).map SourceMiddlewareConfigDto.into

def RetentionPolicyDto.into : RetentionPolicyDto → RetentionPolicy
  | .latest => .latest
  | .expire afterSeconds => .expire afterSeconds
  | .all => .all

def ViewSpecDto.into (v : ViewSpecDto) : ViewSpec := ⟨v.enabled, v.retentionPolicy.into⟩

def QuerySpecDto.into (s : QuerySpecDto) : QuerySpec where
  container := s.container
  mode := s.mode
  query := s.query
  queryLanguage := s.queryLanguage.map QueryLanguageDto.into
  sources := s.sources.into
  storageProfile := s.storageProfile
  view := (s.view.getD .default).into
  transient := none

/-! The way back, `From<QuerySpec> for QuerySpecDto` and its parts. -/

def QueryLanguageDto.ofSpec : QueryLanguage → QueryLanguageDto
  | .cypher => .cypher
  | .gql => .gql

def QuerySourceLabelDto.ofSpec (l : QuerySourceLabel) : QuerySourceLabelDto := ⟨l.sourceLabel⟩

def QuerySubscriptionDto.ofSpec (s : QuerySubscription) : QuerySubscriptionDto where
  id := s.id
  nodes := some (s.nodes.map QuerySourceLabelDto.ofSpec)
  relations := some (s.relations.map QuerySourceLabelDto.ofSpec)
  pipeline := some s.pipeline

def QueryJoinKeyDto.ofSpec (k : QueryJoinKey) : QueryJoinKeyDto := ⟨k.label, k.property⟩

def QueryJoinDto.ofSpec (j : QueryJoin) : QueryJoinDto := ⟨j.id, j.keys.map QueryJoinKeyDto.ofSpec⟩

def SourceMiddlewareConfigDto.ofSpec (m : SourceMiddlewareConfig) : SourceMiddlewareConfigDto := ⟨m.kind, m.name, m.config⟩

def QuerySourcesDto.ofSpec (s : QuerySources) : QuerySourcesDto where
  subscriptions := s.subscriptions.map QuerySubscriptionDto.ofSpec
  joins := some (s.joins.map QueryJoinDto.ofSpec)
  middleware := some (s.middleware.map SourceMiddlewareConfigDto.ofSpec)

def RetentionPolicyDto.ofSpec : RetentionPolicy → RetentionPolicyDto
  | .latest => .latest
  | .expire afterSeconds => .expire afterSeconds
  | .all => .all

def ViewSpecDto.ofSpec (v : ViewSpec) : ViewSpecDto := ⟨v.enabled, .ofSpec v.retentionPolicy⟩

def QuerySpecDto.ofSpec (s : QuerySpec) : QuerySpecDto where
  container := s.container
  mode := s.mode
  query := s.query
  queryLanguage := s.queryLanguage.map .ofSpec
  sources := .ofSpec s.sources
  storageProfile := s.storageProfile
  view := some (.ofSpec s.view)

/-! ## The mappings lose nothing -/

section Mappings

@[simp] theorem into_ofSpec_label (l : QuerySourceLabel) : (QuerySourceLabelDto.ofSpec l).into = l := rfl

@[simp] theorem into_ofSpec_subscription (s : QuerySubscription) : (QuerySubscriptionDto.ofSpec s).into = s := by
  simp [QuerySubscriptionDto.into, QuerySubscriptionDto.ofSpec, Function.comp_def]

@[simp] theorem into_ofSpec_join (j : QueryJoin) : (QueryJoinDto.ofSpec j).into = j := by
  have hkey : ∀ k, (QueryJoinKeyDto.ofSpec k).into = k := fun _ => rfl
  simp [QueryJoinDto.into, QueryJoinDto.ofSpec, Function.comp_def, hkey]

@[simp] theorem into_ofSpec_sources (s : QuerySources) : (QuerySourcesDto.ofSpec s).into = s := by
  have hmiddleware : ∀ m, (SourceMiddlewareConfigDto.ofSpec m).into = m := fun _ => rfl
  simp [QuerySourcesDto.into, QuerySourcesDto.ofSpec, Function.comp_def, hmiddleware]

@[simp] theorem into_ofSpec_view (v : ViewSpec) : (ViewSpecDto.ofSpec v).into = v := by
  obtain ⟨enabled, policy⟩ := v
  cases policy <;> rfl

@[simp] theorem into_ofSpec_language (l : QueryLanguage) : (QueryLanguageDto.ofSpec l).into = l := by
  cases l <;> rfl

/-- a spec that goes out and comes back is the same, less the transient flag -/
theorem into_ofSpec (s : QuerySpec) : (QuerySpecDto.ofSpec s).into = { s with transient := none } := by
  have hlanguage : (s.queryLanguage.map QueryLanguageDto.ofSpec).map QueryLanguageDto.into = s.queryLanguage := by
    cases s.queryLanguage with
    | none => rfl
    | some l => exact congrArg some (into_ofSpec_language l)
  simp only [QuerySpecDto.into, QuerySpecDto.ofSpec, hlanguage, into_ofSpec_sources, Option.getD_some, into_ofSpec_view]

end Mappings

/-! ## One type after the other -/

section Types

theorem decode_strings (l : List String) : decodeAll string (l.map Value.string) = .ok l := by
  simpa using (decodeAll_map string Value.string id l).2 fun s _ => rfl

theorem decode_subscription (s : QuerySubscription) :
    QuerySubscriptionDto.decode (QuerySubscriptionDto.ofSpec s).serialize = .ok (.ofSpec s) := by
  have hlabel : ∀ l, QuerySourceLabelDto.decode (QuerySourceLabelDto.serialize (.ofSpec l)) = .ok (.ofSpec l) := fun l => by
    simp [QuerySourceLabelDto.decode, QuerySourceLabelDto.serialize, required, field, valuesOf, string]
  have hlabels : ∀ l : List QuerySourceLabel, decodeAll QuerySourceLabelDto.decode
      ((l.map QuerySourceLabelDto.ofSpec).map QuerySourceLabelDto.serialize) = .ok (l.map .ofSpec) := fun l => by
    rw [List.map_map]
    exact (decodeAll_map _ _ _ l).2 fun x _ => hlabel x
  simp [QuerySubscriptionDto.decode, QuerySubscriptionDto.serialize, QuerySubscriptionDto.ofSpec, serializeOption,
    serializeList, required, Serde.optional, option, field, valuesOf, string, decode_strings, -List.map_map, hlabels,
    Except.map]

theorem decode_join (j : QueryJoin) : QueryJoinDto.decode (QueryJoinDto.ofSpec j).serialize = .ok (.ofSpec j) := by
  have hkey : ∀ k, QueryJoinKeyDto.decode (QueryJoinKeyDto.serialize (.ofSpec k)) = .ok (.ofSpec k) := fun k => by
    simp [QueryJoinKeyDto.decode, QueryJoinKeyDto.serialize, required, field, valuesOf, string]
  have hkeys : decodeAll QueryJoinKeyDto.decode ((j.keys.map QueryJoinKeyDto.ofSpec).map QueryJoinKeyDto.serialize) =
      .ok (j.keys.map .ofSpec) := by
    rw [List.map_map]
    exact (decodeAll_map _ _ _ _).2 fun k _ => hkey k
  simp [QueryJoinDto.decode, QueryJoinDto.serialize, QueryJoinDto.ofSpec, serializeList, required, field, valuesOf, string,
    -List.map_map, hkeys]

/-- the configuration is read as it is written by the query host -/
theorem decode_middleware_iff (reread : Decoder Value) (m : SourceMiddlewareConfig) :
    SourceMiddlewareConfigDto.decode reread (SourceMiddlewareConfigDto.ofSpec m).serialize = .ok (.ofSpec m) ↔
      m.Plain reread := by
  rw [SourceMiddlewareConfigDto.decode, SourceMiddlewareConfigDto.serialize, struct_object, bind_eq_ok,
    SourceMiddlewareConfigDto.ofSpec, SourceMiddlewareConfig.Plain, ← map_fields]
  refine ⟨?_, ?_⟩
  · rintro ⟨kind, hkind, h⟩
    obtain ⟨name, hname, h⟩ := bind_eq_ok.1 h
    obtain ⟨config, hconfig, h⟩ := bind_eq_ok.1 h
    obtain ⟨hfresh, -, -⟩ := (middleware_named _ _ _ _ _).1 ⟨hkind, hname⟩
    have hsame : config = m.config := congrArg SourceMiddlewareConfigDto.config (Except.ok.inj h)
    rw [rest_middleware hfresh, hsame] at hconfig
    exact ⟨hfresh, hconfig⟩
  · rintro ⟨hfresh, hconfig⟩
    obtain ⟨hkind, hname⟩ := (middleware_named m.kind m.name m.config _ _).2 ⟨hfresh, rfl, rfl⟩
    refine ⟨m.kind, hkind, bind_eq_ok.2 ⟨m.name, hname, bind_eq_ok.2 ⟨m.config, ?_, rfl⟩⟩⟩
    rw [rest_middleware hfresh]
    exact hconfig

theorem decode_view (v : ViewSpec) : ViewSpecDto.decode (ViewSpecDto.ofSpec v).serialize = .ok (.ofSpec v) := by
  have hpolicy : ∀ p, RetentionPolicyDto.decode (RetentionPolicyDto.serialize (.ofSpec p)) = .ok (.ofSpec p) := fun p => by
    cases p <;> rfl
  simp [ViewSpecDto.decode, ViewSpecDto.serialize, ViewSpecDto.ofSpec, required, field, valuesOf, Serde.bool, hpolicy]

/-- how the middleware configurations of a response are read -/
def readMiddleware (reread : Decoder Value) (s : QuerySpec) : Except DecodeError (List SourceMiddlewareConfigDto) :=
  decodeAll (SourceMiddlewareConfigDto.decode reread)
    (s.sources.middleware.map fun m => (SourceMiddlewareConfigDto.ofSpec m).serialize)

theorem readMiddleware_iff (reread : Decoder Value) (s : QuerySpec) :
    readMiddleware reread s = .ok (s.sources.middleware.map .ofSpec) ↔ ∀ m ∈ s.sources.middleware, m.Plain reread :=
  (decodeAll_map _ _ _ _).trans (forall₂_congr fun m _ => decode_middleware_iff reread m)

theorem decode_sources (reread : Decoder Value) (s : QuerySpec) :
    QuerySourcesDto.decode reread (QuerySourcesDto.ofSpec s.sources).serialize =
      (readMiddleware reread s).map fun ms => { QuerySourcesDto.ofSpec s.sources with middleware := some ms } := by
  have hsubscriptions : decodeAll QuerySubscriptionDto.decode
      ((s.sources.subscriptions.map QuerySubscriptionDto.ofSpec).map QuerySubscriptionDto.serialize) =
      .ok (s.sources.subscriptions.map .ofSpec) := by
    rw [List.map_map]
    exact (decodeAll_map _ _ _ _).2 fun x _ => decode_subscription x
  have hjoins : decodeAll QueryJoinDto.decode ((s.sources.joins.map QueryJoinDto.ofSpec).map QueryJoinDto.serialize) =
      .ok (s.sources.joins.map .ofSpec) := by
    rw [List.map_map]
    exact (decodeAll_map _ _ _ _).2 fun x _ => decode_join x
  have hmiddleware : decodeAll (SourceMiddlewareConfigDto.decode reread)
      ((s.sources.middleware.map SourceMiddlewareConfigDto.ofSpec).map SourceMiddlewareConfigDto.serialize) =
      readMiddleware reread s := by
    rw [List.map_map]
    rfl
  simp only [QuerySourcesDto.decode, QuerySourcesDto.serialize, QuerySourcesDto.ofSpec, serializeOption, serializeList,
    struct_object]
  cases hall : readMiddleware reread s <;>
    simp [serializeList, required, Serde.optional, option, field, valuesOf, hsubscriptions, hjoins, hmiddleware, hall,
      -List.map_map, Except.map]

/-- what is read of a response: what was written, with the middleware configurations as they are read -/
theorem decode_spec (reread : Decoder Value) (s : QuerySpec) :
    QuerySpecDto.decode reread (QuerySpecDto.ofSpec s).serialize = (readMiddleware reread s).map fun ms =>
      { QuerySpecDto.ofSpec s with sources := { QuerySourcesDto.ofSpec s.sources with middleware := some ms } } := by
  have hlanguage : option QueryLanguageDto.decode (serializeOption QueryLanguageDto.serialize (s.queryLanguage.map .ofSpec)) =
      .ok (s.queryLanguage.map .ofSpec) := by
    rcases s.queryLanguage with _ | l
    · rfl
    · cases l <;> rfl
  have hprofile : option string (serializeOption Value.string s.storageProfile) = .ok s.storageProfile := by
    cases s.storageProfile <;> rfl
  have hview : option ViewSpecDto.decode (serializeOption ViewSpecDto.serialize (some (.ofSpec s.view))) =
      .ok (some (.ofSpec s.view)) := congrArg (Except.map some) (decode_view s.view)
  have hsources := decode_sources reread s
  simp only [QuerySpecDto.decode, QuerySpecDto.serialize, QuerySpecDto.ofSpec, struct_object]
  cases hall : readMiddleware reread s with
  | error e =>
    rw [hall] at hsources
    simp [containerOrDefault, required, Serde.optional, field, valuesOf, string, hlanguage, hsources, Except.map]
  | ok ms =>
    rw [hall] at hsources
    simp [containerOrDefault, required, Serde.optional, field, valuesOf, string, hlanguage, hprofile, hview, hsources,
      Except.map]

/-- the entries of a document add no key of their own -/
theorem keys_ofFields {fields : Fields} {key : String} (h : key ∈ (Map.ofFields fields).fields.map Prod.fst) :
    key ∈ fields.map Prod.fst := by
  have hfold : ∀ (fields : Fields) (m : Map), key ∈ (fields.foldl (fun m f => m.insert f.1 f.2) m).fields.map Prod.fst →
      key ∈ m.fields.map Prod.fst ∨ key ∈ fields.map Prod.fst := by
    intro fields
    induction fields with
    | nil => exact fun m h => .inl h
    | cons f fields ih =>
      intro m h
      rcases ih _ h with h | h
      · change key ∈ (Value.setField f.1 f.2 m.fields).map Prod.fst at h
        rw [Value.keys_setField] at h
        split_ifs at h
        · exact .inl h
        · rcases List.mem_append.1 h with h | h
          · exact .inl h
          · exact .inr (List.mem_singleton.1 h ▸ List.mem_cons_self)
      · exact .inr (List.mem_cons_of_mem _ h)
  exact (hfold fields Map.empty h).resolve_left List.not_mem_nil

/-! A value that is read out of a document has been read from a part of it. -/

theorem exists_of_struct {α : Type} {decode : Fields → Except DecodeError α} {v : Value} {x : α}
    (h : struct decode v = .ok x) : ∃ fields, decode fields = .ok x := by
  cases v with
  | object fields => exact ⟨fields, h⟩
  | _ => cases h

theorem exists_of_required {α : Type} {decode : Decoder α} {name : String} {fields : Fields} {x : α}
    (h : required decode name fields = .ok x) : ∃ v, decode v = .ok x := by
  obtain ⟨value, -, h⟩ := bind_eq_ok.1 h
  cases value with
  | none => cases h
  | some v => exact ⟨v, h⟩

theorem exists_of_optional {α : Type} {decode : Decoder α} {name : String} {fields : Fields} {x : α}
    (h : Serde.optional decode name fields = .ok (some x)) : ∃ v, decode v = .ok x := by
  obtain ⟨value, -, h⟩ := bind_eq_ok.1 h
  cases value with
  | none => cases h
  | some v =>
    simp only [option] at h
    split at h
    · cases h
    · refine ⟨v, ?_⟩
      cases hv : decode v with
      | error e =>
        rw [hv] at h
        cases h
      | ok y =>
        rw [hv] at h
        rw [Option.some.inj (Except.ok.inj h)]

theorem exists_of_list {α : Type} {decode : Decoder α} {v : Value} {xs : List α} (h : list decode v = .ok xs) {x : α}
    (hx : x ∈ xs) : ∃ v, decode v = .ok x := by
  cases v with
  | array a =>
    have hall := decodeAll_eq_ok.1 h
    induction hall with
    | nil => exact absurd hx List.not_mem_nil
    | cons hv hmore ih =>
      rcases List.mem_cons.1 hx with rfl | hx
      · exact ⟨_, hv⟩
      · exact ih hx (decodeAll_eq_ok.2 hmore)
  | _ => cases h

/-- what is read into a configuration names neither field of the struct around it -/
theorem fresh_of_decode {reread : Decoder Value} {v : Value} {m : SourceMiddlewareConfigDto}
    (h : SourceMiddlewareConfigDto.decode reread v = .ok m) :
    ∀ name ∈ ["kind", "name"], name ∉ m.config.fields.map Prod.fst := by
  obtain ⟨fields, h⟩ := exists_of_struct h
  obtain ⟨kind, -, h⟩ := bind_eq_ok.1 h
  obtain ⟨name, -, h⟩ := bind_eq_ok.1 h
  obtain ⟨config, hconfig, h⟩ := bind_eq_ok.1 h
  obtain ⟨entries, hentries, hmap⟩ := bind_eq_ok.1 hconfig
  obtain rfl := Except.ok.inj h
  obtain rfl := Except.ok.inj hmap
  intro key hkey hmem
  have hrest := keys_ofFields hmem
  rw [keys_of_decodeAll (decodeAll_eq_ok.1 hentries)] at hrest
  obtain ⟨f, hf, rfl⟩ := List.mem_map.1 hrest
  exact (of_decide_eq_true (List.mem_filter.1 hf).2) hkey

/-- so is every configuration of a body -/
theorem fresh_of_body {reread : Decoder Value} {v : Value} {dto : QuerySpecDto} (h : QuerySpecDto.decode reread v = .ok dto) :
    ∀ m ∈ dto.into.sources.middleware, ∀ name ∈ ["kind", "name"], name ∉ m.config.fields.map Prod.fst := by
  obtain ⟨fields, h⟩ := exists_of_struct h
  obtain ⟨container, -, h⟩ := bind_eq_ok.1 h
  obtain ⟨mode, -, h⟩ := bind_eq_ok.1 h
  obtain ⟨query, -, h⟩ := bind_eq_ok.1 h
  obtain ⟨language, -, h⟩ := bind_eq_ok.1 h
  obtain ⟨sources, hsources, h⟩ := bind_eq_ok.1 h
  obtain ⟨profile, -, h⟩ := bind_eq_ok.1 h
  obtain ⟨view, -, h⟩ := bind_eq_ok.1 h
  obtain rfl := Except.ok.inj h
  obtain ⟨v, hsources⟩ := exists_of_required hsources
  obtain ⟨fields, hsources⟩ := exists_of_struct hsources
  obtain ⟨subscriptions, -, hsources⟩ := bind_eq_ok.1 hsources
  obtain ⟨joins, -, hsources⟩ := bind_eq_ok.1 hsources
  obtain ⟨middleware, hmiddleware, hsources⟩ := bind_eq_ok.1 hsources
  obtain rfl := Except.ok.inj hsources
  cases middleware with
  | none => exact fun m hm => absurd hm List.not_mem_nil
  | some configs =>
    obtain ⟨v, hlist⟩ := exists_of_optional hmiddleware
    intro m hm
    obtain ⟨dto, hdto, rfl⟩ := List.mem_map.1 hm
    obtain ⟨v, hread⟩ := exists_of_list hlist hdto
    exact fresh_of_decode hread

end Types

/-! ## Applied again -/

/-- GET, and PUT of what it has said -/
def reapply (reread : Decoder Value) (s : QuerySpec) : Except DecodeError QuerySpec :=
  (QuerySpecDto.decode reread (QuerySpecDto.ofSpec s).serialize).map QuerySpecDto.into

/-- **A query that is read and applied again.** For every body that a PUT request accepts: the GET response of the spec that
it stores is accepted as a body again, and gives the same spec, exactly when the values of its middleware configurations are
read from their text as themselves. -/
theorem query_reapplied_iff (reread : Decoder Value) {body : Value} {dto : QuerySpecDto}
    (h : QuerySpecDto.decode reread body = .ok dto) :
    reapply reread dto.into = .ok dto.into ↔
      ∀ m ∈ dto.into.sources.middleware, ∀ f ∈ m.config.fields, reread f.2 = .ok f.2 := by
  have hplain : (∀ m ∈ dto.into.sources.middleware, m.Plain reread) ↔
      ∀ m ∈ dto.into.sources.middleware, ∀ f ∈ m.config.fields, reread f.2 = .ok f.2 :=
    forall₂_congr fun m hm => and_iff_right (fresh_of_body h m hm)
  rw [← hplain, ← readMiddleware_iff, reapply, decode_spec]
  cases readMiddleware reread dto.into with
  | error e => exact iff_of_false (fun h => by cases h) (fun h => by cases h)
  | ok ms =>
    rw [Except.map, Except.map, Except.ok.injEq, Except.ok.injEq]
    refine ⟨fun heq => ?_, fun heq => ?_⟩
    · have hread : ms.map SourceMiddlewareConfigDto.into = dto.into.sources.middleware :=
        congrArg (fun s => s.sources.middleware) heq
      have hback : ∀ m, SourceMiddlewareConfigDto.ofSpec (SourceMiddlewareConfigDto.into m) = m := fun _ => rfl
      rw [← hread, List.map_map, Function.comp_def]
      simp [hback]
    · rw [heq]
      exact into_ofSpec dto.into

/-- a body that leaves out all it can -/
def shortBody : Value :=
  .object [("mode", .string "query"), ("query", .string "MATCH (p:Person) RETURN p.name"),
    ("sources", .object [("subscriptions", .array [.object [("id", .string "people")]]),
      ("middleware", .array [.object [("kind", .string "unwind"), ("name", .string "split"), ("Person", .array [])]])])]

theorem query_reapplied_defaults :
    ∃ dto, QuerySpecDto.decode .ok shortBody = .ok dto ∧ dto.into.container = "default" ∧ dto.into.view = ⟨true, .latest⟩ ∧
      reapply .ok dto.into = .ok dto.into := by
  have hread : QuerySpecDto.decode .ok shortBody = .ok ⟨"default", "query", "MATCH (p:Person) RETURN p.name", none,
    ⟨[⟨"people", none, none, none⟩], none, some [⟨"unwind", "split", .ofFields [("Person", .array [])]⟩]⟩, none, none⟩ := rfl
  exact ⟨_, hread, rfl, rfl, (query_reapplied_iff .ok hread).2 fun _ _ _ _ => rfl⟩

end DrasiPlatform.QuerySpecWire.Api
