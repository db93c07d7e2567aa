/-
The way of a query spec from the management API to the query host (`From<QuerySpec>` in
`control-planes/mgmt_api/src/domain/mappings.rs`, the derived `Serialize` of
`control-planes/resource_provider_api/src/models.rs`, the derived `Deserialize` of `query-container/query-host/src/api.rs`).

Three families of types are declared apart from each other: the domain's, the resource provider's and the host's. The
management API converts the first to the second and sends it as JSON; the host reads the third. How `serde_json` reads
back the text of a raw value is the parameter `reread`: its floats are parsed without `float_roundtrip`, and it bounds the
depth of what it reads.

- `decode_serialize_iff`: the host's spec carries every value of the domain's exactly when the domain's sets no transient
  flag, no middleware configuration has a key that the struct around it names, and its values are read back as themselves.
- `debug_loses_transient`: whatever the spec of a debug query, the host reads it without the flag that `debug` sets.
Witness: `transient_lost`.
-/
import Mathlib.Tactic
import DrasiPlatform.Core.Serde

namespace DrasiPlatform.QuerySpecWire

open Json Serde

/-! ## The domain's types -/

namespace Domain

structure QuerySourceLabel where
  sourceLabel : String

structure QuerySubscription where
  id : String
  nodes : List QuerySourceLabel
  relations : List QuerySourceLabel
  pipeline : List String

structure QueryJoinKey where
  label : String
  property : String

structure QueryJoin where
  id : String
  keys : List QueryJoinKey

inductive QueryLanguage where
  | cypher
  | gql

structure SourceMiddlewareConfig where
  kind : String
  name : String
  config : Map

structure QuerySources where
  subscriptions : List QuerySubscription
  joins : List QueryJoin
  middleware : List SourceMiddlewareConfig

inductive RetentionPolicy where
  | latest
  | expire (afterSeconds : UInt64)
  | all

structure ViewSpec where
  enabled : Bool
  retentionPolicy : RetentionPolicy

structure QuerySpec where
  container : String
  mode : String
  query : String
  queryLanguage : Option QueryLanguage
  sources : QuerySources
  storageProfile : Option String
  view : ViewSpec
  transient : Option Bool

/-- what `DebugService::debug` makes of the spec before it configures the query -/
def debug (spec : QuerySpec) : QuerySpec := { spec with transient := some true }

end Domain

/-! ## The resource provider's types, and how they are serialised -/

namespace ResourceProvider

structure QuerySourceLabel where
  sourceLabel : String

def QuerySourceLabel.serialize (l : QuerySourceLabel) : Value := .object [("sourceLabel", .string l.sourceLabel)]

structure QuerySubscription where
  id : String
  nodes : List QuerySourceLabel
  relations : List QuerySourceLabel
  pipeline : List String

def QuerySubscription.serialize (s : QuerySubscription) : Value :=
  .object [("id", .string s.id), ("nodes", .array (s.nodes.map QuerySourceLabel.serialize)),
    ("relations", .array (s.relations.map QuerySourceLabel.serialize)), ("pipeline", .array (s.pipeline.map Value.string))]

structure QueryJoinKey where
  label : String
  property : String

def QueryJoinKey.serialize (k : QueryJoinKey) : Value :=
  .object [("label", .string k.label), ("property", .string k.property)]

structure QueryJoin where
  id : String
  keys : List QueryJoinKey

def QueryJoin.serialize (j : QueryJoin) : Value :=
  .object [("id", .string j.id), ("keys", .array (j.keys.map QueryJoinKey.serialize))]

inductive QueryLanguage where
  | cypher
  | gql

def QueryLanguage.serialize : QueryLanguage → Value
  | .cypher => .string "Cypher"
  | .gql => .string "GQL"

structure SourceMiddlewareConfig where
  kind : String
  name : String
  config : Map

/-- `config` is flattened -/
def SourceMiddlewareConfig.serialize (m : SourceMiddlewareConfig) : Value :=
  .object (("kind", .string m.kind) :: ("name", .string m.name) :: m.config.fields)

structure QuerySources where
  subscriptions : List QuerySubscription
  joins : List QueryJoin
  middleware : List SourceMiddlewareConfig

def QuerySources.serialize (s : QuerySources) : Value :=
  .object [("subscriptions", .array (s.subscriptions.map QuerySubscription.serialize)),
    ("joins", .array (s.joins.map QueryJoin.serialize)),
    ("middleware", .array (s.middleware.map SourceMiddlewareConfig.serialize))]

inductive RetentionPolicy where
  | latest
  | expire (afterSeconds : UInt64)
  | all

def RetentionPolicy.serialize : RetentionPolicy → Value
  | .latest => .string "latest"
  | .expire afterSeconds => .object [("expire", .object [("afterSeconds", .number (.posInt afterSeconds))])]
  | .all => .string "all"

structure ViewSpec where
  enabled : Bool
  retentionPolicy : RetentionPolicy

def ViewSpec.serialize (v : ViewSpec) : Value :=
  .object [("enabled", .bool v.enabled), ("retentionPolicy", v.retentionPolicy.serialize)]

structure QuerySpec where
  mode : String
  query : String
  queryLanguage : Option QueryLanguage
  sources : QuerySources
  storageProfile : Option String
  view : ViewSpec

/-- an absent option is written as `null` -/
def serializeOption {α : Type} (serialize : α → Value) (x : Option α) : Value := (x.map serialize).getD .null

def QuerySpec.serialize (s : QuerySpec) : Value :=
  .object [("mode", .string s.mode), ("query", .string s.query),
    ("queryLanguage", serializeOption QueryLanguage.serialize s.queryLanguage), ("sources", s.sources.serialize),
    ("storageProfile", serializeOption Value.string s.storageProfile), ("view", s.view.serialize)]

end ResourceProvider

/-! ## `mappings.rs` -/

namespace Domain

def QuerySourceLabel.into (l : QuerySourceLabel) : ResourceProvider.QuerySourceLabel where
  sourceLabel := l.sourceLabel

def QuerySubscription.into (s : QuerySubscription) : ResourceProvider.QuerySubscription where
  id := s.id
  nodes := s.nodes.map QuerySourceLabel.into
  relations := s.relations.map QuerySourceLabel.into
  pipeline := s.pipeline

def QueryJoinKey.into (k : QueryJoinKey) : ResourceProvider.QueryJoinKey where
  label := k.label
  property := k.property

def QueryJoin.into (j : QueryJoin) : ResourceProvider.QueryJoin where
  id := j.id
  keys := j.keys.map QueryJoinKey.into

def SourceMiddlewareConfig.into (m : SourceMiddlewareConfig) : ResourceProvider.SourceMiddlewareConfig where
  kind := m.kind
  name := m.name
  config := m.config

def QuerySources.into (s : QuerySources) : ResourceProvider.QuerySources where
  subscriptions := s.subscriptions.map QuerySubscription.into
  joins := s.joins.map QueryJoin.into
  middleware := s.middleware.map SourceMiddlewareConfig.into

def QueryLanguage.into : QueryLanguage → ResourceProvider.QueryLanguage
  | .cypher => .cypher
  | .gql => .gql

def RetentionPolicy.into : RetentionPolicy → ResourceProvider.RetentionPolicy
  | .latest => .latest
  | .expire afterSeconds => .expire afterSeconds
  | .all => .all

def ViewSpec.into (v : ViewSpec) : ResourceProvider.ViewSpec where
  enabled := v.enabled
  retentionPolicy := v.retentionPolicy.into

/-- the resource provider's type has no field for `transient` -/
def QuerySpec.into (s : QuerySpec) : ResourceProvider.QuerySpec where
  mode := s.mode
  query := s.query
  queryLanguage := s.queryLanguage.map QueryLanguage.into
  sources := s.sources.into
  storageProfile := s.storageProfile
  view := s.view.into

end Domain

/-! ## The host's types, and how they are deserialised -/

namespace Host

structure QuerySourceLabel where
  sourceLabel : String

def QuerySourceLabel.decode : Decoder QuerySourceLabel := struct fun fields => do
  let sourceLabel ← required string "sourceLabel" fields
  return { sourceLabel }

structure QuerySubscription where
  id : String
  nodes : List QuerySourceLabel
  relations : List QuerySourceLabel
  pipeline : List String

def QuerySubscription.decode : Decoder QuerySubscription := struct fun fields => do
  let id ← required string "id" fields
  let nodes ← defaulted (list QuerySourceLabel.decode) "nodes" fields
  let relations ← defaulted (list QuerySourceLabel.decode) "relations" fields
  let pipeline ← defaulted (list string) "pipeline" fields
  return { id, nodes, relations, pipeline }

structure QueryJoinKey where
  label : String
  property : String

def QueryJoinKey.decode : Decoder QueryJoinKey := struct fun fields => do
  let label ← required string "label" fields
  let property ← required string "property" fields
  return { label, property }

structure QueryJoin where
  id : String
  keys : List QueryJoinKey

def QueryJoin.decode : Decoder QueryJoin := struct fun fields => do
  let id ← required string "id" fields
  let keys ← required (list QueryJoinKey.decode) "keys" fields
  return { id, keys }

inductive QueryLanguage where
  | cypher
  | gql

def QueryLanguage.decode : Decoder QueryLanguage := fun v => do
  match ← variant v with
  | ("Cypher", content) => (unit content).map fun _ => .cypher
  | ("GQL", content) => (unit content).map fun _ => .gql
  | (tag, _) => .error (.unknownVariant tag)

structure SourceMiddlewareConfig where
  kind : String
  name : String
  config : Map

/-- `config` takes the fields that are not `kind` and `name` -/
def SourceMiddlewareConfig.decode (reread : Decoder Value) : Decoder SourceMiddlewareConfig := struct fun fields => do
  let kind ← required string "kind" fields
  let name ← required string "name" fields
  let config ← map reread (rest ["kind", "name"] fields)
  return { kind, name, config }

structure QuerySources where
  subscriptions : List QuerySubscription
  joins : List QueryJoin
  middleware : List SourceMiddlewareConfig

def QuerySources.decode (reread : Decoder Value) : Decoder QuerySources := struct fun fields => do
  let subscriptions ← required (list QuerySubscription.decode) "subscriptions" fields
  let joins ← required (list QueryJoin.decode) "joins" fields
  let middleware ← defaulted (list (SourceMiddlewareConfig.decode reread)) "middleware" fields
  return { subscriptions, joins, middleware }

inductive RetentionPolicy where
  | latest
  | expire (afterSeconds : UInt64)
  | all

def RetentionPolicy.decode : Decoder RetentionPolicy := fun v => do
  match ← variant v with
  | ("latest", c) => (unit c).map fun _ => .latest
  | ("expire", c) => content (fun fields => (required u64 "afterSeconds" fields).map .expire) c
  | ("all", c) => (unit c).map fun _ => .all
  | (tag, _) => .error (.unknownVariant tag)

structure ViewSpec where
  enabled : Bool
  retentionPolicy : RetentionPolicy

def ViewSpec.decode : Decoder ViewSpec := struct fun fields => do
  let enabled ← required bool "enabled" fields
  let retentionPolicy ← required RetentionPolicy.decode "retentionPolicy" fields
  return { enabled, retentionPolicy }

structure QuerySpec where
  mode : String
  query : String
  queryLanguage : Option QueryLanguage
  sources : QuerySources
  storageProfile : Option String
  view : ViewSpec
  transient : Option Bool

def QuerySpec.decode (reread : Decoder Value) : Decoder QuerySpec := struct fun fields => do
  let mode ← required string "mode" fields
  let query ← required string "query" fields
  let queryLanguage ← optional QueryLanguage.decode "queryLanguage" fields
  let sources ← required (QuerySources.decode reread) "sources" fields
  let storageProfile ← optional string "storageProfile" fields
  let view ← required ViewSpec.decode "view" fields
  let transient ← optional bool "transient" fields
  return { mode, query, queryLanguage, sources, storageProfile, view, transient }

end Host

/-! ## The promise -/

namespace Domain

/-! The host's values that carry the domain's: each field has the value of the field of its name. -/

def QuerySourceLabel.carried (l : QuerySourceLabel) : Host.QuerySourceLabel := ⟨l.sourceLabel⟩

def QuerySubscription.carried (s : QuerySubscription) : Host.QuerySubscription where
  id := s.id
  nodes := s.nodes.map QuerySourceLabel.carried
  relations := s.relations.map QuerySourceLabel.carried
  pipeline := s.pipeline

def QueryJoinKey.carried (k : QueryJoinKey) : Host.QueryJoinKey := ⟨k.label, k.property⟩

def QueryJoin.carried (j : QueryJoin) : Host.QueryJoin := ⟨j.id, j.keys.map QueryJoinKey.carried⟩

def SourceMiddlewareConfig.carried (m : SourceMiddlewareConfig) : Host.SourceMiddlewareConfig := ⟨m.kind, m.name, m.config⟩

def QuerySources.carried (s : QuerySources) : Host.QuerySources where
  subscriptions := s.subscriptions.map QuerySubscription.carried
  joins := s.joins.map QueryJoin.carried
  middleware := s.middleware.map SourceMiddlewareConfig.carried

def QueryLanguage.carried : QueryLanguage → Host.QueryLanguage
  | .cypher => .cypher
  | .gql => .gql

def RetentionPolicy.carried : RetentionPolicy → Host.RetentionPolicy
  | .latest => .latest
  | .expire afterSeconds => .expire afterSeconds
  | .all => .all

def ViewSpec.carried (v : ViewSpec) : Host.ViewSpec := ⟨v.enabled, v.retentionPolicy.carried⟩

def QuerySpec.carried (s : QuerySpec) : Host.QuerySpec where
  mode := s.mode
  query := s.query
  queryLanguage := s.queryLanguage.map QueryLanguage.carried
  sources := s.sources.carried
  storageProfile := s.storageProfile
  view := s.view.carried
  transient := s.transient

/-- the configuration names neither field of the struct around it, and its values are read back as themselves -/
def SourceMiddlewareConfig.Plain (reread : Decoder Value) (m : SourceMiddlewareConfig) : Prop :=
  (∀ name ∈ ["kind", "name"], name ∉ m.config.fields.map Prod.fst) ∧ ∀ f ∈ m.config.fields, reread f.2 = .ok f.2

end Domain

/-! ## One type after the other -/

section Types

open Domain

theorem decode_sourceLabel (l : QuerySourceLabel) : Host.QuerySourceLabel.decode l.into.serialize = .ok l.carried := by
  simp [Host.QuerySourceLabel.decode, ResourceProvider.QuerySourceLabel.serialize, QuerySourceLabel.into,
    required, field, valuesOf, string, QuerySourceLabel.carried]

theorem decode_strings (l : List String) : decodeAll string (l.map Value.string) = .ok l := by
  simpa using (decodeAll_map string Value.string id l).2 fun s _ => rfl

theorem decode_sourceLabels (l : List QuerySourceLabel) :
    decodeAll Host.QuerySourceLabel.decode (l.map (ResourceProvider.QuerySourceLabel.serialize ∘ QuerySourceLabel.into)) =
      .ok (l.map QuerySourceLabel.carried) :=
  (decodeAll_map _ _ _ l).2 fun x _ => decode_sourceLabel x

theorem decode_subscription (s : QuerySubscription) : Host.QuerySubscription.decode s.into.serialize = .ok s.carried := by
  simp [Host.QuerySubscription.decode, ResourceProvider.QuerySubscription.serialize, QuerySubscription.into,
    required, defaulted, field, valuesOf, string, decode_strings, decode_sourceLabels, QuerySubscription.carried]

theorem decode_joinKey (k : QueryJoinKey) : Host.QueryJoinKey.decode k.into.serialize = .ok k.carried := by
  simp [Host.QueryJoinKey.decode, ResourceProvider.QueryJoinKey.serialize, QueryJoinKey.into,
    required, field, valuesOf, string, QueryJoinKey.carried]

theorem decode_join (j : QueryJoin) : Host.QueryJoin.decode j.into.serialize = .ok j.carried := by
  have hkeys : decodeAll Host.QueryJoinKey.decode (j.keys.map (ResourceProvider.QueryJoinKey.serialize ∘ QueryJoinKey.into)) =
      .ok (j.keys.map QueryJoinKey.carried) := (decodeAll_map _ _ _ _).2 fun k _ => decode_joinKey k
  simp [Host.QueryJoin.decode, ResourceProvider.QueryJoin.serialize, QueryJoin.into,
    required, field, valuesOf, string, hkeys, QueryJoin.carried]

theorem decode_retention (r : RetentionPolicy) : Host.RetentionPolicy.decode r.into.serialize = .ok r.carried := by
  cases r with
  | latest => rfl
  | expire afterSeconds => rfl
  | all => rfl

theorem decode_view (v : ViewSpec) : Host.ViewSpec.decode v.into.serialize = .ok v.carried := by
  simp [Host.ViewSpec.decode, ResourceProvider.ViewSpec.serialize, ViewSpec.into, required, field, valuesOf,
    Serde.bool, decode_retention, ViewSpec.carried]

/-- the two named fields are read when the map does not name them again -/
theorem middleware_named (kind name : String) (config : Map) (x y : String) :
    (required string "kind" (("kind", .string kind) :: ("name", .string name) :: config.fields) = .ok x ∧
      required string "name" (("kind", .string kind) :: ("name", .string name) :: config.fields) = .ok y) ↔
    (∀ key ∈ ["kind", "name"], key ∉ config.fields.map Prod.fst) ∧ x = kind ∧ y = name := by
  have hne : "kind" ≠ "name" := by decide
  rw [required_cons_of_ne string hne, required_cons_self, required_cons_self, List.map_cons, List.mem_cons, not_or,
    List.forall_mem_cons, List.forall_mem_singleton]
  simp only [string, Except.ok.injEq]
  constructor
  · rintro ⟨⟨⟨-, hkind⟩, rfl⟩, hname, rfl⟩
    exact ⟨⟨hkind, hname⟩, rfl, rfl⟩
  · rintro ⟨⟨hkind, hname⟩, rfl, rfl⟩
    exact ⟨⟨⟨hne, hkind⟩, rfl⟩, hname, rfl⟩

theorem rest_middleware {kind name : String} {config : Map}
    (h : ∀ key ∈ ["kind", "name"], key ∉ config.fields.map Prod.fst) :
    rest ["kind", "name"] (("kind", .string kind) :: ("name", .string name) :: config.fields) = config.fields := by
  have hconfig := rest_eq_self h
  rw [rest] at hconfig ⊢
  simpa using hconfig

/-- a middleware configuration is carried exactly when it is plain -/
theorem decode_middleware_iff (reread : Decoder Value) (m : SourceMiddlewareConfig) :
    Host.SourceMiddlewareConfig.decode reread m.into.serialize = .ok m.carried ↔ m.Plain reread := by
  rw [Host.SourceMiddlewareConfig.decode, ResourceProvider.SourceMiddlewareConfig.serialize, struct_object, bind_eq_ok,
    SourceMiddlewareConfig.into, SourceMiddlewareConfig.Plain, ← map_fields]
  constructor
  · rintro ⟨kind, hkind, h⟩
    obtain ⟨name, hname, h⟩ := bind_eq_ok.1 h
    obtain ⟨config, hconfig, h⟩ := bind_eq_ok.1 h
    obtain ⟨hfresh, -, -⟩ := (middleware_named _ _ _ _ _).1 ⟨hkind, hname⟩
    have hcarried : config = m.config := congrArg Host.SourceMiddlewareConfig.config (Except.ok.inj h)
    rw [rest_middleware hfresh, hcarried] at hconfig
    exact ⟨hfresh, hconfig⟩
  · rintro ⟨hfresh, hconfig⟩
    obtain ⟨hkind, hname⟩ := (middleware_named m.kind m.name m.config _ _).2 ⟨hfresh, rfl, rfl⟩
    refine ⟨m.kind, hkind, bind_eq_ok.2 ⟨m.name, hname, bind_eq_ok.2 ⟨m.config, ?_, rfl⟩⟩⟩
    rw [rest_middleware hfresh]
    exact hconfig

theorem decode_sources_iff (reread : Decoder Value) (s : QuerySources) :
    Host.QuerySources.decode reread s.into.serialize = .ok s.carried ↔ ∀ m ∈ s.middleware, m.Plain reread := by
  have hsubscriptions : decodeAll Host.QuerySubscription.decode
      (s.subscriptions.map (ResourceProvider.QuerySubscription.serialize ∘ QuerySubscription.into)) =
      .ok (s.subscriptions.map QuerySubscription.carried) := (decodeAll_map _ _ _ _).2 fun x _ => decode_subscription x
  have hjoins : decodeAll Host.QueryJoin.decode (s.joins.map (ResourceProvider.QueryJoin.serialize ∘ QueryJoin.into)) =
      .ok (s.joins.map QueryJoin.carried) := (decodeAll_map _ _ _ _).2 fun x _ => decode_join x
  have hmiddleware : decodeAll (Host.SourceMiddlewareConfig.decode reread)
      (s.middleware.map (ResourceProvider.SourceMiddlewareConfig.serialize ∘ SourceMiddlewareConfig.into)) =
      .ok (s.middleware.map SourceMiddlewareConfig.carried) ↔ ∀ m ∈ s.middleware, m.Plain reread :=
    (decodeAll_map _ _ _ _).trans (forall₂_congr fun m _ => decode_middleware_iff reread m)
  rw [← hmiddleware]
  simp only [Host.QuerySources.decode, ResourceProvider.QuerySources.serialize, QuerySources.into, struct_object]
  simp [required, defaulted, field, valuesOf, hsubscriptions, hjoins, bind_eq_ok, QuerySources.carried]

end Types

/-! ## The whole spec -/

section Spec

open Domain

variable (reread : Decoder Value)

omit reread in
theorem decode_languageOption (l : Option QueryLanguage) :
    option Host.QueryLanguage.decode (ResourceProvider.serializeOption ResourceProvider.QueryLanguage.serialize
      (l.map QueryLanguage.into)) = .ok (l.map QueryLanguage.carried) := by
  rcases l with _ | l
  · rfl
  · cases l <;> rfl

omit reread in
theorem decode_stringOption (s : Option String) :
    option string (ResourceProvider.serializeOption Value.string s) = .ok s := by
  cases s <;> rfl

/-- what the host reads: the sources as it reads them, and no transient flag, for the document has none -/
theorem decode_spec (d : Domain.QuerySpec) :
    Host.QuerySpec.decode reread d.into.serialize =
      (Host.QuerySources.decode reread d.sources.into.serialize).map fun sources =>
        { d.carried with sources := sources, transient := none } := by
  simp only [Host.QuerySpec.decode, ResourceProvider.QuerySpec.serialize, QuerySpec.into, struct_object]
  cases hsources : Host.QuerySources.decode reread d.sources.into.serialize with
  | error e =>
    simp [required, Serde.optional, field, valuesOf, string, decode_languageOption, hsources, Except.map]
  | ok sources =>
    simp [required, Serde.optional, field, valuesOf, string, decode_languageOption, decode_stringOption, decode_view,
      hsources, Except.map, QuerySpec.carried]

/-- **The way of a spec.** The host reads a spec that carries every value of the domain's exactly when the domain's sets
no transient flag, no middleware configuration has the key `kind` or `name`, and the configurations' values are read
back as themselves. -/
theorem decode_serialize_iff (d : Domain.QuerySpec) :
    Host.QuerySpec.decode reread d.into.serialize = .ok d.carried ↔
      d.transient = none ∧ ∀ m ∈ d.sources.middleware, m.Plain reread := by
  rw [← decode_sources_iff, decode_spec]
  cases hsources : Host.QuerySources.decode reread d.sources.into.serialize with
  | error e =>
    constructor
    · intro h
      cases h
    · rintro ⟨-, h⟩
      cases h
  | ok sources =>
    rw [Except.map, Except.ok.injEq, Except.ok.injEq]
    constructor
    · intro h
      have hcarried : sources = d.sources.carried := congrArg Host.QuerySpec.sources h
      have htransient : none = d.transient := congrArg Host.QuerySpec.transient h
      exact ⟨htransient.symm, hcarried⟩
    · rintro ⟨htransient, rfl⟩
      rw [← htransient]
      rfl

/-- a debug query: the management API asks for the flag, and the host does not see it -/
theorem debug_loses_transient (d : Domain.QuerySpec) {h : Host.QuerySpec}
    (hread : Host.QuerySpec.decode reread (Domain.debug d).into.serialize = .ok h) :
    h.transient = none ∧ (Domain.debug d).transient = some true := by
  rw [decode_spec] at hread
  cases hsources : Host.QuerySources.decode reread (Domain.debug d).sources.into.serialize with
  | error e =>
    rw [hsources] at hread
    cases hread
  | ok sources =>
    rw [hsources] at hread
    cases hread
    exact ⟨rfl, rfl⟩

/-! ### The witness -/

/-- a query over the label `Person` of one source -/
def personSpec : Domain.QuerySpec where
  container := "default"
  mode := "query"
  query := "MATCH (p:Person) RETURN p.name"
  queryLanguage := some .cypher
  sources := ⟨[⟨"people", [⟨"Person"⟩], [], []⟩], [], []⟩
  storageProfile := none
  view := ⟨false, .latest⟩
  transient := none

/-- the spec of a debug query is read without the flag that the domain's spec sets -/
theorem transient_lost :
    ¬ ∀ d : Domain.QuerySpec, Host.QuerySpec.decode Except.ok d.into.serialize = .ok d.carried := by
  intro h
  have hdebug := h (Domain.debug personSpec)
  have hnone : Host.QuerySpec.decode Except.ok (Domain.debug personSpec).into.serialize =
      .ok { (Domain.debug personSpec).carried with transient := none } := by rfl
  rw [hnone, Except.ok.injEq] at hdebug
  cases congrArg Host.QuerySpec.transient hdebug

end Spec

end DrasiPlatform.QuerySpecWire
