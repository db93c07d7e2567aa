/-
The services and ingresses that the builders of a source and of a reaction make of endpoints
(`control-planes/kubernetes_provider/src/spec_builder/{source,reaction}.rs`), as maps.

Both loops over the endpoints do the same with names of their own: every endpoint writes a service, an external one an
ingress too. `EndpointRule` is what a builder takes for them; in a map the last write to a name stands.

- `EndpointRule.lookup_exposed`: what the loop has collected under a name.
- `SourceSpecBuilder.buildService_objects`, `ReactionSpecBuilder.buildService_objects`: the services and ingresses of a
  built specification, name by name.
-/
import Mathlib.Tactic
import DrasiPlatform.Core.Writes
import DrasiPlatform.Provider.ContainerEnv

namespace DrasiPlatform.Provider

/-! ## Endpoints -/

/-- the port of an endpoint, where its target is one -/
def Endpoint.port (endpoint : Endpoint) : ℤ := (parseI32 endpoint.target).getD 0

theorem lookup_insert_or {V : Type} (m : StrMap V) (name key : String) (value : V) :
    (m.insert name value).lookup key = (if name = key then some value else none).or (m.lookup key) := by
  by_cases h : name = key
  · subst h
    rw [AList.lookup_insert, if_pos rfl]
    rfl
  · rw [AList.lookup_insert_ne (Ne.symm h), if_neg h]
    rfl

/-- what a builder makes of the endpoints of a service -/
structure EndpointRule where
  serviceKey : (Σ _ : String, Endpoint) → String
  service : (Σ _ : String, Endpoint) → ServiceSpec
  ingressName : (Σ _ : String, Endpoint) → String
  ingress : (Σ _ : String, Endpoint) → Object Detail

namespace EndpointRule

variable (R : EndpointRule)

def serviceWrites (endpoints : List (Σ _ : String, Endpoint)) : List (String × ServiceSpec) :=
  endpoints.map fun e => (R.serviceKey e, R.service e)

def ingressWrites (endpoints : List (Σ _ : String, Endpoint)) : List (String × Object Detail) :=
  (endpoints.filter fun e => e.2.setting = .external).map fun e => (R.ingressName e, R.ingress e)

/-- one turn of the loop over the endpoints, if it does not panic -/
structure Adds (exposed : Exposed) (endpoint : Σ _ : String, Endpoint) (exposed' : Exposed) : Prop where
  services : exposed'.services = exposed.services.insert (R.serviceKey endpoint) (R.service endpoint)
  ingresses : exposed'.ingresses =
    match endpoint.2.setting with
    | .internal => exposed.ingresses
    | .external => exposed.ingresses.insert (R.ingressName endpoint) (R.ingress endpoint)

/-- **What the loop has collected** under a name: the last write to it. -/
theorem lookup_exposed {add : Exposed → (Σ _ : String, Endpoint) → Option Exposed}
    (hadd : ∀ exposed endpoint exposed', add exposed endpoint = some exposed' → R.Adds exposed endpoint exposed')
    {endpoints : List (Σ _ : String, Endpoint)} {exposed exposed' : Exposed} (h : endpoints.foldlM add exposed = some exposed')
    (key : String) :
    exposed'.services.lookup key = (Writes.last key (R.serviceWrites endpoints)).or (exposed.services.lookup key) ∧
      exposed'.ingresses.lookup key = (Writes.last key (R.ingressWrites endpoints)).or (exposed.ingresses.lookup key) := by
  induction endpoints generalizing exposed with
  | nil =>
    cases h
    exact ⟨rfl, rfl⟩
  | cons endpoint endpoints ih =>
    rw [List.foldlM_cons] at h
    obtain ⟨next, hnext, hrest⟩ := Option.bind_eq_some_iff.1 h
    obtain ⟨hservices, hingresses⟩ := hadd exposed endpoint next hnext
    obtain ⟨ihservices, ihingresses⟩ := ih hrest
    constructor
    · rw [ihservices, hservices, lookup_insert_or, serviceWrites, serviceWrites, List.map_cons, Writes.last,
        Option.or_assoc]
    · rw [ihingresses, hingresses, ingressWrites, ingressWrites]
      cases hsetting : endpoint.2.setting with
      | internal => rw [List.filter_cons_of_neg (by simp [hsetting])]
      | external =>
        rw [List.filter_cons_of_pos (by simp [hsetting]), List.map_cons, Writes.last, lookup_insert_or, Option.or_assoc]

/-- an external endpoint leaves an ingress under its name -/
theorem exists_ingress {endpoints : List (Σ _ : String, Endpoint)} {e : Σ _ : String, Endpoint} (he : e ∈ endpoints)
    (hsetting : e.2.setting = .external) :
    ∃ object, Writes.last (R.ingressName e) (R.ingressWrites endpoints) = some object := by
  refine Option.ne_none_iff_exists'.1 fun hnone => ?_
  have hmem : (R.ingressName e, R.ingress e) ∈ R.ingressWrites endpoints :=
    List.mem_map_of_mem (List.mem_filter.2 ⟨he, decide_eq_true hsetting⟩)
  exact (Writes.last_eq_none_iff _ _).1 hnone _ hmem rfl

/-- an ingress is that of an external endpoint -/
theorem of_last_ingress {endpoints : List (Σ _ : String, Endpoint)} {name : String} {object : Object Detail}
    (h : Writes.last name (R.ingressWrites endpoints) = some object) :
    ∃ e ∈ endpoints, e.2.setting = .external ∧ name = R.ingressName e ∧ object = R.ingress e := by
  obtain ⟨e, he, heq⟩ := List.mem_map.1 (Writes.mem_of_last h)
  obtain ⟨he, hsetting⟩ := List.mem_filter.1 he
  obtain ⟨rfl, rfl⟩ := Prod.mk.inj heq
  exact ⟨e, he, of_decide_eq_true hsetting, rfl, rfl⟩

end EndpointRule

theorem exists_of_mapM {α β : Type} {f : α → Option β} {l : List α} {ys : List β} (h : l.mapM f = some ys) {a : α}
    (ha : a ∈ l) : ∃ y ∈ ys, f a = some y := by
  induction l generalizing ys with
  | nil => cases ha
  | cons b l ih =>
    rw [List.mapM_cons] at h
    obtain ⟨y, hy, h⟩ := Option.bind_eq_some_iff.1 h
    obtain ⟨rest, hrest, h⟩ := Option.bind_eq_some_iff.1 h
    cases h
    rcases List.mem_cons.1 ha with rfl | hmem
    · exact ⟨y, List.mem_cons_self, hy⟩
    · obtain ⟨z, hz, hfz⟩ := ih hrest hmem
      exact ⟨z, List.mem_cons_of_mem y hz, hfz⟩

/-- writes under the keys of a map -/
theorem last_entries {V W : Type} (m : StrMap V) (g : (Σ _ : String, V) → W) (key : String) :
    Writes.last key (m.entries.map fun e => (e.1, g e)) = (m.lookup key).map fun value => g ⟨key, value⟩ := by
  cases hlookup : m.lookup key with
  | none =>
    refine Writes.last_map_of_notMem fun e he hkey => ?_
    rw [← hkey, AList.mem_lookup_iff.2 he] at hlookup
    cases hlookup
  | some value =>
    refine Writes.last_map_of_mem (AList.mem_lookup_iff.1 hlookup) rfl fun e he hkey => ?_
    have hvalue := AList.mem_lookup_iff.2 he
    rw [hkey, hlookup] at hvalue
    obtain ⟨name, value'⟩ := e
    cases hkey
    cases hvalue
    rfl

theorem mem_sorted_iff {V : Type} {m : StrMap V} {key : String} {value : V} :
    (key, value) ∈ sorted m ↔ m.lookup key = some value := by
  constructor
  · exact fun h => mem_sorted h
  · intro h
    exact (sortEntries_perm _).mem_iff.2 (List.mem_map.2 ⟨⟨key, value⟩, AList.mem_lookup_iff.1 h, rfl⟩)

theorem mem_serviceEntries_iff {services : StrMap ServiceSpec} {key : String} {detail : Detail} :
    (key, detail) ∈ serviceEntries services ↔ ∃ service, detail = .service service ∧ services.lookup key = some service := by
  rw [serviceEntries, List.mem_map]
  constructor
  · rintro ⟨⟨name, service⟩, hmem, heq⟩
    cases heq
    exact ⟨service, rfl, mem_sorted_iff.1 hmem⟩
  · rintro ⟨service, rfl, hlookup⟩
    exact ⟨(key, service), mem_sorted_iff.2 hlookup, rfl⟩

theorem getD_sorted {V : Type} (m : StrMap V) : (if m.entries = [] then none else some (sorted m)).getD [] = sorted m := by
  split
  · next hempty => simp [sorted, sortEntries, hempty]
  · rfl

/-! ## Identities -/

/-- an identity touches the pods and the service account only -/
theorem identified_objects {spec spec' : BuiltSpec} {identity : Option ServiceIdentity}
    (h : identified identity spec = some spec') :
    ∃ deployment account, spec' = { spec with deployment := deployment, serviceAccount := account } := by
  have hpod : ∀ (f : PodTemplate → PodTemplate) (s : BuiltSpec),
      (∃ deployment account, s = { spec with deployment := deployment, serviceAccount := account }) →
      ∃ deployment account, s.mapPod f = { spec with deployment := deployment, serviceAccount := account } := by
    rintro f _ ⟨deployment, account, rfl⟩
    obtain ⟨deployment', hspec⟩ := BuiltSpec.mapPod_eq f _
    exact ⟨deployment', account, hspec⟩
  have haccount : ∃ deployment account,
      spec.withServiceAccount = { spec with deployment := deployment, serviceAccount := account } := by
    unfold BuiltSpec.withServiceAccount
    split
    · exact ⟨spec.deployment, spec.serviceAccount, rfl⟩
    · exact hpod _ _ ⟨spec.deployment, _, rfl⟩
  cases identity with
  | none =>
    cases h
    exact ⟨spec.deployment, spec.serviceAccount, rfl⟩
  | some identity =>
    obtain ⟨marked, hmarked, rfl⟩ := Option.map_eq_some_iff.1 h
    refine hpod _ _ ?_
    obtain ⟨deployment, account, hwith⟩ := haccount
    rw [hwith] at hmarked
    unfold BuiltSpec.markIdentity at hmarked
    split at hmarked
    · cases hmarked
      exact hpod _ _ ⟨deployment, _, rfl⟩
    · cases hmarked
      exact ⟨deployment, _, rfl⟩
    · cases hmarked
    · cases hmarked
      exact ⟨deployment, account, rfl⟩

/-! ## Sources -/

namespace SourceSpecBuilder

variable (config : BuilderConfig) (instanceId id : String)

def rule (serviceName : String) : EndpointRule where
  serviceKey e := e.1
  service e := clusterIp (drasiLabels .source id serviceName) (some e.1) e.2.port (.inl e.2.port)
  ingressName e := id ++ "-" ++ e.1
  ingress e := ingressObject config id (id ++ "-" ++ e.1) [] (id ++ "-" ++ serviceName) e.2.port

theorem adds_addEndpoint {serviceName : String} (exposed : Exposed) (endpoint : Σ _ : String, Endpoint)
    (exposed' : Exposed) (h : addEndpoint config id serviceName exposed endpoint = some exposed') :
    (rule config id serviceName).Adds exposed endpoint exposed' := by
  obtain ⟨port, hport, h⟩ := Option.bind_eq_some_iff.1 h
  have hget : endpoint.2.port = port := by rw [Endpoint.port, hport, Option.getD_some]
  cases hsetting : endpoint.2.setting with
  | internal =>
    rw [hsetting] at h
    cases h
    exact ⟨by simp [rule, hget], by simp [hsetting]⟩
  | external =>
    rw [hsetting] at h
    cases h
    exact ⟨by simp [rule, hget], by simp [rule, hget, hsetting]⟩

/-- the service under a key: that of the endpoint, or the proxy's own -/
def serviceAt (entry : Σ _ : String, Service) (appPort : Option ℕ) (key : String) : Option ServiceSpec :=
  if entry.1 = "proxy" ∧ key = "proxy" then
    some (clusterIp (drasiLabels .source id entry.1) none 80 (.inl ((appPort.getD 80 : ℕ) : ℤ)))
  else Writes.last key ((rule config id entry.1).serviceWrites (entry.2.endpoints.getD ∅).entries)

variable {config instanceId id}

theorem mem_applyProxySvc {spec : BuiltSpec} {appPort : Option ℕ} {key : String} {detail : Detail} :
    (key, detail) ∈ (applyProxySvc spec appPort).services ↔
      (key = "proxy" ∧ detail = .service (clusterIp (drasiLabels spec.resourceType spec.resourceId spec.serviceName) none 80
        (.inl ((appPort.getD 80 : ℕ) : ℤ)))) ∨ (key ≠ "proxy" ∧ (key, detail) ∈ spec.services) := by
  rw [applyProxySvc, (sortEntries_perm _).mem_iff, List.mem_cons, Prod.mk.injEq, List.mem_filter]
  simp [and_comm]

/-- **The objects of a service of a source**, name by name. -/
theorem buildService_objects {source : SourceSpec} {entry : Σ _ : String, Service} {spec : BuiltSpec}
    (h : buildService config instanceId id source entry = some spec) :
    spec.resourceId = id ∧ spec.serviceName = entry.1 ∧
      (∃ appPort, ∀ key detail, (key, detail) ∈ spec.services ↔
        ∃ service, detail = .service service ∧ serviceAt config id entry appPort key = some service) ∧
      ∀ name object, (name, object) ∈ spec.ingresses.getD [] ↔
        Writes.last name ((rule config id entry.1).ingressWrites (entry.2.endpoints.getD ∅).entries) = some object := by
  obtain ⟨appPort, -, h⟩ := Option.bind_eq_some_iff.1 h
  obtain ⟨exposed, hexposed, h⟩ := Option.bind_eq_some_iff.1 h
  obtain ⟨deployment, account, rfl⟩ := identified_objects h
  have hlookup := (rule config id entry.1).lookup_exposed (adds_addEndpoint config id) hexposed
  have hservice : ∀ key detail, (key, detail) ∈ serviceEntries exposed.services ↔ ∃ service, detail = .service service ∧
      Writes.last key ((rule config id entry.1).serviceWrites (entry.2.endpoints.getD ∅).entries) = some service := by
    intro key detail
    rw [mem_serviceEntries_iff, (hlookup key).1]
    simp [Exposed.none]
  have hingress : ∀ name object, (name, object) ∈ sorted exposed.ingresses ↔
      Writes.last name ((rule config id entry.1).ingressWrites (entry.2.endpoints.getD ∅).entries) = some object := by
    intro name object
    rw [mem_sorted_iff, (hlookup name).2]
    simp [Exposed.none]
  split
  · next hproxy =>
    refine ⟨rfl, rfl, ⟨appPort, fun key detail => ?_⟩, fun name object => ?_⟩
    · simp only [mem_applyProxySvc, hservice, serviceAt, hproxy, true_and]
      by_cases hkey : key = "proxy"
      · simp [hkey, eq_comm]
      · simp [hkey]
    · simp only [applyProxySvc, getD_sorted, hingress]
  · next hproxy =>
    refine ⟨rfl, rfl, ⟨appPort, fun key detail => ?_⟩, fun name object => ?_⟩
    · simp only [hservice, serviceAt, hproxy, false_and, if_false]
    · simp only [getD_sorted, hingress]

/-- the specifications of the services that every source has -/
theorem platformSpecs_objects {spec : BuiltSpec} (h : spec ∈ platformSpecs config instanceId id) :
    spec.resourceId = id ∧ spec.ingresses = none ∧ (spec.serviceName = "change-router" ∧ spec.services = [] ∨
      spec.serviceName = "change-dispatcher" ∧ spec.services = [] ∨ spec.serviceName = "query-api" ∧
        spec.services = [("query-api", .service (clusterIp (drasiLabels .source id "query-api") none 80 (.inr "api")))]) := by
  simp only [platformSpecs, List.mem_cons, List.not_mem_nil, or_false] at h
  obtain rfl | rfl | rfl := h
  · exact ⟨rfl, rfl, .inl ⟨rfl, by simp [platformSpec, serviceEntries, sorted, sortEntries]⟩⟩
  · exact ⟨rfl, rfl, .inr (.inl ⟨rfl, by simp [platformSpec, serviceEntries, sorted, sortEntries]⟩)⟩
  · exact ⟨rfl, rfl, .inr (.inr ⟨rfl, by simp [platformSpec, serviceEntries, sorted, sortEntries]⟩)⟩

end SourceSpecBuilder

/-! ## Reactions -/

namespace ReactionSpecBuilder

variable (config : BuilderConfig) (calcHash : ReactionSpec → String) (instanceId id : String)

/-- an internal endpoint's service has the endpoint's name, an external one's that of the service before it -/
def serviceKey (serviceName : String) (endpoint : Σ _ : String, Endpoint) : String :=
  match endpoint.2.setting with
  | .internal => endpoint.1
  | .external => serviceName ++ "-" ++ endpoint.1

def rule (serviceName : String) : EndpointRule where
  serviceKey := serviceKey serviceName
  service e := clusterIp (drasiLabels .reaction id serviceName) (some e.1) e.2.port (.inr e.1)
  ingressName _ := id ++ "-reaction-ingress"
  ingress e := ingressObject config id (id ++ "-reaction-ingress") (drasiLabels .reaction id serviceName)
    (id ++ "-" ++ (serviceName ++ "-" ++ e.1)) e.2.port

theorem adds_addEndpoint {serviceName : String} (exposed : Exposed) (endpoint : Σ _ : String, Endpoint)
    (exposed' : Exposed) (h : addEndpoint config id serviceName exposed endpoint = some exposed') :
    (rule config id serviceName).Adds exposed endpoint exposed' := by
  obtain ⟨port, hport, h⟩ := Option.bind_eq_some_iff.1 h
  have hget : endpoint.2.port = port := by rw [Endpoint.port, hport, Option.getD_some]
  cases hsetting : endpoint.2.setting with
  | internal =>
    rw [hsetting] at h
    cases h
    exact ⟨by simp [rule, serviceKey, hget, hsetting], by simp [hsetting]⟩
  | external =>
    rw [hsetting] at h
    cases h
    exact ⟨by simp [rule, serviceKey, hget, hsetting], by simp [rule, hget, hsetting]⟩

variable {config calcHash instanceId id}

/-- **The objects of a service of a reaction**, name by name. -/
theorem buildService_objects {reaction : ReactionSpec} {entry : Σ _ : String, Service} {spec : BuiltSpec}
    (h : buildService config calcHash instanceId id reaction entry = some spec) :
    spec.resourceId = id ∧ spec.serviceName = entry.1 ∧
      (∀ key detail, (key, detail) ∈ spec.services ↔ ∃ service, detail = .service service ∧
        Writes.last key ((rule config id entry.1).serviceWrites (entry.2.endpoints.getD ∅).entries) = some service) ∧
      ∀ name object, (name, object) ∈ spec.ingresses.getD [] ↔
        Writes.last name ((rule config id entry.1).ingressWrites (entry.2.endpoints.getD ∅).entries) = some object := by
  obtain ⟨appPort, -, h⟩ := Option.bind_eq_some_iff.1 h
  obtain ⟨exposed, hexposed, h⟩ := Option.bind_eq_some_iff.1 h
  obtain ⟨replica, -, h⟩ := Option.bind_eq_some_iff.1 h
  obtain ⟨deployment, account, rfl⟩ := identified_objects h
  have hlookup := (rule config id entry.1).lookup_exposed (adds_addEndpoint config id) hexposed
  refine ⟨rfl, rfl, fun key detail => ?_, fun name object => ?_⟩
  · rw [mem_serviceEntries_iff, (hlookup key).1]
    simp [Exposed.none]
  · rw [Option.getD_some, mem_sorted_iff, (hlookup name).2]
    simp [Exposed.none]

end ReactionSpecBuilder

end DrasiPlatform.Provider
