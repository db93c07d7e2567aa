/-
Whether the external endpoints of a source and of a reaction can be reached: the ingresses that
`SourceSpecBuilder::build` and `ReactionSpecBuilder::build` make of them, the services their backends name, and the names
under which the reconciler creates both (`control-planes/kubernetes_provider/src/{spec_builder,controller}`).

A source names an ingress after the endpoint and its backend after the service, but the service behind it after the
endpoint. A reaction names service and backend alike, and every ingress by the same name.

- `reachable_iff`: for ingresses named by a function of the endpoint, every endpoint has one of its own with a backend that
  exists if and only if the function tells the endpoints apart and what it names as their backends is created.
- `SourceSpecBuilder.creates_iff`, `ReactionSpecBuilder.creates_iff`: which services are created.
- `external_endpoints_reachable_iff`: a source's external endpoints are reachable if and only if no two of them share a
  name and a service goes by the name of the endpoint's service; a reaction's if and only if there is no more than one.
Witness: `external_endpoints_reachable_webhook`; a source that cannot be reached: `external_endpoints_unreachable`.
-/
import Mathlib.Tactic
import DrasiPlatform.Provider.BuiltObjects

namespace DrasiPlatform.Provider

/-! ## What reachable means -/

/-- an external endpoint of a resource -/
structure ExternalEndpoint where
  service : String
  endpoint : String
  port : ℤ
deriving DecidableEq

def externalEndpoints (services : Option (StrMap Service)) : List ExternalEndpoint :=
  (services.getD ∅).entries.flatMap fun s =>
    ((s.2.endpoints.getD ∅).entries.filter fun e => e.2.setting = .external).map fun e => ⟨s.1, e.1, e.2.port⟩

/-- the services and ports that an ingress sends to -/
def Object.backends (object : Object Detail) : List (String × ℤ) :=
  match object.body with
  | .ingress (some spec) => (spec.rules.getD []).flatMap fun rule => (rule.paths.getD []).filterMap fun path =>
    match path.rest with
    | .backend _ serviceName port => some (serviceName, port)
    | _ => none
  | _ => []

/-- the reconciler creates a service of the name with the port -/
def Creates (specs : List BuiltSpec) (name : String) (port : ℤ) : Prop :=
  ∃ spec ∈ specs, ∃ key service, (key, Detail.service service) ∈ spec.services ∧ spec.fullName key = name ∧
    port ∈ service.ports.map (·.port)

/-- every external endpoint has an ingress of its own, with a backend that is created with the endpoint's port -/
def Reachable (externals : List ExternalEndpoint) (specs : List BuiltSpec) : Prop :=
  ∃ ingressOf : ExternalEndpoint → String, Set.InjOn ingressOf {x | x ∈ externals} ∧
    ∀ x ∈ externals, ∃ spec ∈ specs, ∃ object, (ingressOf x, object) ∈ spec.ingresses.getD [] ∧
      ∃ name, (name, x.port) ∈ object.backends ∧ Creates specs name x.port

/-! ## Ingresses named by a function of the endpoint -/

section Named

variable {externals : List ExternalEndpoint} {specs : List BuiltSpec} {ingressName backend : ExternalEndpoint → String}

/-- every ingress is that of an external endpoint, and every external endpoint has one under its name, if not its own -/
structure Named (externals : List ExternalEndpoint) (specs : List BuiltSpec)
    (ingressName backend : ExternalEndpoint → String) : Prop where
  sound : ∀ spec ∈ specs, ∀ name object, (name, object) ∈ spec.ingresses.getD [] →
    ∃ y ∈ externals, name = ingressName y ∧ object.backends = [(backend y, y.port)]
  complete : ∀ x ∈ externals, ∃ spec ∈ specs, ∃ object, (ingressName x, object) ∈ spec.ingresses.getD []

/-- a function into the names of the endpoints that tells them apart leaves no name out: the names do so too -/
theorem injOn_names {f g : ExternalEndpoint → String} (hinj : Set.InjOn f {x | x ∈ externals})
    (hinto : ∀ x ∈ externals, ∃ y ∈ externals, f x = g y) :
    Set.InjOn g {x | x ∈ externals} ∧ ∀ z ∈ externals, ∃ x ∈ externals, f x = g z := by
  have hcoe : {x | x ∈ externals} = (externals.toFinset : Set ExternalEndpoint) := by simp
  rw [hcoe] at hinj ⊢
  have hcard : (externals.toFinset.image f).card = externals.toFinset.card := Finset.card_image_iff.2 hinj
  have hsub : externals.toFinset.image f ⊆ externals.toFinset.image g := by
    intro name hname
    obtain ⟨x, hx, rfl⟩ := Finset.mem_image.1 hname
    obtain ⟨y, hy, hxy⟩ := hinto x (List.mem_toFinset.1 hx)
    exact Finset.mem_image.2 ⟨y, List.mem_toFinset.2 hy, hxy.symm⟩
  have hle : (externals.toFinset.image g).card ≤ (externals.toFinset.image f).card :=
    Finset.card_image_le.trans hcard.ge
  have heq := Finset.eq_of_subset_of_card_le hsub hle
  refine ⟨Finset.card_image_iff.1 (heq ▸ hcard), fun z hz => ?_⟩
  have hmem : g z ∈ externals.toFinset.image f := heq ▸ Finset.mem_image_of_mem g (List.mem_toFinset.2 hz)
  obtain ⟨x, hx, hxz⟩ := Finset.mem_image.1 hmem
  exact ⟨x, List.mem_toFinset.1 hx, hxz⟩

/-- **When external endpoints are reachable**: their ingresses have names of their own, and what the backends name is
created. -/
theorem reachable_iff (h : Named externals specs ingressName backend) :
    Reachable externals specs ↔
      Set.InjOn ingressName {x | x ∈ externals} ∧ ∀ x ∈ externals, Creates specs (backend x) x.port := by
  constructor
  · rintro ⟨f, hinj, hreach⟩
    have hinto : ∀ x ∈ externals, ∃ y ∈ externals, f x = ingressName y := by
      intro x hx
      obtain ⟨spec, hspec, object, hobject, -⟩ := hreach x hx
      obtain ⟨y, hy, hname, -⟩ := h.sound spec hspec _ object hobject
      exact ⟨y, hy, hname⟩
    obtain ⟨hnames, honto⟩ := injOn_names hinj hinto
    refine ⟨hnames, fun z hz => ?_⟩
    obtain ⟨x, hx, hxz⟩ := honto z hz
    obtain ⟨spec, hspec, object, hobject, name, hname, hcreates⟩ := hreach x hx
    obtain ⟨y, hy, hxy, hbackends⟩ := h.sound spec hspec _ object hobject
    obtain rfl : y = z := hnames hy hz (hxy.symm.trans hxz)
    rw [hbackends, List.mem_singleton, Prod.mk.injEq] at hname
    obtain ⟨rfl, hport⟩ := hname
    exact hport ▸ hcreates
  · rintro ⟨hnames, hcreates⟩
    refine ⟨ingressName, hnames, fun x hx => ?_⟩
    obtain ⟨spec, hspec, object, hobject⟩ := h.complete x hx
    obtain ⟨y, hy, hxy, hbackends⟩ := h.sound spec hspec _ object hobject
    obtain rfl : x = y := hnames hx hy hxy
    exact ⟨spec, hspec, object, hobject, _, by rw [hbackends]; exact List.mem_singleton_self _, hcreates x hx⟩

end Named

/-! ## Sources -/

theorem mem_externalEndpoints {services : Option (StrMap Service)} {x : ExternalEndpoint} :
    x ∈ externalEndpoints services ↔ ∃ s ∈ (services.getD ∅).entries, ∃ e ∈ (s.2.endpoints.getD ∅).entries,
      e.2.setting = .external ∧ x = ⟨s.1, e.1, e.2.port⟩ := by
  simp only [externalEndpoints, List.mem_flatMap, List.mem_map, List.mem_filter, decide_eq_true_eq]
  constructor
  · rintro ⟨s, hs, e, ⟨he, hsetting⟩, rfl⟩
    exact ⟨s, hs, e, he, hsetting, rfl⟩
  · rintro ⟨s, hs, e, he, hsetting, rfl⟩
    exact ⟨s, hs, e, ⟨he, hsetting⟩, rfl⟩

namespace SourceSpecBuilder

variable {config : BuilderConfig} {instanceId id : String} {source : SourceSpec} {specs : List BuiltSpec}

def ingressName (id : String) (x : ExternalEndpoint) : String := id ++ "-" ++ x.endpoint

def backend (id : String) (x : ExternalEndpoint) : String := id ++ "-" ++ x.service

/-- a service is built under a key, with a port: the platform's, the proxy's, or that of an endpoint of the name -/
def Serves (source : SourceSpec) (key : String) (port : ℤ) : Prop :=
  (key = "query-api" ∧ port = 80) ∨
  ∃ name service, (source.services.getD ∅).lookup name = some service ∧
    if name = "proxy" ∧ key = "proxy" then port = 80
    else ∃ endpoint, (service.endpoints.getD ∅).lookup key = some endpoint ∧ endpoint.port = port

theorem named_build (h : build config instanceId id source = some specs) :
    Named (externalEndpoints source.services) specs (ingressName id) (backend id) := by
  obtain ⟨built, hbuilt, rfl⟩ := Option.map_eq_some_iff.1 h
  constructor
  · intro spec hspec name object hobject
    rcases List.mem_append.1 hspec with hplatform | hservice
    · obtain ⟨-, hnone, -⟩ := platformSpecs_objects hplatform
      rw [hnone] at hobject
      cases hobject
    · obtain ⟨s, hs, hbuild⟩ := exists_of_mem_mapM hbuilt hservice
      obtain ⟨-, -, -, hingresses⟩ := buildService_objects hbuild
      obtain ⟨e, he, hsetting, rfl, rfl⟩ := (rule config id s.1).of_last_ingress ((hingresses name object).1 hobject)
      exact ⟨⟨s.1, e.1, e.2.port⟩, mem_externalEndpoints.2 ⟨s, hs, e, he, hsetting, rfl⟩, rfl, rfl⟩
  · intro x hx
    obtain ⟨s, hs, e, he, hsetting, rfl⟩ := mem_externalEndpoints.1 hx
    obtain ⟨spec, hspec, hbuild⟩ := exists_of_mapM hbuilt hs
    obtain ⟨-, -, -, hingresses⟩ := buildService_objects hbuild
    obtain ⟨object, hobject⟩ := (rule config id s.1).exists_ingress he hsetting
    exact ⟨spec, List.mem_append_right _ hspec, object, (hingresses _ _).2 hobject⟩

variable (config id) in
theorem serviceAt_port_iff (s : Σ _ : String, Service) (appPort : Option ℕ) (key : String) (port : ℤ) :
    (∃ service, serviceAt config id s appPort key = some service ∧ port ∈ service.ports.map (·.port)) ↔
      if s.1 = "proxy" ∧ key = "proxy" then port = 80
      else ∃ endpoint, (s.2.endpoints.getD ∅).lookup key = some endpoint ∧ endpoint.port = port := by
  unfold serviceAt
  split
  · simp [clusterIp, eq_comm]
  · have hlast := last_entries (s.2.endpoints.getD ∅) (rule config id s.1).service key
    rw [show (rule config id s.1).serviceWrites (s.2.endpoints.getD ∅).entries =
      (s.2.endpoints.getD ∅).entries.map fun e => (e.1, (rule config id s.1).service e) from rfl, hlast]
    simp [rule, clusterIp, eq_comm]

/-- **Which services are created for a source.** -/
theorem creates_iff (h : build config instanceId id source = some specs) (key : String) (port : ℤ) :
    Creates specs (id ++ "-" ++ key) port ↔ Serves source key port := by
  obtain ⟨built, hbuilt, rfl⟩ := Option.map_eq_some_iff.1 h
  constructor
  · rintro ⟨spec, hspec, key', service, hservice, hname, hport⟩
    rcases List.mem_append.1 hspec with hplatform | hmem
    · obtain ⟨hid, -, ⟨-, hnone⟩ | ⟨-, hnone⟩ | ⟨-, hquery⟩⟩ := platformSpecs_objects hplatform
      · simp [hnone] at hservice
      · simp [hnone] at hservice
      · rw [hquery, List.mem_singleton] at hservice
        cases hservice
        rw [KubernetesSpec.fullName, hid, String.append_right_inj] at hname
        exact .inl ⟨hname.symm, by simpa [clusterIp] using hport⟩
    · obtain ⟨s, hs, hbuild⟩ := exists_of_mem_mapM hbuilt hmem
      obtain ⟨hid, -, ⟨appPort, hservices⟩, -⟩ := buildService_objects hbuild
      obtain ⟨service', heq, hat⟩ := (hservices key' _).1 hservice
      cases heq
      rw [KubernetesSpec.fullName, hid, String.append_right_inj] at hname
      subst hname
      exact .inr ⟨s.1, s.2, AList.mem_lookup_iff.2 hs, (serviceAt_port_iff config id s appPort key' port).1 ⟨service, hat, hport⟩⟩
  · rintro (⟨rfl, rfl⟩ | ⟨name, service, hlookup, hserves⟩)
    · refine ⟨_, List.mem_append_left _ (List.mem_cons_of_mem _ (List.mem_cons_of_mem _ List.mem_cons_self)), "query-api",
        clusterIp (drasiLabels .source id "query-api") none 80 (.inr "api"), ?_, rfl, by simp [clusterIp]⟩
      exact mem_serviceEntries_iff.2 ⟨_, rfl, AList.lookup_insert _⟩
    · obtain ⟨spec, hspec, hbuild⟩ := exists_of_mapM hbuilt (AList.mem_lookup_iff.1 hlookup)
      obtain ⟨hid, -, ⟨appPort, hservices⟩, -⟩ := buildService_objects hbuild
      obtain ⟨service', hat, hport⟩ := (serviceAt_port_iff config id ⟨name, service⟩ appPort key port).2 hserves
      refine ⟨spec, List.mem_append_right _ hspec, key, service', (hservices key _).2 ⟨service', rfl, hat⟩, ?_, hport⟩
      rw [KubernetesSpec.fullName, hid]

end SourceSpecBuilder

/-! ## Reactions -/

namespace ReactionSpecBuilder

variable {config : BuilderConfig} {calcHash : ReactionSpec → String} {instanceId id : String} {reaction : ReactionSpec}
  {specs : List BuiltSpec}

def ingressName (id : String) (_ : ExternalEndpoint) : String := id ++ "-reaction-ingress"

def backend (id : String) (x : ExternalEndpoint) : String := id ++ "-" ++ (x.service ++ "-" ++ x.endpoint)

/-- a service is built under a key, with a port: that of the last endpoint with the key -/
def Serves (reaction : ReactionSpec) (key : String) (port : ℤ) : Prop :=
  ∃ name service, (reaction.services.getD ∅).lookup name = some service ∧
    Writes.last key ((service.endpoints.getD ∅).entries.map fun e => (serviceKey name e, e.2.port)) = some port

theorem named_build (h : build config calcHash instanceId id reaction = some specs) :
    Named (externalEndpoints reaction.services) specs (ingressName id) (backend id) := by
  constructor
  · intro spec hspec name object hobject
    obtain ⟨s, hs, hbuild⟩ := exists_of_mem_mapM h hspec
    obtain ⟨-, -, -, hingresses⟩ := buildService_objects hbuild
    obtain ⟨e, he, hsetting, rfl, rfl⟩ := (rule config id s.1).of_last_ingress ((hingresses name object).1 hobject)
    exact ⟨⟨s.1, e.1, e.2.port⟩, mem_externalEndpoints.2 ⟨s, hs, e, he, hsetting, rfl⟩, rfl, rfl⟩
  · intro x hx
    obtain ⟨s, hs, e, he, hsetting, rfl⟩ := mem_externalEndpoints.1 hx
    obtain ⟨spec, hspec, hbuild⟩ := exists_of_mapM h hs
    obtain ⟨-, -, -, hingresses⟩ := buildService_objects hbuild
    obtain ⟨object, hobject⟩ := (rule config id s.1).exists_ingress he hsetting
    exact ⟨spec, hspec, object, (hingresses _ _).2 hobject⟩

variable (config id) in
/-- the port of a service that was written is the port that was written -/
theorem last_port_iff (name key : String) (endpoints : List (Σ _ : String, Endpoint)) (port : ℤ) :
    (∃ service, Writes.last key ((rule config id name).serviceWrites endpoints) = some service ∧
      port ∈ service.ports.map (·.port)) ↔
      Writes.last key (endpoints.map fun e => (serviceKey name e, e.2.port)) = some port := by
  have hports : endpoints.map (fun e => (serviceKey name e, e.2.port)) =
      ((rule config id name).serviceWrites endpoints).map fun w => (w.1, (w.2.ports.map (·.port)).headD 0) := by
    simp [EndpointRule.serviceWrites, rule, clusterIp, Function.comp_def]
  rw [hports, Writes.last_map_value key fun s : ServiceSpec => (s.ports.map (·.port)).headD 0, Option.map_eq_some_iff]
  refine exists_congr fun service => and_congr_right fun hlast => ?_
  obtain ⟨e, -, heq⟩ := List.mem_map.1 (Writes.mem_of_last hlast)
  cases heq
  simp [rule, clusterIp, eq_comm]

/-- **Which services are created for a reaction.** -/
theorem creates_iff (h : build config calcHash instanceId id reaction = some specs) (key : String) (port : ℤ) :
    Creates specs (id ++ "-" ++ key) port ↔ Serves reaction key port := by
  constructor
  · rintro ⟨spec, hspec, key', service, hservice, hname, hport⟩
    obtain ⟨s, hs, hbuild⟩ := exists_of_mem_mapM h hspec
    obtain ⟨hid, -, hservices, -⟩ := buildService_objects hbuild
    obtain ⟨service', heq, hlast⟩ := (hservices key' _).1 hservice
    cases heq
    rw [KubernetesSpec.fullName, hid, String.append_right_inj] at hname
    subst hname
    exact ⟨s.1, s.2, AList.mem_lookup_iff.2 hs, (last_port_iff config id s.1 key' _ port).1 ⟨service, hlast, hport⟩⟩
  · rintro ⟨name, service, hlookup, hserves⟩
    obtain ⟨spec, hspec, hbuild⟩ := exists_of_mapM h (AList.mem_lookup_iff.1 hlookup)
    obtain ⟨hid, -, hservices, -⟩ := buildService_objects hbuild
    obtain ⟨service', hlast, hport⟩ := (last_port_iff config id name key _ port).2 hserves
    refine ⟨spec, hspec, key, service', (hservices key _).2 ⟨service', rfl, hlast⟩, ?_, hport⟩
    rw [KubernetesSpec.fullName, hid]

end ReactionSpecBuilder

/-! ## Both -/

/-- **External endpoints are reachable**, for a source, if and only if no two of them share a name and a service is built
with the name of each one's service and its port; for a reaction, if and only if there is at most one, and no other
endpoint has taken the key of its service. -/
theorem external_endpoints_reachable_iff (config : BuilderConfig) (calcHash : ReactionSpec → String)
    (instanceId id : String) (source : SourceSpec) (reaction : ReactionSpec) {sourceSpecs reactionSpecs : List BuiltSpec}
    (hsource : SourceSpecBuilder.build config instanceId id source = some sourceSpecs)
    (hreaction : ReactionSpecBuilder.build config calcHash instanceId id reaction = some reactionSpecs) :
    (Reachable (externalEndpoints source.services) sourceSpecs ↔
      (∀ x ∈ externalEndpoints source.services, ∀ y ∈ externalEndpoints source.services, x.endpoint = y.endpoint → x = y) ∧
      ∀ x ∈ externalEndpoints source.services, SourceSpecBuilder.Serves source x.service x.port) ∧
    (Reachable (externalEndpoints reaction.services) reactionSpecs ↔
      (∀ x ∈ externalEndpoints reaction.services, ∀ y ∈ externalEndpoints reaction.services, x = y) ∧
      ∀ x ∈ externalEndpoints reaction.services,
        ReactionSpecBuilder.Serves reaction (x.service ++ "-" ++ x.endpoint) x.port) := by
  constructor
  · rw [reachable_iff (SourceSpecBuilder.named_build hsource)]
    refine and_congr ?_ (forall₂_congr fun x _ => SourceSpecBuilder.creates_iff hsource x.service x.port)
    refine forall₂_congr fun x _ => forall₂_congr fun y _ => ?_
    rw [SourceSpecBuilder.ingressName, SourceSpecBuilder.ingressName, String.append_right_inj]
  · rw [reachable_iff (ReactionSpecBuilder.named_build hreaction)]
    refine and_congr ?_ (forall₂_congr fun x _ => ReactionSpecBuilder.creates_iff hreaction _ x.port)
    refine forall₂_congr fun x _ => forall₂_congr fun y _ => ?_
    exact ⟨fun h => h rfl, fun h _ => h⟩

/-- one service, with external endpoints -/
def exposing (service : String) (endpoints : StrMap Endpoint) : Option (StrMap Service) :=
  some (AList.singleton service ⟨none, "image", none, some endpoints, none, none⟩)

def webhook : StrMap Endpoint := AList.singleton "webhook" ⟨.external, "8080"⟩

def twoPorts : StrMap Endpoint := webhook.insert "ui" ⟨.external, "80"⟩

def exposingSource (services : Option (StrMap Service)) : SourceSpec := ⟨"Http", services, none, none⟩

def exposingReaction (services : Option (StrMap Service)) : ReactionSpec := ⟨"Http", none, services, none, ∅, none⟩

/-- the service has the name of its endpoint, and the reaction one external endpoint -/
theorem external_endpoints_reachable_webhook :
    ∃ sourceSpecs reactionSpecs,
      SourceSpecBuilder.build defaultConfig "drasi" "r1" (exposingSource (exposing "webhook" webhook)) = some sourceSpecs ∧
      ReactionSpecBuilder.build defaultConfig (fun _ => "0") "drasi" "r1" (exposingReaction (exposing "reaction" webhook)) =
        some reactionSpecs ∧
      Reachable [⟨"webhook", "webhook", 8080⟩] sourceSpecs ∧ Reachable [⟨"reaction", "webhook", 8080⟩] reactionSpecs := by
  refine ⟨_, _, rfl, rfl, ?_⟩
  have hiff := external_endpoints_reachable_iff defaultConfig (fun _ => "0") "drasi" "r1"
    (exposingSource (exposing "webhook" webhook)) (exposingReaction (exposing "reaction" webhook)) rfl rfl
  have hsource : externalEndpoints (exposingSource (exposing "webhook" webhook)).services =
      [⟨"webhook", "webhook", 8080⟩] := rfl
  have hreaction : externalEndpoints (exposingReaction (exposing "reaction" webhook)).services =
      [⟨"reaction", "webhook", 8080⟩] := rfl
  rw [hsource, hreaction] at hiff
  refine ⟨hiff.1.2 ⟨by simp, ?_⟩, hiff.2.2 ⟨by simp, ?_⟩⟩
  · rw [List.forall_mem_singleton]
    exact .inr ⟨"webhook", _, rfl, by rw [if_neg (by decide)]; exact ⟨_, rfl, rfl⟩⟩
  · rw [List.forall_mem_singleton]
    exact ⟨"reaction", _, rfl, rfl⟩

/-- a source whose service has another name than its endpoint, and a reaction with two external endpoints -/
theorem external_endpoints_unreachable :
    (∃ specs, SourceSpecBuilder.build defaultConfig "drasi" "s1" (exposingSource (exposing "receiver" webhook)) = some specs ∧
      ¬ Reachable [⟨"receiver", "webhook", 8080⟩] specs) ∧
    ∃ specs, ReactionSpecBuilder.build defaultConfig (fun _ => "0") "drasi" "r1"
        (exposingReaction (exposing "reaction" twoPorts)) = some specs ∧
      ¬ Reachable [⟨"reaction", "ui", 80⟩, ⟨"reaction", "webhook", 8080⟩] specs := by
  constructor
  · have hexternals : externalEndpoints (exposingSource (exposing "receiver" webhook)).services =
        [⟨"receiver", "webhook", 8080⟩] := rfl
    obtain ⟨specs, hspecs⟩ : ∃ specs, SourceSpecBuilder.build defaultConfig "drasi" "s1"
        (exposingSource (exposing "receiver" webhook)) = some specs := ⟨_, rfl⟩
    refine ⟨specs, hspecs, fun h => ?_⟩
    obtain ⟨-, hcreates⟩ := (reachable_iff (hexternals ▸ SourceSpecBuilder.named_build hspecs)).1 h
    obtain ⟨hkey, -⟩ | ⟨name, service, hlookup, hserves⟩ :=
      (SourceSpecBuilder.creates_iff hspecs "receiver" 8080).1 (hcreates _ List.mem_cons_self)
    · exact absurd hkey (by decide)
    · cases List.mem_singleton.1 (AList.mem_lookup_iff.1 hlookup)
      obtain ⟨endpoint, hendpoint, -⟩ : ∃ endpoint : Endpoint, webhook.lookup "receiver" = some endpoint ∧ _ := hserves
      cases hendpoint
  · have hexternals : externalEndpoints (exposingReaction (exposing "reaction" twoPorts)).services =
        [⟨"reaction", "ui", 80⟩, ⟨"reaction", "webhook", 8080⟩] := rfl
    obtain ⟨specs, hspecs⟩ : ∃ specs, ReactionSpecBuilder.build defaultConfig (fun _ => "0") "drasi" "r1"
        (exposingReaction (exposing "reaction" twoPorts)) = some specs := ⟨_, rfl⟩
    refine ⟨specs, hspecs, fun h => ?_⟩
    obtain ⟨hnames, -⟩ := (reachable_iff (hexternals ▸ ReactionSpecBuilder.named_build hspecs)).1 h
    have hsame := hnames (List.mem_cons_self) (List.mem_cons_of_mem _ List.mem_cons_self) rfl
    revert hsame
    decide

end DrasiPlatform.Provider
