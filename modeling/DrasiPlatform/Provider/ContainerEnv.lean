/-
What a container of a source or of a reaction sees of the properties that were configured: the map that
`SourceSpecBuilder::build` and `ReactionSpecBuilder::build` make, the variables that `map_env_vars` makes of it, and those
that `apply_identity` adds behind them.

A builder writes some names itself (`reserved`), and an identity writes some more (`identityVars`); what is configured
under one of them is not asked for.

- `filter_mapEnvVars`: one variable for every key of the map.
- `identified_containers`: what an identity adds to a container.
- `properties_reach_container`: a source's services get all their properties. A reaction's services get the reaction's
  properties alone, so one of their own is there exactly when the reaction has it too.

Witness: `properties_reach_container_holds`. A property that does not arrive: `reaction_property_missing`.
-/
import Mathlib.Tactic
import DrasiPlatform.Provider.BuiltSpecs

namespace DrasiPlatform.Provider

/-! ## Variables -/

theorem lookup_extend_entries {entries : List (Σ _ : String, ConfigValue)} (hnodup : entries.NodupKeys)
    (env : StrMap ConfigValue) (key : String) :
    (extend env entries).lookup key = (entries.dlookup key).or (env.lookup key) := by
  induction entries generalizing env with
  | nil => rfl
  | cons entry entries ih =>
    obtain ⟨name, value⟩ := entry
    obtain ⟨hname, hrest⟩ := List.nodupKeys_cons.1 hnodup
    rw [extend, ih hrest]
    by_cases hkey : key = name
    · subst hkey
      have hnone : entries.dlookup key = none := List.dlookup_eq_none.2 hname
      rw [hnone, AList.lookup_insert, List.dlookup_cons_eq]
      rfl
    · rw [AList.lookup_insert_ne hkey, List.dlookup_cons_ne _ _ hkey]

theorem filter_key {V : Type} {entries : List (Σ _ : String, V)} (hnodup : entries.NodupKeys) (key : String) :
    entries.filter (fun e => e.1 = key) = ((entries.dlookup key).map fun value => ⟨key, value⟩).toList := by
  induction entries with
  | nil => rfl
  | cons entry entries ih =>
    obtain ⟨name, value⟩ := entry
    obtain ⟨hname, hrest⟩ := List.nodupKeys_cons.1 hnodup
    by_cases hkey : name = key
    · subst hkey
      have hnone : entries.dlookup name = none := List.dlookup_eq_none.2 hname
      rw [List.filter_cons_of_pos (by simp), ih hrest, hnone, List.dlookup_cons_eq]
      rfl
    · rw [List.filter_cons_of_neg (by simpa using hkey), ih hrest, List.dlookup_cons_ne _ _ (Ne.symm hkey)]

/-- **One variable for every key.** -/
theorem filter_mapEnvVars (env : StrMap ConfigValue) (key : String) :
    (mapEnvVars env).filter (fun v => v.name = key) = ((env.lookup key).map (envVar key)).toList := by
  have hfilter : (env.entries.map fun e => envVar e.1 e.2).filter (fun v => v.name = key) =
      (env.entries.filter fun e => e.1 = key).map fun e => envVar e.1 e.2 := by
    rw [List.filter_map]
    congr 1
    refine List.filter_congr fun e _ => ?_
    simp [name_envVar]
  have hkeys := (mapEnvVars_perm env).filter fun v => v.name = key
  rw [hfilter, filter_key env.nodupKeys] at hkeys
  cases hl : env.lookup key with
  | none =>
    have hnone : env.entries.dlookup key = none := hl
    rw [hnone] at hkeys
    exact hkeys.eq_nil
  | some value =>
    have hsome : env.entries.dlookup key = some value := hl
    rw [hsome] at hkeys
    exact List.perm_singleton.1 hkeys

theorem envVar_inj {key : String} {value value' : ConfigValue} (h : envVar key value = envVar key value') :
    value = value' := by
  cases value <;> cases value' <;> simp_all [envVar]

/-! ## Containers -/

/-- the containers of the pods of a deployment -/
def Detail.containers : Detail → List Container
  | .deployment _ template => template.containers
  | _ => []

def BuiltSpec.containers (spec : BuiltSpec) : List Container := spec.deployment.rest.containers

/-- one variable of the name, a literal or a reference to a secret -/
def Container.Defines (container : Container) (key : String) (value : ConfigValue) : Prop :=
  container.env.filter (fun v => v.name = key) = [envVar key value]

/-- what an identity writes into every container -/
def identityVars : Option ServiceIdentity → List EnvVar
  | none => []
  | some identity => ⟨"IDENTITY_TYPE", some identity.idType, none⟩ :: mapEnvVars identity.envVars

def Container.withVars (vars : List EnvVar) (container : Container) : Container :=
  { container with env := container.env ++ vars }

/-- what a variable of no identity stands for, is in the map of the builder -/
theorem defines_iff {container : Container} {env : StrMap ConfigValue} {identity : Option ServiceIdentity}
    (henv : container.env = mapEnvVars env ++ identityVars identity) {key : String}
    (hkey : key ∉ (identityVars identity).map (·.name)) (value : ConfigValue) :
    container.Defines key value ↔ env.lookup key = some value := by
  have hidentity : (identityVars identity).filter (fun v => v.name = key) = [] := by
    rw [List.filter_eq_nil_iff]
    intro v hv hname
    exact hkey (List.mem_map.2 ⟨v, hv, of_decide_eq_true hname⟩)
  rw [Container.Defines, henv, List.filter_append, filter_mapEnvVars, hidentity, List.append_nil]
  cases env.lookup key with
  | none => simp
  | some value' =>
    constructor
    · intro h
      rw [envVar_inj (List.singleton_inj.1 h)]
    · intro h
      cases h
      rfl

namespace BuiltSpec

/-- a change of the pods that changes the containers by `g` -/
theorem containers_mapPod {f : PodTemplate → PodTemplate} {g : Container → Container}
    (hf : ∀ pod, (f pod).containers = pod.containers.map g) (spec : BuiltSpec) :
    (spec.mapPod f).containers = spec.containers.map g := by
  unfold mapPod
  split
  · next replicas template hrest => simp [BuiltSpec.containers, Detail.containers, hrest, hf]
  · next hrest =>
    unfold BuiltSpec.containers Detail.containers
    split
    · next replicas template hdeployment => exact absurd hdeployment (hrest replicas template)
    · rfl

theorem serviceName_mapPod (f : PodTemplate → PodTemplate) (spec : BuiltSpec) :
    (spec.mapPod f).serviceName = spec.serviceName := by
  obtain ⟨deployment, hspec⟩ := mapPod_eq f spec
  rw [hspec]

/-- a change of the pods that leaves the containers alone -/
theorem containers_mapPod_id {f : PodTemplate → PodTemplate} (hf : ∀ pod, (f pod).containers = pod.containers)
    (spec : BuiltSpec) : (spec.mapPod f).containers = spec.containers := by
  rw [containers_mapPod (g := id) (by simpa using hf), List.map_id]

theorem containers_withServiceAccount (spec : BuiltSpec) :
    spec.withServiceAccount.containers = spec.containers ∧ spec.withServiceAccount.serviceName = spec.serviceName := by
  unfold withServiceAccount
  split
  · exact ⟨rfl, rfl⟩
  · refine ⟨(containers_mapPod_id ?_ _).trans ?_, serviceName_mapPod _ _⟩
    · exact fun _ => rfl
    · rfl

theorem containers_markIdentity {spec spec' : BuiltSpec} {identity : ServiceIdentity}
    (h : spec.markIdentity identity = some spec') :
    spec'.containers = spec.containers ∧ spec'.serviceName = spec.serviceName := by
  unfold markIdentity at h
  split at h
  · cases h
    refine ⟨(containers_mapPod_id ?_ _).trans ?_, serviceName_mapPod _ _⟩
    · exact fun _ => rfl
    · rfl
  · cases h
    exact ⟨rfl, rfl⟩
  · cases h
  · cases h
    exact ⟨rfl, rfl⟩

/-- **An identity adds its variables to every container.** -/
theorem identified_containers {spec spec' : BuiltSpec} {identity : Option ServiceIdentity}
    (h : identified identity spec = some spec') :
    spec'.containers = spec.containers.map (Container.withVars (identityVars identity)) ∧
      spec'.serviceName = spec.serviceName := by
  cases identity with
  | none =>
    cases h
    have hid : Container.withVars (identityVars none) = id := by
      funext container
      simp [Container.withVars, identityVars]
    rw [hid, List.map_id]
    exact ⟨rfl, rfl⟩
  | some identity =>
    obtain ⟨marked, hmarked, rfl⟩ := Option.map_eq_some_iff.1 h
    obtain ⟨hcontainers, hname⟩ := containers_markIdentity hmarked
    obtain ⟨hcontainers', hname'⟩ := containers_withServiceAccount spec
    refine ⟨?_, by rw [serviceName_mapPod, hname, hname']⟩
    rw [containers_mapPod (g := Container.withVars (identityVars (some identity))) fun _ => rfl, hcontainers, hcontainers']

end BuiltSpec

/-! ## What is configured -/

/-- what is configured for a service under a key: its own property, or else the resource's -/
def configured (properties : Option (StrMap ConfigValue)) (service : Service) (key : String) : Option ConfigValue :=
  ((service.properties.getD ∅).lookup key).or ((properties.getD ∅).lookup key)

/-- the one container of a service's deployment defines what is configured, unless the builder reserves the name -/
def Reaches (properties : Option (StrMap ConfigValue)) (reserved : List String) (entry : Σ _ : String, Service)
    (spec : BuiltSpec) : Prop :=
  spec.serviceName = entry.1 ∧ ∃ container, spec.containers = [container] ∧
    ∀ key value, configured properties entry.2 key = some value → key ∉ reserved → container.Defines key value

theorem reaches_iff {properties : Option (StrMap ConfigValue)} {reserved : List String} {entry : Σ _ : String, Service}
    {spec : BuiltSpec} {env : StrMap ConfigValue} {identity : Option ServiceIdentity} {container : Container}
    (hname : spec.serviceName = entry.1) (hcontainer : spec.containers = [container])
    (henv : container.env = mapEnvVars env ++ identityVars identity)
    (hreserved : ∀ v ∈ identityVars identity, v.name ∈ reserved) :
    Reaches properties reserved entry spec ↔
      ∀ key value, configured properties entry.2 key = some value → key ∉ reserved → env.lookup key = some value := by
  have hidentity : ∀ key, key ∉ reserved → key ∉ (identityVars identity).map (·.name) := by
    intro key hkey hmem
    obtain ⟨v, hv, rfl⟩ := List.mem_map.1 hmem
    exact hkey (hreserved v hv)
  constructor
  · rintro ⟨-, container', hcontainer', h⟩ key value hconfigured hkey
    obtain rfl : container = container' := List.singleton_inj.1 (hcontainer.symm.trans hcontainer')
    exact (defines_iff henv (hidentity key hkey) value).1 (h key value hconfigured hkey)
  · intro h
    refine ⟨hname, container, hcontainer, fun key value hconfigured hkey => ?_⟩
    exact (defines_iff henv (hidentity key hkey) value).2 (h key value hconfigured hkey)

theorem forall₂_mapM {α β : Type} {f : α → Option β} {P : α → β → Prop} (hf : ∀ a b, f a = some b → P a b) {l : List α}
    {ys : List β} (h : l.mapM f = some ys) : List.Forall₂ P l ys := by
  induction l generalizing ys with
  | nil =>
    cases h
    exact .nil
  | cons a l ih =>
    rw [List.mapM_cons] at h
    obtain ⟨b, hb, h⟩ := Option.bind_eq_some_iff.1 h
    obtain ⟨bs, hbs, h⟩ := Option.bind_eq_some_iff.1 h
    cases h
    exact .cons (hf a b hb) (ih hbs)

theorem forall₂_iff {α β : Type} {P : α → β → Prop} {Q : α → Prop} {l : List α} {ys : List β}
    (h : List.Forall₂ (fun a b => P a b ↔ Q a) l ys) : List.Forall₂ P l ys ↔ ∀ a ∈ l, Q a := by
  induction h with
  | nil => simp
  | cons hab _ ih => rw [List.forall₂_cons, List.forall_mem_cons, hab, ih]

/-! ## Sources -/

namespace SourceSpecBuilder

variable {config : BuilderConfig} {instanceId id : String}

/-- the names that are not the user's: the builder's two, and the identity's -/
def reserved (source : SourceSpec) : List String :=
  "SOURCE_ID" :: "INSTANCE_ID" :: (identityVars source.identity).map (·.name)

theorem buildService_container {source : SourceSpec} {entry : Σ _ : String, Service} {spec : BuiltSpec}
    (h : buildService config instanceId id source entry = some spec) :
    spec.serviceName = entry.1 ∧ ∃ container, spec.containers = [container] ∧
      container.env = mapEnvVars (env instanceId id source entry.2) ++ identityVars source.identity ∧
      container.volumeMounts = [] := by
  obtain ⟨appPort, -, h⟩ := Option.bind_eq_some_iff.1 h
  obtain ⟨exposed, -, h⟩ := Option.bind_eq_some_iff.1 h
  obtain ⟨hcontainers, hname⟩ := BuiltSpec.identified_containers h
  split at hcontainers
  all_goals
    refine ⟨?_, _, hcontainers, rfl, rfl⟩
    rw [hname]
    split <;> rfl

theorem lookup_env (source : SourceSpec) (service : Service) {key : String} (hsource : key ≠ "SOURCE_ID")
    (hinstance : key ≠ "INSTANCE_ID") : (env instanceId id source service).lookup key = configured source.properties service key := by
  unfold env configured
  cases service.properties with
  | none => simp [AList.lookup_insert_ne, hsource, hinstance]
  | some properties =>
    simp only [Option.elim_some, Option.getD_some]
    rw [lookup_extend_entries properties.nodupKeys, AList.lookup_insert_ne hinstance, AList.lookup_insert_ne hsource]
    rfl

theorem reaches_buildService {source : SourceSpec} {entry : Σ _ : String, Service} {spec : BuiltSpec}
    (h : buildService config instanceId id source entry = some spec) :
    Reaches source.properties (reserved source) entry spec := by
  obtain ⟨hname, container, hcontainer, henv, -⟩ := buildService_container h
  have hreserved : ∀ v ∈ identityVars source.identity, v.name ∈ reserved source := by
    intro v hv
    exact List.mem_cons_of_mem _ (List.mem_cons_of_mem _ (List.mem_map_of_mem hv))
  refine (reaches_iff hname hcontainer henv hreserved).2 fun key value hconfigured hkey => ?_
  have hsource : key ≠ "SOURCE_ID" := by
    rintro rfl
    exact hkey List.mem_cons_self
  have hinstance : key ≠ "INSTANCE_ID" := by
    rintro rfl
    exact hkey (List.mem_cons_of_mem _ List.mem_cons_self)
  rw [lookup_env source entry.2 hsource hinstance, hconfigured]

theorem reaches_build {source : SourceSpec} {specs : List BuiltSpec}
    (h : build config instanceId id source = some specs) :
    ∃ built, specs = platformSpecs config instanceId id ++ built ∧
      List.Forall₂ (Reaches source.properties (reserved source)) (source.services.getD ∅).entries built := by
  obtain ⟨built, hbuilt, rfl⟩ := Option.map_eq_some_iff.1 h
  refine ⟨built, rfl, forall₂_mapM ?_ hbuilt⟩
  intro entry spec hservice
  exact reaches_buildService hservice

end SourceSpecBuilder

/-! ## Reactions -/

namespace ReactionSpecBuilder

variable {config : BuilderConfig} {calcHash : ReactionSpec → String} {instanceId id : String}

/-- the names that are not the user's: the builder's three, and the identity's -/
def reserved (reaction : ReactionSpec) : List String :=
  "CONFIG_HASH" :: "INSTANCE_ID" :: "PubsubName" :: (identityVars reaction.identity).map (·.name)

/-- every property of a service's own is one that the reaction has too -/
def OwnPropertiesShared (reaction : ReactionSpec) (service : Service) : Prop :=
  ∀ key value, (service.properties.getD ∅).lookup key = some value → key ∉ reserved reaction →
    (reaction.properties.getD ∅).lookup key = some value

theorem buildService_container {reaction : ReactionSpec} {entry : Σ _ : String, Service} {spec : BuiltSpec}
    (h : buildService config calcHash instanceId id reaction entry = some spec) :
    spec.serviceName = entry.1 ∧ ∃ container, spec.containers = [container] ∧
      container.env = mapEnvVars (env calcHash instanceId id reaction) ++ identityVars reaction.identity ∧
      container.volumeMounts = [⟨id ++ "-" ++ entry.1 ++ "-queries", some true, "/etc/queries"⟩] := by
  obtain ⟨appPort, -, h⟩ := Option.bind_eq_some_iff.1 h
  obtain ⟨exposed, -, h⟩ := Option.bind_eq_some_iff.1 h
  obtain ⟨replica, -, h⟩ := Option.bind_eq_some_iff.1 h
  obtain ⟨hcontainers, hname⟩ := BuiltSpec.identified_containers h
  exact ⟨hname, _, hcontainers, rfl, by simp [Container.withVars, sorted, sortEntries]⟩

theorem lookup_env {reaction : ReactionSpec} {key : String} (hkey : key ∉ reserved reaction) :
    (env calcHash instanceId id reaction).lookup key = (reaction.properties.getD ∅).lookup key := by
  simp only [reserved, List.mem_cons, not_or] at hkey
  obtain ⟨hhash, hinstance, hpubsub, -⟩ := hkey
  unfold env
  rw [AList.lookup_insert_ne hpubsub, AList.lookup_insert_ne hinstance, AList.lookup_insert_ne hhash]

/-- the properties of the service itself are not looked at -/
theorem reaches_buildService_iff {reaction : ReactionSpec} {entry : Σ _ : String, Service} {spec : BuiltSpec}
    (h : buildService config calcHash instanceId id reaction entry = some spec) :
    Reaches reaction.properties (reserved reaction) entry spec ↔ OwnPropertiesShared reaction entry.2 := by
  obtain ⟨hname, container, hcontainer, henv, -⟩ := buildService_container h
  have hreserved : ∀ v ∈ identityVars reaction.identity, v.name ∈ reserved reaction := by
    intro v hv
    exact List.mem_cons_of_mem _ (List.mem_cons_of_mem _ (List.mem_cons_of_mem _ (List.mem_map_of_mem hv)))
  rw [reaches_iff hname hcontainer henv hreserved]
  constructor
  · intro hreaches key value hown hkey
    have hconfigured : configured reaction.properties entry.2 key = some value := by simp [configured, hown]
    have hlookup : (env calcHash instanceId id reaction).lookup key = some value := hreaches key value hconfigured hkey
    rwa [lookup_env hkey] at hlookup
  · intro hshared key value hconfigured hkey
    rw [lookup_env hkey]
    cases hown : (entry.2.properties.getD ∅).lookup key with
    | none => simpa [configured, hown] using hconfigured
    | some own =>
      obtain rfl : own = value := by simpa [configured, hown] using hconfigured
      exact hshared key own hown hkey

theorem reaches_build_iff {reaction : ReactionSpec} {specs : List BuiltSpec}
    (h : build config calcHash instanceId id reaction = some specs) :
    List.Forall₂ (Reaches reaction.properties (reserved reaction)) (reaction.services.getD ∅).entries specs ↔
      ∀ entry ∈ (reaction.services.getD ∅).entries, OwnPropertiesShared reaction entry.2 := by
  refine forall₂_iff (forall₂_mapM ?_ h)
  intro entry spec hservice
  exact reaches_buildService_iff hservice

end ReactionSpecBuilder

/-! ## Both builders -/

/-- **The properties reach the containers.** In the deployments of a source's services every configured property is
defined, the service's own before the source's. In those of a reaction's services this is so exactly when the services
have no property of their own that the reaction does not have. -/
theorem properties_reach_container (config : BuilderConfig) (calcHash : ReactionSpec → String) (instanceId id : String)
    (source : SourceSpec) (reaction : ReactionSpec) :
    (∀ specs, SourceSpecBuilder.build config instanceId id source = some specs →
      ∃ built, specs = SourceSpecBuilder.platformSpecs config instanceId id ++ built ∧
        List.Forall₂ (Reaches source.properties (SourceSpecBuilder.reserved source)) (source.services.getD ∅).entries
          built) ∧
    ∀ specs, ReactionSpecBuilder.build config calcHash instanceId id reaction = some specs →
      (List.Forall₂ (Reaches reaction.properties (ReactionSpecBuilder.reserved reaction))
          (reaction.services.getD ∅).entries specs ↔
        ∀ entry ∈ (reaction.services.getD ∅).entries, ReactionSpecBuilder.OwnPropertiesShared reaction entry.2) :=
  ⟨fun _ h => SourceSpecBuilder.reaches_build h, fun _ h => ReactionSpecBuilder.reaches_build_iff h⟩

/-! ## A reaction with a property of a service -/

def defaultConfig : BuilderConfig where
  ingressClassName := "contour"
  ingressLoadBalancerService := "contour-envoy"
  ingressLoadBalancerNamespace := "projectcontour"
  imagePrefix := "drasi-project/"
  imageTag := "latest"
  imagePullPolicy := "IfNotPresent"
  daprConfig := "dapr-config"
  daprSidecar := "daprio/daprd:1.9.0"
  pubSubType := "pubsub.redis"
  pubSubVersion := "v1"
  pubSubConfig := []
  ingressAnnotations := []

/-- one service, with one property of its own -/
def retryingReaction (properties : Option (StrMap ConfigValue)) : ReactionSpec where
  kind := "Debug"
  tag := none
  services := some (AList.singleton "reaction"
    ⟨none, "reaction-debug", none, none, none, some (AList.singleton "retries" (.inline "3"))⟩)
  properties := properties
  queries := ∅
  identity := none

theorem build_retryingReaction (properties : Option (StrMap ConfigValue)) :
    ∃ specs, ReactionSpecBuilder.build defaultConfig (fun _ => "0") "drasi" "reaction1" (retryingReaction properties) =
      some specs :=
  ⟨_, rfl⟩

theorem shared_retryingReaction_iff (properties : Option (StrMap ConfigValue)) :
    (∀ entry ∈ ((retryingReaction properties).services.getD ∅).entries,
        ReactionSpecBuilder.OwnPropertiesShared (retryingReaction properties) entry.2) ↔
      (properties.getD ∅).lookup "retries" = some (.inline "3") := by
  have hretries : "retries" ∉ ReactionSpecBuilder.reserved (retryingReaction properties) := by
    change "retries" ∉ ["CONFIG_HASH", "INSTANCE_ID", "PubsubName"]
    decide
  constructor
  · intro h
    exact h _ (List.mem_singleton.2 rfl) "retries" (.inline "3") rfl hretries
  · intro h entry hentry key value hown _
    obtain rfl := List.mem_singleton.1 hentry
    have hown : List.dlookup key [(⟨"retries", .inline "3"⟩ : Σ _ : String, ConfigValue)] = some value := hown
    by_cases hkey : key = "retries"
    · subst hkey
      cases hown
      exact h
    · rw [List.dlookup_cons_ne _ _ hkey] at hown
      cases hown

/-- **A property of a reaction's service does not arrive.** -/
theorem reaction_property_missing :
    ∃ specs, ReactionSpecBuilder.build defaultConfig (fun _ => "0") "drasi" "reaction1" (retryingReaction none) =
        some specs ∧
      ¬ List.Forall₂ (Reaches (retryingReaction none).properties (ReactionSpecBuilder.reserved (retryingReaction none)))
          ((retryingReaction none).services.getD ∅).entries specs := by
  obtain ⟨specs, hspecs⟩ := build_retryingReaction none
  refine ⟨specs, hspecs, fun h => ?_⟩
  have hshared := (shared_retryingReaction_iff none).1 ((ReactionSpecBuilder.reaches_build_iff hspecs).1 h)
  cases hshared

/-- a source with the same service -/
def retryingSource : SourceSpec where
  kind := "Debug"
  services := (retryingReaction none).services
  properties := none
  identity := none

/-- it does if the reaction has it too -/
theorem properties_reach_container_holds :
    ∃ specs, ReactionSpecBuilder.build defaultConfig (fun _ => "0") "drasi" "reaction1"
        (retryingReaction (some (AList.singleton "retries" (.inline "3")))) = some specs ∧
      List.Forall₂ (Reaches (some (AList.singleton "retries" (.inline "3")))
          (ReactionSpecBuilder.reserved (retryingReaction (some (AList.singleton "retries" (.inline "3"))))))
        ((retryingReaction (some (AList.singleton "retries" (.inline "3")))).services.getD ∅).entries specs := by
  obtain ⟨specs, hspecs⟩ := build_retryingReaction (some (AList.singleton "retries" (.inline "3")))
  have hreach := properties_reach_container defaultConfig (fun _ => "0") "drasi" "reaction1" retryingSource
    (retryingReaction (some (AList.singleton "retries" (.inline "3"))))
  exact ⟨specs, hspecs, (hreach.2 specs hspecs).2 ((shared_retryingReaction_iff _).2 rfl)⟩

end DrasiPlatform.Provider
