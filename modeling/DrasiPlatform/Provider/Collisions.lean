/-
Whether the specifications that are built for one resource collide: the final names of their deployments, services and
ingresses, and within a container the names of the variables and the paths of the mounts
(`control-planes/kubernetes_provider/src/spec_builder/{source,reaction,query_container,identity}.rs`).

The names inside one map differ. What is chosen by the user meets the names of the platform's own services, the names of
another service's endpoints, and the variables that `apply_identity` appends to those of the container.

- `nodup_flatMap_iff`: lists of names are distinct over all if each one is, and they are disjoint.
- `SourceSpecBuilder.collisionFree_iff`, `ReactionSpecBuilder.collisionFree_iff`, `QueryContainerSpecBuilder.collisionFree_iff`:
  when there is no collision, in terms of the request.
- `specs_collision_free_iff`: all three.
Witness: `specs_collision_free_single`; a collision for each builder: `specs_collide`.
-/
import Mathlib.Tactic
import DrasiPlatform.Provider.Reachable
import DrasiPlatform.Provider.QueryContainerBuilder

namespace DrasiPlatform.Provider

/-! ## Lists of names -/

/-- the names of an element, without repetition -/
def NamesOf {B : Type} (f : B → List String) (names : Set String) (b : B) : Prop :=
  (f b).Nodup ∧ ∀ name, name ∈ f b ↔ name ∈ names

theorem mem_flatMap_names {B : Type} {f : B → List String} {names : List (Set String)} {ys : List B}
    (h : List.Forall₂ (NamesOf f) names ys) (name : String) : name ∈ ys.flatMap f ↔ ∃ a ∈ names, name ∈ a := by
  induction h with
  | nil => simp
  | cons hab _ ih => rw [List.flatMap_cons, List.mem_append, List.exists_mem_cons_iff, hab.2, ih]

/-- **Names are distinct over all** when those of any two elements are disjoint. -/
theorem nodup_flatMap_iff {B : Type} {f : B → List String} {names : List (Set String)} {ys : List B}
    (h : List.Forall₂ (NamesOf f) names ys) : (ys.flatMap f).Nodup ↔ names.Pairwise Disjoint := by
  induction h with
  | nil => simp
  | @cons a b names ys hab hrest ih =>
    have hdisjoint : (f b).Disjoint (ys.flatMap f) ↔ ∀ a' ∈ names, Disjoint a a' := by
      constructor
      · intro h a' ha'
        refine Set.disjoint_left.2 fun name hname hname' => ?_
        exact h ((hab.2 name).2 hname) ((mem_flatMap_names hrest name).2 ⟨a', ha', hname'⟩)
      · intro h name hname hname'
        obtain ⟨a', ha', hmem⟩ := (mem_flatMap_names hrest name).1 hname'
        exact Set.disjoint_left.1 (h a' ha') ((hab.2 name).1 hname) hmem
    rw [List.flatMap_cons, List.nodup_append', List.pairwise_cons, ih, hdisjoint]
    exact ⟨fun h => ⟨h.2.2, h.2.1⟩, fun h => ⟨hab.1, h.2, h.1⟩⟩

/-- the entries of a map are told apart by their keys -/
theorem pairwise_disjoint_iff {V : Type} (m : StrMap V) (names : (Σ _ : String, V) → Set String) :
    (m.entries.map names).Pairwise Disjoint ↔
      ∀ s ∈ m.entries, ∀ t ∈ m.entries, s.1 ≠ t.1 → Disjoint (names s) (names t) := by
  have hnodup : m.entries.Nodup := List.Nodup.of_map _ m.nodupKeys
  have hsymm : Std.Symm fun s t => Disjoint (names s) (names t) := ⟨fun _ _ h => h.symm⟩
  rw [List.pairwise_map]
  constructor
  · intro h s hs t ht hne
    exact h.forall hs ht fun heq => hne (congrArg Sigma.fst heq)
  · intro h
    refine hnodup.pairwise_of_forall_ne fun s hs t ht hne => h s hs t ht fun hkey => hne ?_
    have hs' := AList.mem_lookup_iff.2 hs
    rw [hkey, AList.mem_lookup_iff.2 ht] at hs'
    cases s
    cases t
    cases hkey
    cases hs'
    rfl

theorem mem_keys_iff {V : Type} {m : StrMap V} {key : String} : key ∈ m ↔ ∃ e ∈ m.entries, e.1 = key :=
  List.mem_map

theorem forall_mem_iff {A B : Type} {P : A → Prop} {Q : B → Prop} {l : List A} {ys : List B}
    (h : List.Forall₂ (fun a b => Q b ↔ P a) l ys) : (∀ b ∈ ys, Q b) ↔ ∀ a ∈ l, P a := by
  induction h with
  | nil => simp
  | cons hab _ ih => rw [List.forall_mem_cons, List.forall_mem_cons, hab, ih]

/-! ## What collides -/

/-- the final names of a resource's objects -/
def fullNames (id : String) (keys : Set String) : Set String := (fun key => id ++ "-" ++ key) '' keys

theorem disjoint_fullNames (id : String) (keys keys' : Set String) :
    Disjoint (fullNames id keys) (fullNames id keys') ↔ Disjoint keys keys' := by
  have hinjective : Function.Injective fun key => id ++ "-" ++ key := fun _ _ h => (String.append_right_inj _).1 h
  exact Set.disjoint_image_iff hinjective

/-- the final names of a specification's objects of a kind are those of the keys -/
def Keyed (kind : Kind) (id : String) (keys : Set String) (spec : BuiltSpec) : Prop :=
  NamesOf (fun s : BuiltSpec => s.names kind) (fullNames id keys) spec

/-- **The names of a resource's objects differ** when the keys of any two specifications are disjoint. -/
theorem nodup_names_iff {kind : Kind} {id : String} {keys : List (Set String)} {specs : List BuiltSpec}
    (h : List.Forall₂ (Keyed kind id) keys specs) :
    (specs.flatMap fun s => s.names kind).Nodup ↔ keys.Pairwise Disjoint := by
  rw [nodup_flatMap_iff (List.forall₂_map_left_iff.2 h), List.pairwise_map]
  simp only [disjoint_fullNames]

theorem keyed_deployment {id name : String} {spec : BuiltSpec} (hid : spec.resourceId = id)
    (hname : spec.serviceName = name) : Keyed .deployment id {name} spec := by
  subst hid
  subst hname
  exact ⟨List.nodup_singleton _, fun name => by simp [KubernetesSpec.names, KubernetesSpec.fullName, fullNames]⟩

theorem keyed_service {id : String} {keys : Set String} {spec : BuiltSpec} (hsound : spec.Sound)
    (hid : spec.resourceId = id) (hkeys : ∀ key, key ∈ spec.services.map Prod.fst ↔ key ∈ keys) :
    Keyed .service id keys spec := by
  subst hid
  have hnames : spec.names .service = (spec.services.map Prod.fst).map fun key => spec.resourceId ++ "-" ++ key := by
    rw [List.map_map]
    rfl
  rw [Keyed, NamesOf, hnames]
  constructor
  · exact hsound.1.services.map fun _ _ h => (String.append_right_inj _).1 h
  · intro name
    rw [List.mem_map]
    simp only [hkeys, fullNames, Set.mem_image]

theorem keyed_ingress {id : String} {keys : Set String} {spec : BuiltSpec} (hsound : spec.Sound)
    (hkeys : ∀ name, name ∈ (spec.ingresses.getD []).map Prod.fst ↔ name ∈ fullNames id keys) :
    Keyed .ingress id keys spec :=
  ⟨hsound.1.ingresses.1, hkeys⟩

/-- no two variables of one name and no two mounts at one path -/
def Container.CollisionFree (container : Container) : Prop :=
  (container.env.map (·.name)).Nodup ∧ (container.volumeMounts.map (·.mountPath)).Nodup

/-- no two deployments, services or ingresses of one final name, and none in a container -/
structure CollisionFree (specs : List BuiltSpec) : Prop where
  deployments : (specs.flatMap fun s => s.names .deployment).Nodup
  services : (specs.flatMap fun s => s.names .service).Nodup
  ingresses : (specs.flatMap fun s => s.names .ingress).Nodup
  containers : ∀ s ∈ specs, ∀ c ∈ s.containers, c.CollisionFree

/-! ## Variables -/

/-- the keys that identities write -/
def identityKeys : List String :=
  ["AZURE_TENANT_ID", "AZURE_CLIENT_ID", "AZURE_CLIENT_SECRET", "AZURE_CLIENT_CERTIFICATE", "CONNECTION_STRING",
    "ACCESS_KEY", "AWS_ROLE_ARN", "AWS_WEB_IDENTITY_TOKEN_FILE", "AWS_ACCESS_KEY_ID", "AWS_SECRET_ACCESS_KEY",
    "AWS_REGION"]

theorem mem_singleton_iff {V : Type} (name key : String) (value : V) : key ∈ (AList.singleton name value : StrMap V) ↔ key = name :=
  List.mem_singleton

theorem keys_envVars (identity : ServiceIdentity) (key : String) (h : key ∈ identity.envVars) : key ∈ identityKeys := by
  cases identity with
  | microsoftEntraWorkloadID clientId => exact absurd h (AList.notMem_empty key)
  | microsoftEntraApplication tenantId clientId secret certificate =>
    cases secret <;> cases certificate <;> simp [ServiceIdentity.envVars, identityKeys, mem_singleton_iff] at h ⊢ <;> tauto
  | connectionString value => simp_all [ServiceIdentity.envVars, identityKeys, mem_singleton_iff]
  | accessKey value => simp_all [ServiceIdentity.envVars, identityKeys, mem_singleton_iff]
  | awsIamRole roleArn =>
    simp [ServiceIdentity.envVars, identityKeys, mem_singleton_iff] at h ⊢
    tauto
  | awsIamAccessKey accessKeyId secretAccessKey awsRegion =>
    simp [ServiceIdentity.envVars, identityKeys, mem_singleton_iff] at h ⊢
    tauto

/-- what an identity writes is not what a builder writes, nor does it write it twice -/
theorem identityVars_names (identity : Option ServiceIdentity) :
    ((identityVars identity).map (·.name)).Nodup ∧
      ∀ name ∈ (identityVars identity).map (·.name), name ∈ "IDENTITY_TYPE" :: identityKeys := by
  cases identity with
  | none => simp [identityVars]
  | some identity =>
    have hkeys : ∀ name ∈ (mapEnvVars identity.envVars).map (·.name), name ∈ identityKeys := by
      intro name hname
      exact keys_envVars identity name ((names_mapEnvVars _).mem_iff.1 hname)
    rw [identityVars, List.map_cons]
    constructor
    · have htype : "IDENTITY_TYPE" ∉ identityKeys := by decide
      exact List.nodup_cons.2 ⟨fun hmem => htype (hkeys _ hmem), nodup_mapEnvVars _⟩
    · intro name hname
      rcases List.mem_cons.1 hname with rfl | hmem
      · exact List.mem_cons_self
      · exact List.mem_cons_of_mem _ (hkeys name hmem)

/-- **When an identity's variables meet those of the container**: a name of theirs is a key of the map. -/
theorem nodup_env_iff (env : StrMap ConfigValue) (identity : Option ServiceIdentity) :
    ((mapEnvVars env ++ identityVars identity).map (·.name)).Nodup ↔
      ∀ name ∈ (identityVars identity).map (·.name), env.lookup name = none := by
  rw [List.map_append, List.nodup_append']
  constructor
  · rintro ⟨-, -, hdisjoint⟩ name hname
    refine AList.lookup_eq_none.2 fun hkey => ?_
    exact hdisjoint ((names_mapEnvVars env).mem_iff.2 hkey) hname
  · intro h
    refine ⟨nodup_mapEnvVars env, (identityVars_names identity).1, fun name hname hidentity => ?_⟩
    exact AList.lookup_eq_none.1 (h name hidentity) ((names_mapEnvVars env).mem_iff.1 hname)

/-! ## Sources -/

namespace SourceSpecBuilder

variable {config : BuilderConfig} {instanceId id : String} {source : SourceSpec} {specs : List BuiltSpec}

def platformNames : List String := ["change-router", "change-dispatcher", "query-api"]

/-- the keys of the services of a service: its endpoints', and the proxy's own -/
def serviceKeys (entry : Σ _ : String, Service) : Set String :=
  {key | key ∈ entry.2.endpoints.getD ∅ ∨ entry.1 = "proxy" ∧ key = "proxy"}

def ingressKeys (entry : Σ _ : String, Service) : Set String :=
  {key | ∃ e ∈ (entry.2.endpoints.getD ∅).entries, e.2.setting = .external ∧ e.1 = key}

theorem keyed_buildService {entry : Σ _ : String, Service} {spec : BuiltSpec}
    (h : buildService config instanceId id source entry = some spec) :
    Keyed .deployment id {entry.1} spec ∧ Keyed .service id (serviceKeys entry) spec ∧
      Keyed .ingress id (ingressKeys entry) spec := by
  obtain ⟨hid, hname, ⟨appPort, hservices⟩, hingresses⟩ := buildService_objects h
  have hsound := sound_buildService h
  refine ⟨keyed_deployment hid hname, keyed_service hsound hid fun key => ?_, keyed_ingress hsound fun name => ?_⟩
  · have hmem : key ∈ spec.services.map Prod.fst ↔ ∃ service, serviceAt config id entry appPort key = some service := by
      simp [hservices]
    rw [hmem, serviceKeys, serviceAt]
    split
    · next hproxy => simp [hproxy]
    · next hproxy =>
      rw [Writes.exists_last_iff, EndpointRule.serviceWrites, List.map_map, Set.mem_ofPred_eq, or_iff_left hproxy]
      rfl
  · have hmem : name ∈ (spec.ingresses.getD []).map Prod.fst ↔ ∃ object, Writes.last name
        ((rule config id entry.1).ingressWrites (entry.2.endpoints.getD ∅).entries) = some object := by
      simp [hingresses]
    rw [hmem, Writes.exists_last_iff, EndpointRule.ingressWrites]
    simp [fullNames, ingressKeys, rule]

theorem platformSpecs_keyed :
    List.Forall₂ (Keyed .deployment id) [{"change-router"}, {"change-dispatcher"}, {"query-api"}]
        (platformSpecs config instanceId id) ∧
      List.Forall₂ (Keyed .service id) [∅, ∅, {"query-api"}] (platformSpecs config instanceId id) ∧
      List.Forall₂ (Keyed .ingress id) [∅, ∅, ∅] (platformSpecs config instanceId id) := by
  have hsound : ∀ name image appPort endpoints services,
      (platformSpec config instanceId id name image appPort endpoints services).Sound := sound_platformSpec
  have hnone : ∀ name, name ∈ ([] : List String) ↔ name ∈ fullNames id ∅ := by simp [fullNames]
  refine ⟨?_, ?_, ?_⟩
  · exact .cons (keyed_deployment rfl rfl) (.cons (keyed_deployment rfl rfl) (.cons (keyed_deployment rfl rfl) .nil))
  · refine .cons (keyed_service (hsound _ _ _ _ _) rfl ?_) (.cons (keyed_service (hsound _ _ _ _ _) rfl ?_)
      (.cons (keyed_service (hsound _ _ _ _ _) rfl ?_) .nil))
    all_goals simp [platformSpec, serviceEntries, sorted, sortEntries]
  · exact .cons (keyed_ingress (hsound _ _ _ _ _) hnone) (.cons (keyed_ingress (hsound _ _ _ _ _) hnone)
      (.cons (keyed_ingress (hsound _ _ _ _ _) hnone) .nil))

/-- no service has a name of the platform's, no two services have a key in common, and nothing is configured under the
name of a variable of the identity -/
structure Distinct (source : SourceSpec) : Prop where
  platform : ∀ s ∈ (source.services.getD ∅).entries, s.1 ∉ platformNames ∧ "query-api" ∉ serviceKeys s
  services : ∀ s ∈ (source.services.getD ∅).entries, ∀ t ∈ (source.services.getD ∅).entries, s.1 ≠ t.1 →
    Disjoint (serviceKeys s) (serviceKeys t)
  identity : ∀ s ∈ (source.services.getD ∅).entries, ∀ name ∈ (identityVars source.identity).map (·.name),
    configured source.properties s.2 name = none

theorem ingressKeys_subset (entry : Σ _ : String, Service) : ingressKeys entry ⊆ serviceKeys entry := by
  rintro key ⟨e, he, -, hkey⟩
  exact .inl (mem_keys_iff.2 ⟨e, he, hkey⟩)

/-- the names of all objects of a kind: the platform's, and those of the services -/
theorem nodup_names_build_iff {kind : Kind} {platform : List (Set String)} {keys : (Σ _ : String, Service) → Set String}
    (hplatform : List.Forall₂ (Keyed kind id) platform (platformSpecs config instanceId id))
    (hkeys : ∀ entry spec, buildService config instanceId id source entry = some spec → Keyed kind id (keys entry) spec)
    (hdisjoint : platform.Pairwise Disjoint) (h : build config instanceId id source = some specs) :
    (specs.flatMap fun s => s.names kind).Nodup ↔
      (∀ s ∈ (source.services.getD ∅).entries, ∀ names ∈ platform, Disjoint names (keys s)) ∧
        ∀ s ∈ (source.services.getD ∅).entries, ∀ t ∈ (source.services.getD ∅).entries, s.1 ≠ t.1 →
          Disjoint (keys s) (keys t) := by
  obtain ⟨built, hbuilt, rfl⟩ := Option.map_eq_some_iff.1 h
  have hservices : List.Forall₂ (Keyed kind id) ((source.services.getD ∅).entries.map keys) built :=
    List.forall₂_map_left_iff.2 (forall₂_mapM hkeys hbuilt)
  rw [nodup_names_iff (List.rel_append hplatform hservices), List.pairwise_append, pairwise_disjoint_iff]
  simp only [List.forall_mem_map]
  constructor
  · rintro ⟨-, hmap, hcross⟩
    exact ⟨fun s hs names hnames => hcross names hnames s hs, hmap⟩
  · rintro ⟨hcross, hmap⟩
    exact ⟨hdisjoint, hmap, fun names hnames s hs => hcross s hs names hnames⟩

theorem containers_platformSpecs {spec : BuiltSpec} (h : spec ∈ platformSpecs config instanceId id) :
    ∀ c ∈ spec.containers, c.CollisionFree := by
  simp only [platformSpecs, List.mem_cons, List.not_mem_nil, or_false] at h
  obtain rfl | rfl | rfl := h
  all_goals
    intro c hc
    obtain rfl := List.mem_singleton.1 hc
    exact ⟨nodup_mapEnvVars _, List.nodup_nil⟩

theorem containers_buildService_iff {entry : Σ _ : String, Service} {spec : BuiltSpec}
    (h : buildService config instanceId id source entry = some spec) :
    (∀ c ∈ spec.containers, c.CollisionFree) ↔
      ∀ name ∈ (identityVars source.identity).map (·.name), configured source.properties entry.2 name = none := by
  obtain ⟨-, container, hcontainer, henv, hmounts⟩ := buildService_container h
  have hsource : "SOURCE_ID" ∉ "IDENTITY_TYPE" :: identityKeys := by decide
  have hinstance : "INSTANCE_ID" ∉ "IDENTITY_TYPE" :: identityKeys := by decide
  rw [hcontainer, List.forall_mem_singleton, Container.CollisionFree, henv, hmounts, nodup_env_iff, List.map_nil,
    and_iff_left List.nodup_nil]
  refine forall₂_congr fun name hname => ?_
  have hmem := (identityVars_names source.identity).2 name hname
  rw [lookup_env source entry.2 (ne_of_mem_of_not_mem hmem hsource) (ne_of_mem_of_not_mem hmem hinstance)]

/-- **When the objects of a source do not collide.** -/
theorem collisionFree_iff (h : build config instanceId id source = some specs) :
    CollisionFree specs ↔ Distinct source := by
  have hdeployments := nodup_names_build_iff platformSpecs_keyed.1 (fun _ _ hs => (keyed_buildService hs).1) (by simp) h
  have hservices := nodup_names_build_iff platformSpecs_keyed.2.1 (fun _ _ hs => (keyed_buildService hs).2.1) (by simp) h
  have hingresses := nodup_names_build_iff platformSpecs_keyed.2.2 (fun _ _ hs => (keyed_buildService hs).2.2) (by simp) h
  have hcontainers : (∀ s ∈ specs, ∀ c ∈ s.containers, c.CollisionFree) ↔
      ∀ s ∈ (source.services.getD ∅).entries, ∀ name ∈ (identityVars source.identity).map (·.name),
        configured source.properties s.2 name = none := by
    obtain ⟨built, hbuilt, rfl⟩ := Option.map_eq_some_iff.1 h
    rw [List.forall_mem_append, and_iff_right fun _ => containers_platformSpecs]
    exact forall_mem_iff (forall₂_mapM (fun _ _ => containers_buildService_iff) hbuilt)
  constructor
  · intro hfree
    obtain ⟨hplatform, -⟩ := hdeployments.1 hfree.deployments
    obtain ⟨hquery, hdisjoint⟩ := hservices.1 hfree.services
    refine ⟨fun s hs => ⟨fun hname => ?_, fun hkey => ?_⟩, hdisjoint, hcontainers.1 hfree.containers⟩
    · have hnames := hplatform s hs
      simp [platformNames] at hname hnames
      grind
    · exact Set.disjoint_left.1 (hquery s hs {"query-api"} (by simp)) rfl hkey
  · intro hdistinct
    refine ⟨hdeployments.2 ⟨fun s hs => ?_, fun s _ t _ hne => ?_⟩, hservices.2 ⟨fun s hs => ?_, hdistinct.services⟩,
      hingresses.2 ⟨fun s hs => by simp, fun s hs t ht hne => ?_⟩, hcontainers.2 hdistinct.identity⟩
    · have hname := (hdistinct.platform s hs).1
      simp [platformNames] at hname ⊢
      grind
    · exact Set.disjoint_singleton.2 hne
    · simpa using (hdistinct.platform s hs).2
    · exact (hdistinct.services s hs t ht hne).mono (ingressKeys_subset s) (ingressKeys_subset t)

end SourceSpecBuilder

/-! ## Reactions -/

namespace ReactionSpecBuilder

variable {config : BuilderConfig} {calcHash : ReactionSpec → String} {instanceId id : String} {reaction : ReactionSpec}
  {specs : List BuiltSpec}

/-- the keys of the services of a service -/
def serviceKeys (entry : Σ _ : String, Service) : Set String :=
  {key | ∃ e ∈ (entry.2.endpoints.getD ∅).entries, serviceKey entry.1 e = key}

def Exposes (service : Service) : Prop := ∃ e ∈ (service.endpoints.getD ∅).entries, e.2.setting = .external

def ingressKeys (entry : Σ _ : String, Service) : Set String := {key | Exposes entry.2 ∧ key = "reaction-ingress"}

theorem keyed_buildService {entry : Σ _ : String, Service} {spec : BuiltSpec}
    (h : buildService config calcHash instanceId id reaction entry = some spec) :
    Keyed .deployment id {entry.1} spec ∧ Keyed .service id (serviceKeys entry) spec ∧
      Keyed .ingress id (ingressKeys entry) spec := by
  obtain ⟨hid, hname, hservices, hingresses⟩ := buildService_objects h
  have hsound := sound_buildService h
  refine ⟨keyed_deployment hid hname, keyed_service hsound hid fun key => ?_, keyed_ingress hsound fun name => ?_⟩
  · have hmem : key ∈ spec.services.map Prod.fst ↔ ∃ service, Writes.last key
        ((rule config id entry.1).serviceWrites (entry.2.endpoints.getD ∅).entries) = some service := by
      simp [hservices]
    rw [hmem, Writes.exists_last_iff, EndpointRule.serviceWrites, List.map_map]
    exact List.mem_map
  · have hmem : name ∈ (spec.ingresses.getD []).map Prod.fst ↔ ∃ object, Writes.last name
        ((rule config id entry.1).ingressWrites (entry.2.endpoints.getD ∅).entries) = some object := by
      simp [hingresses]
    have happend : id ++ "-" ++ "reaction-ingress" = id ++ "-reaction-ingress" := String.append_assoc
    rw [hmem, Writes.exists_last_iff, EndpointRule.ingressWrites]
    simp [fullNames, ingressKeys, Exposes, rule, happend, eq_comm]

/-- no two services have a key in common, at most one has an external endpoint, and no property has the name of a
variable of the identity -/
structure Distinct (reaction : ReactionSpec) : Prop where
  services : ∀ s ∈ (reaction.services.getD ∅).entries, ∀ t ∈ (reaction.services.getD ∅).entries, s.1 ≠ t.1 →
    Disjoint (serviceKeys s) (serviceKeys t)
  exposed : ∀ s ∈ (reaction.services.getD ∅).entries, ∀ t ∈ (reaction.services.getD ∅).entries, s.1 ≠ t.1 →
    Exposes s.2 → ¬ Exposes t.2
  identity : (reaction.services.getD ∅).entries ≠ [] → ∀ name ∈ (identityVars reaction.identity).map (·.name),
    (reaction.properties.getD ∅).lookup name = none

theorem nodup_names_build_iff {kind : Kind} {keys : (Σ _ : String, Service) → Set String}
    (hkeys : ∀ entry spec, buildService config calcHash instanceId id reaction entry = some spec →
      Keyed kind id (keys entry) spec) (h : build config calcHash instanceId id reaction = some specs) :
    (specs.flatMap fun s => s.names kind).Nodup ↔
      ∀ s ∈ (reaction.services.getD ∅).entries, ∀ t ∈ (reaction.services.getD ∅).entries, s.1 ≠ t.1 →
        Disjoint (keys s) (keys t) := by
  rw [nodup_names_iff (List.forall₂_map_left_iff.2 (forall₂_mapM hkeys h)), pairwise_disjoint_iff]

theorem disjoint_ingressKeys_iff (s t : Σ _ : String, Service) :
    Disjoint (ingressKeys s) (ingressKeys t) ↔ (Exposes s.2 → ¬ Exposes t.2) := by
  rw [Set.disjoint_left]
  constructor
  · intro h hs ht
    exact h ⟨hs, rfl⟩ ⟨ht, rfl⟩
  · rintro h key ⟨hs, -⟩ ⟨ht, -⟩
    exact h hs ht

theorem containers_buildService_iff {entry : Σ _ : String, Service} {spec : BuiltSpec}
    (h : buildService config calcHash instanceId id reaction entry = some spec) :
    (∀ c ∈ spec.containers, c.CollisionFree) ↔
      ∀ name ∈ (identityVars reaction.identity).map (·.name), (reaction.properties.getD ∅).lookup name = none := by
  obtain ⟨-, container, hcontainer, henv, hmounts⟩ := buildService_container h
  have hbuilder : ∀ key ∈ ["CONFIG_HASH", "INSTANCE_ID", "PubsubName"], key ∉ "IDENTITY_TYPE" :: identityKeys := by decide
  rw [hcontainer, List.forall_mem_singleton, Container.CollisionFree, henv, hmounts, nodup_env_iff, List.map_singleton,
    and_iff_left (List.nodup_singleton _)]
  refine forall₂_congr fun name hname => ?_
  have hne : ∀ key ∈ ["CONFIG_HASH", "INSTANCE_ID", "PubsubName"], name ≠ key := fun key hkey =>
    ne_of_mem_of_not_mem ((identityVars_names reaction.identity).2 name hname) (hbuilder key hkey)
  rw [env, AList.lookup_insert_ne (hne _ (by simp)), AList.lookup_insert_ne (hne _ (by simp)),
    AList.lookup_insert_ne (hne _ (by simp))]

/-- **When the objects of a reaction do not collide.** -/
theorem collisionFree_iff (h : build config calcHash instanceId id reaction = some specs) :
    CollisionFree specs ↔ Distinct reaction := by
  have hdeployments := nodup_names_build_iff (fun _ _ hs => (keyed_buildService hs).1) h
  have hservices := nodup_names_build_iff (fun _ _ hs => (keyed_buildService hs).2.1) h
  have hingresses := nodup_names_build_iff (fun _ _ hs => (keyed_buildService hs).2.2) h
  have hcontainers := forall_mem_iff (forall₂_mapM (fun _ _ => containers_buildService_iff) h)
  simp only [disjoint_ingressKeys_iff] at hingresses
  constructor
  · intro hfree
    refine ⟨hservices.1 hfree.services, hingresses.1 hfree.ingresses, fun hsome => ?_⟩
    obtain ⟨s, hs⟩ := List.exists_mem_of_ne_nil _ hsome
    exact hcontainers.1 hfree.containers s hs
  · intro hdistinct
    refine ⟨hdeployments.2 fun s _ t _ hne => Set.disjoint_singleton.2 hne, hservices.2 hdistinct.services,
      hingresses.2 hdistinct.exposed, hcontainers.2 fun s hs => ?_⟩
    exact hdistinct.identity (List.ne_nil_of_mem hs)

end ReactionSpecBuilder

/-! ## Query containers -/

namespace QueryContainerSpecBuilder

variable (config : BuilderConfig) (instanceId id : String) (queryHostCount : UInt16) (spec : QueryContainerSpec)

theorem mem_volumes_iff (stores : List (Σ _ : String, StorageSpec)) (name path : String) :
    (name, path) ∈ sorted (insertVolumes id ∅ stores) ↔ path = "/data" ∧ ∃ claim ∈ storeClaims id stores, claim.1 = name := by
  rw [mem_sorted_iff, lookup_insertVolumes, AList.lookup_empty, Option.or_none]
  constructor
  · intro hlast
    obtain ⟨claim, hclaim, heq⟩ := List.mem_map.1 (Writes.mem_of_last hlast)
    cases heq
    exact ⟨rfl, claim, hclaim, rfl⟩
  · rintro ⟨rfl, claim, hclaim, rfl⟩
    have hwritten : claim.1 ∈ ((storeClaims id stores).map fun c => (c.1, "/data")).map Prod.fst := by
      rw [List.map_map]
      exact List.mem_map.2 ⟨claim, hclaim, rfl⟩
    obtain ⟨path, hpath⟩ := (Writes.exists_last_iff _ _).2 hwritten
    obtain ⟨other, -, heq⟩ := List.mem_map.1 (Writes.mem_of_last hpath)
    obtain ⟨-, rfl⟩ := Prod.mk.inj heq
    exact hpath

/-- every volume is mounted at the one path -/
theorem nodup_mounts_iff (stores : List (Σ _ : String, StorageSpec)) :
    ((sorted (insertVolumes id ∅ stores)).map Prod.snd).Nodup ↔
      ∀ c ∈ storeClaims id stores, ∀ c' ∈ storeClaims id stores, c.1 = c'.1 := by
  constructor
  · intro hnodup c hc c' hc'
    have hmem := (mem_volumes_iff id stores c.1 "/data").2 ⟨rfl, c, hc, rfl⟩
    have hmem' := (mem_volumes_iff id stores c'.1 "/data").2 ⟨rfl, c', hc', rfl⟩
    have hsame : (c.1, "/data") = (c'.1, "/data") := List.inj_on_of_nodup_map hnodup hmem hmem' rfl
    exact (Prod.mk.inj hsame).1
  · intro hsame
    have hnodup : (sorted (insertVolumes id ∅ stores)).Nodup := List.Nodup.of_map _ (nodup_keys_sorted _)
    refine hnodup.map_on ?_
    rintro ⟨name, path⟩ hmem ⟨name', path'⟩ hmem' (hpath : path = path')
    obtain ⟨-, c, hc, rfl⟩ := (mem_volumes_iff id stores name path).1 hmem
    obtain ⟨-, c', hc', rfl⟩ := (mem_volumes_iff id stores name' path').1 hmem'
    rw [hsame c hc c' hc', hpath]

theorem containers_queryHost_iff :
    (∀ c ∈ (queryHost config id queryHostCount spec).containers, c.CollisionFree) ↔
      ((sorted (insertVolumes id ∅ spec.storage.entries)).map Prod.snd).Nodup := by
  have hmounts : ∀ mounts : List (String × String),
      ((mounts.map fun v : String × String => (⟨v.1, none, v.2⟩ : VolumeMount)) ++ []).map VolumeMount.mountPath = mounts.map Prod.snd := by
    intro mounts
    rw [List.append_nil, List.map_map]
    rfl
  refine List.forall_mem_singleton.trans ((and_iff_right (nodup_mapEnvVars _)).trans ?_)
  rw [← hmounts]
  rfl

/-- **When the objects of a query container do not collide**: the claims of the RocksDb stores have one name. -/
theorem collisionFree_iff :
    CollisionFree (build config instanceId id queryHostCount spec) ↔
      ∀ c ∈ storeClaims id spec.storage.entries, ∀ c' ∈ storeClaims id spec.storage.entries, c.1 = c'.1 := by
  rw [← nodup_mounts_iff, ← containers_queryHost_iff config id queryHostCount spec]
  constructor
  · intro h
    exact h.containers _ (by simp [build])
  · intro h
    refine ⟨?_, ?_, ?_, ?_⟩
    · simp [build, KubernetesSpec.names, KubernetesSpec.fullName, publishApi, queryHost, viewSvc, serviceSpec]
    · simp [build, KubernetesSpec.names, publishApi, queryHost, viewSvc, serviceSpec, serviceEntries, sorted, sortEntries]
    · simp [build, KubernetesSpec.names, publishApi, queryHost, viewSvc, serviceSpec]
    · simp only [build, List.forall_mem_cons]
      refine ⟨?_, h, ?_, by simp⟩
      · exact List.forall_mem_singleton.2 ⟨nodup_mapEnvVars _, List.nodup_nil⟩
      · exact List.forall_mem_singleton.2 ⟨nodup_mapEnvVars _, List.nodup_nil⟩

end QueryContainerSpecBuilder

/-! ## The three builders -/

/-- **Generated objects do not collide**, for a source and a reaction, if and only if the request keeps clear of the names
of the platform and of the identity, and its services of one another's; for a query container, if and only if its RocksDb
stores have one claim at most. -/
theorem specs_collision_free_iff (config : BuilderConfig) (calcHash : ReactionSpec → String) (instanceId id : String)
    (source : SourceSpec) (reaction : ReactionSpec) (queryHostCount : UInt16) (container : QueryContainerSpec)
    {sourceSpecs reactionSpecs : List BuiltSpec}
    (hsource : SourceSpecBuilder.build config instanceId id source = some sourceSpecs)
    (hreaction : ReactionSpecBuilder.build config calcHash instanceId id reaction = some reactionSpecs) :
    (CollisionFree sourceSpecs ↔ SourceSpecBuilder.Distinct source) ∧
    (CollisionFree reactionSpecs ↔ ReactionSpecBuilder.Distinct reaction) ∧
    (CollisionFree (QueryContainerSpecBuilder.build config instanceId id queryHostCount container) ↔
      ∀ c ∈ QueryContainerSpecBuilder.storeClaims id container.storage.entries,
        ∀ c' ∈ QueryContainerSpecBuilder.storeClaims id container.storage.entries, c.1 = c'.1) :=
  ⟨SourceSpecBuilder.collisionFree_iff hsource, ReactionSpecBuilder.collisionFree_iff hreaction,
    QueryContainerSpecBuilder.collisionFree_iff config instanceId id queryHostCount container⟩

/-- a query container with RocksDb stores of the names -/
def rocksContainer (stores : StrMap StorageSpec) : QueryContainerSpec := ⟨∅, stores, "default"⟩

def rocksStore : StrMap StorageSpec := AList.singleton "default" (.rocksDb false none false)

/-- a source and a reaction with one service, a query container with one store -/
theorem specs_collision_free_single :
    ∃ sourceSpecs reactionSpecs,
      SourceSpecBuilder.build defaultConfig "drasi" "r1" (exposingSource (exposing "webhook" webhook)) = some sourceSpecs ∧
      ReactionSpecBuilder.build defaultConfig (fun _ => "0") "drasi" "r1" (exposingReaction (exposing "reaction" webhook)) =
        some reactionSpecs ∧
      CollisionFree sourceSpecs ∧ CollisionFree reactionSpecs ∧
      CollisionFree (QueryContainerSpecBuilder.build defaultConfig "drasi" "r1" 1 (rocksContainer rocksStore)) := by
  refine ⟨_, _, rfl, rfl, ?_⟩
  obtain ⟨hsource, hreaction, hcontainer⟩ := specs_collision_free_iff defaultConfig (fun _ => "0") "drasi" "r1"
    (exposingSource (exposing "webhook" webhook)) (exposingReaction (exposing "reaction" webhook)) 1
    (rocksContainer rocksStore) rfl rfl
  have hone : ∀ (s t : Σ _ : String, Service) (name : String), s ∈ ((exposing name webhook).getD ∅).entries →
      t ∈ ((exposing name webhook).getD ∅).entries → s.1 = t.1 := by
    intro s t name hs ht
    rw [List.mem_singleton.1 hs, List.mem_singleton.1 ht]
  refine ⟨hsource.2 ⟨?_, ?_, ?_⟩, hreaction.2 ⟨?_, ?_, ?_⟩, hcontainer.2 ?_⟩
  · intro s hs
    obtain rfl := List.mem_singleton.1 hs
    refine ⟨by decide, ?_⟩
    rintro (hkey | ⟨hproxy, -⟩)
    · exact absurd ((mem_singleton_iff _ _ _).1 hkey) (by decide)
    · exact absurd hproxy (by decide)
  · exact fun s hs t ht hne => absurd (hone s t _ hs ht) hne
  · exact fun _ _ name hname => absurd hname (List.not_mem_nil)
  · exact fun s hs t ht hne => absurd (hone s t _ hs ht) hne
  · exact fun s hs t ht hne => absurd (hone s t _ hs ht) hne
  · exact fun _ name hname => absurd hname (List.not_mem_nil)
  · intro c hc c' hc'
    rw [List.mem_singleton.1 hc, List.mem_singleton.1 hc']

/-- two services, each with an external endpoint -/
def twoServices : Option (StrMap Service) :=
  (exposing "api" webhook).map fun services => services.insert "ui" ⟨none, "image", none, some webhook, none, none⟩

/-- a source's service `query-api`, two services of a reaction with an external endpoint each, two RocksDb stores -/
theorem specs_collide :
    (∃ specs, SourceSpecBuilder.build defaultConfig "drasi" "s1" (exposingSource (exposing "query-api" webhook)) =
        some specs ∧ ¬ CollisionFree specs) ∧
    (∃ specs, ReactionSpecBuilder.build defaultConfig (fun _ => "0") "drasi" "r1" (exposingReaction twoServices) =
        some specs ∧ ¬ CollisionFree specs) ∧
    ¬ CollisionFree (QueryContainerSpecBuilder.build defaultConfig "drasi" "c1" 1
        (rocksContainer (rocksStore.insert "archive" (.rocksDb true none false)))) := by
  refine ⟨?_, ?_, fun h => ?_⟩
  · obtain ⟨specs, hspecs⟩ : ∃ specs, SourceSpecBuilder.build defaultConfig "drasi" "s1"
        (exposingSource (exposing "query-api" webhook)) = some specs := ⟨_, rfl⟩
    refine ⟨specs, hspecs, fun h => ?_⟩
    have hdistinct := (SourceSpecBuilder.collisionFree_iff hspecs).1 h
    exact (hdistinct.platform _ (List.mem_singleton.2 rfl)).1 (by decide)
  · obtain ⟨specs, hspecs⟩ : ∃ specs, ReactionSpecBuilder.build defaultConfig (fun _ => "0") "drasi" "r1"
        (exposingReaction twoServices) = some specs := ⟨_, rfl⟩
    refine ⟨specs, hspecs, fun h => ?_⟩
    have hdistinct := (ReactionSpecBuilder.collisionFree_iff hspecs).1 h
    have hexposes : ReactionSpecBuilder.Exposes ⟨none, "image", none, some webhook, none, none⟩ :=
      ⟨_, List.mem_singleton.2 rfl, rfl⟩
    exact hdistinct.exposed _ List.mem_cons_self _ (List.mem_cons_of_mem _ List.mem_cons_self) (by decide) hexposes hexposes
  · have hsame := (QueryContainerSpecBuilder.collisionFree_iff _ _ _ _ _).1 h _ List.mem_cons_self _
      (List.mem_cons_of_mem _ List.mem_cons_self)
    revert hsame
    decide

end DrasiPlatform.Provider
