/-
What the reconciler relies on, of the specifications that the builders make: every specification of a source and of a
reaction is `WellFormed`, and none is marked as removed.

The builders collect services and ingresses in maps, so the keys differ, and an ingress is inserted under its own name
(`Exposed.Named`). The name of a reaction's config map ends in `-queries`, so it is not `drasi-config`. An identity
changes the pods, and a service account that has a name.

- `Sound.identified`: the last step of the builders keeps a specification sound.
- `SourceSpecBuilder.build_sound`, `ReactionSpecBuilder.build_sound`.
-/
import Mathlib.Tactic
import DrasiPlatform.Provider.SpecBuilder

namespace DrasiPlatform.Provider

/-! ## Maps in the order of their keys -/

theorem sortEntries_perm {V : Type} (l : List (String × V)) : (sortEntries l).Perm l := List.mergeSort_perm _ _

theorem nodup_keys_sorted {V : Type} (m : StrMap V) : ((sorted m).map Prod.fst).Nodup := by
  have hperm := (sortEntries_perm (m.entries.map fun e => (e.1, e.2))).map Prod.fst
  rw [sorted, hperm.nodup_iff, List.map_map]
  exact m.nodupKeys

theorem mem_sorted {V : Type} {m : StrMap V} {p : String × V} (h : p ∈ sorted m) : m.lookup p.1 = some p.2 := by
  obtain ⟨e, he, rfl⟩ := List.mem_map.1 ((sortEntries_perm _).mem_iff.1 h)
  exact AList.mem_lookup_iff.2 he

/-! ## Loops -/

/-- what every turn of a loop keeps holds after it -/
theorem foldlM_keeps {α β : Type} {f : β → α → Option β} {P : β → Prop} (hf : ∀ b a b', f b a = some b' → P b → P b')
    {l : List α} {b b' : β} (h : l.foldlM f b = some b') (hb : P b) : P b' := by
  induction l generalizing b with
  | nil =>
    cases h
    exact hb
  | cons a l ih =>
    rw [List.foldlM_cons] at h
    obtain ⟨b₁, hfirst, hrest⟩ := Option.bind_eq_some_iff.1 h
    exact ih hrest (hf b a b₁ hfirst hb)

theorem exists_of_mem_mapM {α β : Type} {f : α → Option β} {l : List α} {ys : List β} (h : l.mapM f = some ys) {y : β}
    (hy : y ∈ ys) : ∃ a ∈ l, f a = some y := by
  induction l generalizing ys with
  | nil =>
    cases h
    cases hy
  | cons a l ih =>
    rw [List.mapM_cons] at h
    obtain ⟨b, hb, h⟩ := Option.bind_eq_some_iff.1 h
    obtain ⟨bs, hbs, h⟩ := Option.bind_eq_some_iff.1 h
    cases h
    rcases List.mem_cons.1 hy with rfl | hmem
    · exact ⟨a, List.mem_cons_self, hb⟩
    · obtain ⟨a', ha', hy'⟩ := ih hbs hmem
      exact ⟨a', List.mem_cons_of_mem a ha', hy'⟩

/-! ## Exposed endpoints -/

/-- an ingress is listed under its own name -/
def Exposed.Named (exposed : Exposed) : Prop :=
  ∀ name ingress, exposed.ingresses.lookup name = some ingress → ingress.metadata.name = some name

theorem Exposed.named_none : Exposed.none.Named := by
  intro name ingress h
  cases h

theorem Exposed.Named.insert {exposed : Exposed} (h : exposed.Named) (services : StrMap ServiceSpec) (ports : StrMap ℤ)
    {name : String} {ingress : Object Detail} (hname : ingress.metadata.name = some name) :
    (Exposed.mk services (exposed.ingresses.insert name ingress) ports).Named := by
  intro name' ingress' hlookup
  by_cases heq : name' = name
  · subst heq
    obtain rfl : ingress = ingress' := by simpa [AList.lookup_insert] using hlookup
    exact hname
  · have hold : exposed.ingresses.lookup name' = some ingress' := by simpa [AList.lookup_insert_ne heq] using hlookup
    exact h name' ingress' hold

theorem Exposed.Named.listed {exposed : Exposed} (h : exposed.Named) : Listed (sorted exposed.ingresses) :=
  ⟨nodup_keys_sorted _, fun p hp => h p.1 p.2 (mem_sorted hp)⟩

theorem nodup_serviceEntries (services : StrMap ServiceSpec) : ((serviceEntries services).map Prod.fst).Nodup := by
  rw [serviceEntries, List.map_map]
  exact nodup_keys_sorted services

/-! ## Identities -/

/-- well formed, and not marked as removed -/
def BuiltSpec.Sound (spec : BuiltSpec) : Prop := WellFormed spec.toKubernetesSpec ∧ spec.removed = false

namespace BuiltSpec

theorem mapPod_eq (f : PodTemplate → PodTemplate) (spec : BuiltSpec) :
    ∃ deployment, spec.mapPod f = { spec with deployment := deployment } := by
  unfold mapPod
  split
  · exact ⟨_, rfl⟩
  · exact ⟨spec.deployment, rfl⟩

theorem Sound.mapPod {spec : BuiltSpec} (h : spec.Sound) (f : PodTemplate → PodTemplate) : (spec.mapPod f).Sound := by
  obtain ⟨deployment, hspec⟩ := mapPod_eq f spec
  rw [hspec]
  exact ⟨⟨h.1.configMaps, h.1.volumeClaims, h.1.ingresses, h.1.services, h.1.pubSub, h.1.serviceAccount, h.1.drasiConfig⟩,
    h.2⟩

/-- another account may take the place of the old one, if it has a name -/
theorem Sound.withAccount {spec : BuiltSpec} (h : spec.Sound) {account : Option (Object Detail)}
    (haccount : ∀ a ∈ account, a.metadata.name.isSome) :
    ({ spec with serviceAccount := account } : BuiltSpec).Sound :=
  ⟨⟨h.1.configMaps, h.1.volumeClaims, h.1.ingresses, h.1.services, h.1.pubSub, haccount, h.1.drasiConfig⟩, h.2⟩

theorem Sound.withServiceAccount {spec : BuiltSpec} (h : spec.Sound) : spec.withServiceAccount.Sound := by
  unfold BuiltSpec.withServiceAccount
  split
  · exact h
  · refine Sound.mapPod (h.withAccount fun a ha => ?_) _
    cases ha
    rfl

theorem Sound.annotateAccount {spec : BuiltSpec} (h : spec.Sound) (key value : String) :
    (spec.annotateAccount key value).Sound := by
  refine h.withAccount fun a ha => ?_
  obtain ⟨account, haccount, rfl⟩ := Option.map_eq_some_iff.1 ha
  exact h.1.serviceAccount account haccount

theorem Sound.markIdentity {spec spec' : BuiltSpec} (h : spec.Sound) {identity : ServiceIdentity}
    (hspec : spec.markIdentity identity = some spec') : spec'.Sound := by
  unfold BuiltSpec.markIdentity at hspec
  split at hspec
  · cases hspec
    exact (h.annotateAccount _ _).mapPod _
  · cases hspec
    exact h.annotateAccount _ _
  · cases hspec
  · cases hspec
    exact h

/-- **An identity keeps a specification sound.** -/
theorem Sound.identified {spec spec' : BuiltSpec} (h : spec.Sound) {identity : Option ServiceIdentity}
    (hspec : Provider.identified identity spec = some spec') : spec'.Sound := by
  cases identity with
  | none =>
    cases hspec
    exact h
  | some identity =>
    obtain ⟨marked, hmarked, rfl⟩ := Option.map_eq_some_iff.1 hspec
    exact (h.withServiceAccount.markIdentity hmarked).mapPod _

end BuiltSpec

/-! ## Sources -/

namespace SourceSpecBuilder

variable {config : BuilderConfig} {instanceId id : String}

theorem named_addEndpoint {serviceName : String} (exposed : Exposed) (endpoint : Σ _ : String, Endpoint)
    (exposed' : Exposed) (h : addEndpoint config id serviceName exposed endpoint = some exposed') (hnamed : exposed.Named) :
    exposed'.Named := by
  obtain ⟨port, -, h⟩ := Option.bind_eq_some_iff.1 h
  cases hsetting : endpoint.2.setting with
  | internal =>
    rw [hsetting] at h
    cases h
    exact hnamed
  | external =>
    rw [hsetting] at h
    cases h
    exact hnamed.insert _ _ rfl

theorem sound_platformSpec (serviceName image : String) (appPort : ℕ) (endpoints : Option (StrMap ℤ))
    (services : StrMap ServiceSpec) :
    (platformSpec config instanceId id serviceName image appPort endpoints services).Sound where
  left :=
    { configMaps := ⟨List.nodup_nil, by simp [platformSpec]⟩
      volumeClaims := ⟨List.nodup_nil, by simp [platformSpec]⟩
      ingresses := ⟨List.nodup_nil, by simp [platformSpec]⟩
      services := nodup_serviceEntries services
      pubSub := by simp [platformSpec]
      serviceAccount := by simp [platformSpec]
      drasiConfig := by simp [platformSpec] }
  right := rfl

theorem sound_applyProxySvc {spec : BuiltSpec} (h : spec.Sound) (appPort : Option ℕ) : (applyProxySvc spec appPort).Sound := by
  refine ⟨⟨h.1.configMaps, h.1.volumeClaims, h.1.ingresses, ?_, h.1.pubSub, h.1.serviceAccount, h.1.drasiConfig⟩, h.2⟩
  have hperm := (sortEntries_perm (("proxy", Detail.service (clusterIp (drasiLabels spec.resourceType spec.resourceId
    spec.serviceName) none 80 (.inl ((appPort.getD 80 : ℕ) : ℤ)))) :: spec.services.filter fun e => e.1 ≠ "proxy")).map
    Prod.fst
  refine hperm.nodup_iff.2 (List.nodup_cons.2 ⟨?_, ?_⟩)
  · simp
  · exact h.1.services.sublist (List.filter_sublist.map Prod.fst)

/-- the specification of a service before the proxy's service and the identity are added -/
theorem sound_serviceSpec {exposed : Exposed} (hnamed : exposed.Named) {name : String} {deployment : DeploymentSpec Detail} :
    BuiltSpec.Sound
      { resourceType := .source
        resourceId := id
        serviceName := name
        deployment := deployment
        services := serviceEntries exposed.services
        configMaps := []
        volumeClaims := []
        ingresses := if exposed.ingresses.entries = [] then none else some (sorted exposed.ingresses)
        pubSub := none
        serviceAccount := none
        removed := false } := by
  have hingresses : Listed ((if exposed.ingresses.entries = [] then none else some (sorted exposed.ingresses)).getD []) := by
    split
    · exact ⟨List.nodup_nil, by simp⟩
    · exact hnamed.listed
  refine ⟨?_, rfl⟩
  exact
    { configMaps := ⟨List.nodup_nil, by simp⟩
      volumeClaims := ⟨List.nodup_nil, by simp⟩
      ingresses := hingresses
      services := nodup_serviceEntries exposed.services
      pubSub := by simp
      serviceAccount := by simp
      drasiConfig := by simp }

theorem sound_buildService {source : SourceSpec} {entry : Σ _ : String, Service} {spec : BuiltSpec}
    (h : buildService config instanceId id source entry = some spec) : spec.Sound := by
  obtain ⟨appPort, -, h⟩ := Option.bind_eq_some_iff.1 h
  obtain ⟨exposed, hexposed, h⟩ := Option.bind_eq_some_iff.1 h
  have hnamed : exposed.Named := foldlM_keeps named_addEndpoint hexposed Exposed.named_none
  refine BuiltSpec.Sound.identified ?_ h
  split
  · exact sound_applyProxySvc (sound_serviceSpec hnamed) appPort
  · exact sound_serviceSpec hnamed

/-- **Every specification of a source is sound.** -/
theorem build_sound {source : SourceSpec} {specs : List BuiltSpec} (h : build config instanceId id source = some specs)
    {spec : BuiltSpec} (hspec : spec ∈ specs) : spec.Sound := by
  obtain ⟨built, hbuilt, rfl⟩ := Option.map_eq_some_iff.1 h
  rcases List.mem_append.1 hspec with hplatform | hservice
  · simp only [platformSpecs, List.mem_cons, List.not_mem_nil, or_false] at hplatform
    rcases hplatform with rfl | rfl | rfl
    · exact sound_platformSpec _ _ _ _ _
    · exact sound_platformSpec _ _ _ _ _
    · exact sound_platformSpec _ _ _ _ _
  · obtain ⟨entry, -, hentry⟩ := exists_of_mem_mapM hbuilt hservice
    exact sound_buildService hentry

end SourceSpecBuilder

/-! ## Reactions -/

namespace ReactionSpecBuilder

variable {config : BuilderConfig} {calcHash : ReactionSpec → String} {instanceId id : String}

theorem named_addEndpoint {serviceName : String} (exposed : Exposed) (endpoint : Σ _ : String, Endpoint)
    (exposed' : Exposed) (h : addEndpoint config id serviceName exposed endpoint = some exposed') (hnamed : exposed.Named) :
    exposed'.Named := by
  obtain ⟨port, -, h⟩ := Option.bind_eq_some_iff.1 h
  cases hsetting : endpoint.2.setting with
  | internal =>
    rw [hsetting] at h
    cases h
    exact hnamed
  | external =>
    rw [hsetting] at h
    cases h
    exact hnamed.insert _ _ rfl

/-- a name ending in `-queries` is not that of the platform's own config map -/
theorem configName_ne (text : String) : "drasi-config" ≠ text ++ "-queries" := by
  intro h
  have hlast : "drasi-config".toList.getLast? = (text ++ "-queries").toList.getLast? := by rw [h]
  have hg : "drasi-config".toList.getLast? = some 'g' := by decide
  have hs : "-queries".toList.getLast? = some 's' := by decide
  rw [String.toList_append, List.getLast?_append, hg, hs] at hlast
  exact absurd hlast (by simp)

theorem sound_buildService {reaction : ReactionSpec} {entry : Σ _ : String, Service} {spec : BuiltSpec}
    (h : buildService config calcHash instanceId id reaction entry = some spec) : spec.Sound := by
  obtain ⟨appPort, -, h⟩ := Option.bind_eq_some_iff.1 h
  obtain ⟨exposed, hexposed, h⟩ := Option.bind_eq_some_iff.1 h
  obtain ⟨replica, -, h⟩ := Option.bind_eq_some_iff.1 h
  have hnamed : exposed.Named := foldlM_keeps named_addEndpoint hexposed Exposed.named_none
  refine BuiltSpec.Sound.identified ⟨?_, rfl⟩ h
  exact
    { configMaps := ⟨List.nodup_singleton _, by simp⟩
      volumeClaims := ⟨List.nodup_nil, by simp⟩
      ingresses := hnamed.listed
      services := nodup_serviceEntries exposed.services
      pubSub := by simp
      serviceAccount := by simp
      drasiConfig := by simpa using configName_ne _ }

/-- **Every specification of a reaction is sound.** -/
theorem build_sound {reaction : ReactionSpec} {specs : List BuiltSpec}
    (h : build config calcHash instanceId id reaction = some specs) {spec : BuiltSpec} (hspec : spec ∈ specs) :
    spec.Sound := by
  obtain ⟨entry, -, hentry⟩ := exists_of_mem_mapM h hspec
  exact sound_buildService hentry

end ReactionSpecBuilder

end DrasiPlatform.Provider
