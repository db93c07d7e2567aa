/-
The queries that a reaction hears of, from its specification to the topics: the objects of `ReactionSpecBuilder::build`, the
directory that Kubernetes makes of the config map in them, and how the three reaction SDKs go through it: `Reaction` and
`QueryConfigService.cs` of the .NET SDK, `start` of the JavaScript SDK (`index.ts`), `subscribe` of the Python SDK (`sdk.py`).
A query host publishes the results of a query in the topic of its id (`ResultPublisher::publish`).

The entries of a directory come in any order. A config map is mounted as a directory of its version, a link `..data` to it,
and a link for each key; the JavaScript and the Python SDK leave out what begins with a dot, the .NET SDK what is no file.
`stem` is that of `pathlib` before Python 3.14. A reaction of the JavaScript SDK is one that reads its configurations.

- `dotNet_hears`, `javaScript_hears`, `python_hears`: a .NET reaction hears of the queries of its specification, a JavaScript
  reaction of those that do not begin with a dot, a Python reaction of the stems of those that do not.
- `python_exact_iff`: the stems of names are these names exactly when no name is hidden and none has a suffix.
- `reaction_hears`: so .NET hears of exactly the queries of the reaction, and Python does exactly when their ids are plain;
  what is heard of has its configuration.
Witness: `reaction_hears_dotted`.
-/
import Mathlib.Tactic
import DrasiPlatform.Core.FileTree
import DrasiPlatform.Provider.BuiltObjects
import DrasiPlatform.Provider.ContainerEnv

namespace DrasiPlatform.Subscriptions

open Provider

/-! ## The pod of a service -/

/-- an entry of a directory: a file with its text, or no file -/
structure Entry where
  name : String
  file : Option String

/-- a config map where it is mounted -/
def mounted (version : String) (data : Entries) : List Entry :=
  ⟨".." ++ version, none⟩ :: ⟨"..data", none⟩ :: data.map fun e => ⟨e.1, some e.2⟩

/-- the volumes of the pods of a deployment -/
def volumes : Detail → List Volume
  | .deployment _ template => template.volumes
  | _ => []

def configMapOf (name : String) : Volume → Option String
  | .configMap volume => if volume = name then some volume else none
  | .persistentVolumeClaim _ => none

/-- the config map that a container mounts at a path -/
def configMapAt (spec : BuiltSpec) (container : Container) (path : String) : Option Entries := do
  let mount ← container.volumeMounts.find? fun m => m.mountPath = path
  let name ← (volumes spec.deployment.rest).findSome? (configMapOf mount.name)
  let object ← spec.configMaps.lookup name
  match object.body with
  | .configMap data _ => data
  | _ => none

/-- what the processes of a pod see of it -/
structure Pod where
  environment : String → Option String
  directory : String → Option (List Entry)

/-- the variables are those of the container, and where a config map is mounted its entries are, in some order -/
structure Pod.Runs (pod : Pod) (secrets : String → String → String) (version : String) (spec : BuiltSpec)
    (container : Container) : Prop where
  environment : pod.environment = Provider.environment secrets container.env
  directory : ∀ path data, configMapAt spec container path = some data →
    ∃ listing, pod.directory path = some listing ∧ listing.Perm (mounted version data)

/-! ## The SDKs -/

/-- what a reaction has subscribed to: the ids of queries, with the texts of their configurations -/
structure Subscribed where
  pubsubName : String
  queries : List (String × String)

/-- the last one set for an id -/
def Subscribed.config (s : Subscribed) (queryId : String) : Option String := s.queries.reverse.lookup queryId

def Pod.pubsubName (pod : Pod) : String := (pod.environment "PubsubName").getD "drasi-pubsub"

def Pod.configDirectory (pod : Pod) : String := (pod.environment "QueryConfigPath").getD "/etc/queries"

/-- `Reaction` with `GetQueryNames` and `GetQueryConfig`; `none` where it throws -/
def DotNet.start (pod : Pod) : Option Subscribed :=
  (pod.directory pod.configDirectory).map fun listing =>
    ⟨pod.pubsubName, listing.filterMap fun entry => entry.file.map fun text => (entry.name, text)⟩

def beginsWithDot (name : String) : Bool := name.toList.head? = some '.'

/-- the names that `start` does not pass over -/
def listed (name : String) : Bool := name ≠ "" && !beginsWithDot name

/-- `start` of the JavaScript SDK; `none` where the process exits -/
def JavaScript.start (pod : Pod) : Option Subscribed := do
  let listing ← pod.directory pod.configDirectory
  let queries ← (listing.filter fun entry => listed entry.name).mapM fun entry =>
    entry.file.map fun text => (entry.name, text)
  return ⟨pod.pubsubName, queries⟩

/-- the name without the last dot and what follows, if there is something before it and after it -/
def stem (name : String) : String :=
  let suffix := name.toList.reverse.takeWhile (· ≠ '.')
  let before := ((name.toList.reverse.dropWhile (· ≠ '.')).drop 1).reverse
  if before ≠ [] ∧ suffix ≠ [] then String.ofList before else name

def Python.subscribe (pod : Pod) : Subscribed :=
  match pod.directory pod.configDirectory with
  | some listing =>
    ⟨pod.pubsubName, listing.filterMap fun entry =>
      if beginsWithDot entry.name then none else entry.file.map fun text => (stem entry.name, text)⟩
  | none => ⟨pod.pubsubName, []⟩

/-! ## Topics -/

def topic (queryId : String) : String := queryId ++ "-results"

/-- the component of the reaction takes what is published about the query to it -/
def Hears (spec : BuiltSpec) (subscribed : Subscribed) (queryId : String) : Prop :=
  (spec.pubSub.bind fun component => component.metadata.name) = some subscribed.pubsubName ∧
    topic queryId ∈ subscribed.queries.map fun q => topic q.1

theorem topic_injective : Function.Injective topic := by
  intro a b h
  have hlist : a.toList ++ "-results".toList = b.toList ++ "-results".toList := by
    rw [← String.toList_append, ← String.toList_append]
    exact congrArg String.toList h
  exact String.toList_injective (List.append_cancel_right hlist)

theorem hears_iff {spec : BuiltSpec} {subscribed : Subscribed} {queryId : String}
    (h : (spec.pubSub.bind fun component => component.metadata.name) = some subscribed.pubsubName) :
    Hears spec subscribed queryId ↔ queryId ∈ subscribed.queries.map Prod.fst := by
  have hmap : subscribed.queries.map (fun q => topic q.1) = (subscribed.queries.map Prod.fst).map topic := by
    rw [List.map_map]
    rfl
  rw [Hears, hmap, List.mem_map_of_injective topic_injective]
  exact ⟨fun hears => hears.2, fun hmem => ⟨h, hmem⟩⟩

/-! ## Stems -/

theorem split_dot {l : List Char} (h : (l.dropWhile (· ≠ '.')).drop 1 ≠ []) :
    l = l.takeWhile (· ≠ '.') ++ '.' :: (l.dropWhile (· ≠ '.')).drop 1 := by
  induction l with
  | nil => exact absurd rfl h
  | cons c l ih =>
    by_cases hc : c = '.'
    · simp [hc]
    · simp only [List.dropWhile_cons, List.takeWhile_cons, ne_eq, hc, not_false_eq_true, decide_true, if_true] at h ⊢
      exact congrArg (c :: ·) (ih h)

theorem stem_cases (name : String) : stem name = name ∨
    (stem name).toList ≠ [] ∧ ∃ suffix ≠ [], name.toList = (stem name).toList ++ '.' :: suffix := by
  by_cases h : ((name.toList.reverse.dropWhile (· ≠ '.')).drop 1).reverse ≠ [] ∧
      name.toList.reverse.takeWhile (· ≠ '.') ≠ []
  · right
    have hstem : (stem name).toList = ((name.toList.reverse.dropWhile (· ≠ '.')).drop 1).reverse := by
      rw [stem, if_pos h, String.toList_ofList]
    refine ⟨hstem ▸ h.1, (name.toList.reverse.takeWhile (· ≠ '.')).reverse,
      fun hnil => h.2 (List.reverse_eq_nil_iff.1 hnil), ?_⟩
    have hsplit := congrArg List.reverse (split_dot fun hnil => h.1 (by rw [hnil]; rfl))
    rwa [List.reverse_reverse, List.reverse_append, List.reverse_cons, ← hstem, List.append_assoc] at hsplit
  · left
    rw [stem, if_neg h]

theorem beginsWithDot_stem (name : String) : beginsWithDot (stem name) = beginsWithDot name := by
  rcases stem_cases name with h | ⟨hne, suffix, -, h⟩
  · rw [h]
  · obtain ⟨c, rest, hcons⟩ := List.exists_cons_of_ne_nil hne
    rw [beginsWithDot, beginsWithDot, h, hcons]
    rfl

theorem length_stem_lt {name : String} (h : stem name ≠ name) : (stem name).toList.length < name.toList.length := by
  obtain ⟨-, suffix, -, hname⟩ := (stem_cases name).resolve_left h
  rw [hname, List.length_append, List.length_cons]
  omega

/-- **The stems of names are the names themselves** exactly when no name is hidden and none has a suffix. -/
theorem python_exact_iff (names : List String) :
    (∀ queryId, (∃ name ∈ names, beginsWithDot name = false ∧ stem name = queryId) ↔ queryId ∈ names) ↔
      ∀ name ∈ names, beginsWithDot name = false ∧ stem name = name := by
  refine ⟨fun h => ?_, fun h queryId => ⟨?_, fun hmem => ⟨queryId, hmem, h queryId hmem⟩⟩⟩
  · have hvisible : ∀ name ∈ names, beginsWithDot name = false := by
      intro name hname
      obtain ⟨longer, -, hlonger, rfl⟩ := (h name).2 hname
      rw [beginsWithDot_stem, hlonger]
    have hstem : ∀ name ∈ names, stem name = name := by
      by_contra hnot
      push Not at hnot
      obtain ⟨some', hsome, hcut⟩ := hnot
      -- the longest name with a suffix is the stem of a longer one
      obtain ⟨name, hname, hlongest⟩ := (names.toFinset.filter fun name => stem name ≠ name).exists_max_image
        (fun name => name.toList.length) ⟨some', by simp [hsome, hcut]⟩
      obtain ⟨hmem, hne⟩ := Finset.mem_filter.1 hname
      obtain ⟨longer, hlonger, -, hstem⟩ := (h name).2 (List.mem_toFinset.1 hmem)
      have hcut' : stem longer ≠ longer := by
        intro heq
        rw [heq] at hstem
        exact hne (hstem ▸ heq)
      have hle := hlongest longer (Finset.mem_filter.2 ⟨List.mem_toFinset.2 hlonger, hcut'⟩)
      have hlt := length_stem_lt hcut'
      rw [hstem] at hlt
      omega
    exact fun name hname => ⟨hvisible name hname, hstem name hname⟩
  · rintro ⟨name, hname, -, rfl⟩
    rw [(h name hname).2]
    exact hname

/-! ## The objects of a reaction -/

theorem volumes_mapPod {f : PodTemplate → PodTemplate} (hf : ∀ pod, (f pod).volumes = pod.volumes) (spec : BuiltSpec) :
    volumes (spec.mapPod f).deployment.rest = volumes spec.deployment.rest := by
  unfold BuiltSpec.mapPod
  split
  · next replicas template hrest => simp [volumes, hrest, hf]
  · rfl

theorem volumes_identified {spec spec' : BuiltSpec} {identity : Option ServiceIdentity}
    (h : identified identity spec = some spec') : volumes spec'.deployment.rest = volumes spec.deployment.rest := by
  cases identity with
  | none =>
    cases h
    rfl
  | some identity =>
    obtain ⟨marked, hmarked, rfl⟩ := Option.map_eq_some_iff.1 h
    have haccount : volumes spec.withServiceAccount.deployment.rest = volumes spec.deployment.rest := by
      unfold BuiltSpec.withServiceAccount
      split
      · rfl
      · refine (volumes_mapPod ?_ _).trans rfl
        exact fun _ => rfl
    refine (volumes_mapPod ?_ _).trans (Eq.trans ?_ haccount)
    · exact fun _ => rfl
    unfold BuiltSpec.markIdentity at hmarked
    split at hmarked
    · cases hmarked
      refine (volumes_mapPod ?_ _).trans rfl
      exact fun _ => rfl
    · cases hmarked
      rfl
    · cases hmarked
    · cases hmarked
      rfl

section

variable {config : BuilderConfig} {calcHash : ReactionSpec → String} {instanceId id : String} {reaction : ReactionSpec}
  {entry : Σ _ : String, Service} {spec : BuiltSpec} {container : Container}

/-- the queries are the config map of the container, and its component is the reaction's -/
theorem configMapAt_build
    (h : ReactionSpecBuilder.buildService config calcHash instanceId id reaction entry = some spec)
    (hcontainer : spec.containers = [container]) :
    configMapAt spec container "/etc/queries" = some (sorted reaction.queries) ∧
      (spec.pubSub.bind fun component => component.metadata.name) = some ("drasi-pubsub-" ++ id) := by
  obtain ⟨-, container', hcontainer', -, hmounts⟩ := ReactionSpecBuilder.buildService_container h
  obtain rfl : container = container' := List.singleton_inj.1 (hcontainer.symm.trans hcontainer')
  obtain ⟨appPort, -, h⟩ := Option.bind_eq_some_iff.1 h
  obtain ⟨exposed, -, h⟩ := Option.bind_eq_some_iff.1 h
  obtain ⟨replica, -, h⟩ := Option.bind_eq_some_iff.1 h
  have hvolumes := volumes_identified h
  obtain ⟨deployment, account, hspec⟩ := identified_objects h
  have hmaps : spec.configMaps = [(id ++ "-" ++ entry.1 ++ "-queries",
      ⟨⟨some (id ++ "-" ++ entry.1 ++ "-queries"), drasiLabels .reaction id entry.1, none⟩,
        .configMap (some (sorted reaction.queries)) .empty⟩)] := by rw [hspec]
  have hvolume : volumes spec.deployment.rest = [.configMap (id ++ "-" ++ entry.1 ++ "-queries")] := by
    rw [hvolumes]
    simp [volumes, buildDeploymentSpec, sorted, sortEntries]
  refine ⟨?_, by rw [hspec]; rfl⟩
  simp [configMapAt, hmounts, hvolume, hmaps, configMapOf]

theorem lookup_identity (identity : ServiceIdentity) : identity.envVars.lookup "QueryConfigPath" = none := by
  have hinsert : ∀ {env : StrMap ConfigValue} {name : String} (value : ConfigValue), "QueryConfigPath" ≠ name →
      env.lookup "QueryConfigPath" = none → (env.insert name value).lookup "QueryConfigPath" = none :=
    fun value hname henv => (AList.lookup_insert_ne hname).trans henv
  cases identity with
  | microsoftEntraWorkloadID clientId => rfl
  | microsoftEntraApplication tenantId clientId secret certificate =>
    have hids : (((∅ : StrMap ConfigValue).insert "AZURE_TENANT_ID" tenantId).insert "AZURE_CLIENT_ID" clientId).lookup
        "QueryConfigPath" = none := hinsert clientId (by decide) (hinsert tenantId (by decide) rfl)
    cases secret with
    | none =>
      cases certificate with
      | none => exact hids
      | some certificate => exact hinsert certificate (by decide) hids
    | some secret =>
      have hsecret := hinsert secret (show "QueryConfigPath" ≠ "AZURE_CLIENT_SECRET" by decide) hids
      cases certificate with
      | none => exact hsecret
      | some certificate => exact hinsert certificate (by decide) hsecret
  | connectionString value => exact hinsert value (by decide) rfl
  | accessKey value => exact hinsert value (by decide) rfl
  | awsIamRole roleArn => exact hinsert _ (by decide) (hinsert roleArn (by decide) rfl)
  | awsIamAccessKey accessKeyId secretAccessKey awsRegion =>
    exact hinsert awsRegion (by decide) (hinsert secretAccessKey (by decide) (hinsert accessKeyId (by decide) rfl))

theorem environment_identity (secrets : String → String → String) (identity : Option ServiceIdentity) :
    Provider.environment secrets (identityVars identity) "QueryConfigPath" = none := by
  cases identity with
  | none => rfl
  | some identity =>
    have hvars := environment_mapEnvVars secrets identity.envVars "QueryConfigPath"
    rw [lookup_identity] at hvars
    rw [identityVars, Provider.environment, List.find?_cons_of_neg (by simp)]
    exact hvars

theorem environment_append (secrets : String → String → String) (vars vars' : List EnvVar) (name : String) :
    Provider.environment secrets (vars ++ vars') name =
      (Provider.environment secrets vars name).or (Provider.environment secrets vars' name) := by
  rw [Provider.environment, List.find?_append, Provider.environment, Provider.environment]
  cases vars.find? fun v => v.name = name <;> rfl

/-- the variables that the SDKs read -/
theorem environment_build (secrets : String → String → String)
    (h : ReactionSpecBuilder.buildService config calcHash instanceId id reaction entry = some spec)
    (hcontainer : spec.containers = [container])
    (hpath : (reaction.properties.getD ∅).lookup "QueryConfigPath" = none) :
    Provider.environment secrets container.env "PubsubName" = some ("drasi-pubsub-" ++ id) ∧
      Provider.environment secrets container.env "QueryConfigPath" = none := by
  obtain ⟨-, container', hcontainer', henv, -⟩ := ReactionSpecBuilder.buildService_container h
  obtain rfl : container = container' := List.singleton_inj.1 (hcontainer.symm.trans hcontainer')
  rw [henv]
  refine ⟨?_, ?_⟩
  · rw [environment_append, environment_mapEnvVars, ReactionSpecBuilder.env, AList.lookup_insert]
    rfl
  · have hlookup : (ReactionSpecBuilder.env calcHash instanceId id reaction).lookup "QueryConfigPath" = none := by
      rw [ReactionSpecBuilder.env, AList.lookup_insert_ne (by decide), AList.lookup_insert_ne (by decide),
        AList.lookup_insert_ne (by decide), hpath]
    rw [environment_append, environment_mapEnvVars, hlookup, environment_identity]
    rfl

/-- what the SDKs find in the pod of a service -/
theorem Pod.Runs.finds {pod : Pod} {secrets : String → String → String} {version : String}
    (hpod : pod.Runs secrets version spec container)
    (h : ReactionSpecBuilder.buildService config calcHash instanceId id reaction entry = some spec)
    (hcontainer : spec.containers = [container])
    (hpath : (reaction.properties.getD ∅).lookup "QueryConfigPath" = none) :
    pod.pubsubName = "drasi-pubsub-" ++ id ∧
      ∃ listing, pod.directory pod.configDirectory = some listing ∧
        listing.Perm (mounted version (sorted reaction.queries)) := by
  obtain ⟨hpubsub, hconfig⟩ := environment_build secrets h hcontainer hpath
  rw [← hpod.environment] at hpubsub hconfig
  obtain ⟨listing, hlisting, hperm⟩ := hpod.directory _ _ (configMapAt_build h hcontainer).1
  refine ⟨by rw [Pod.pubsubName, hpubsub]; rfl, listing, ?_, hperm⟩
  rw [Pod.configDirectory, hconfig]
  exact hlisting

/-! ## What an SDK makes of the directory -/

/-- an id whose stem is itself, and that is not hidden -/
def PlainName (name : String) : Prop := beginsWithDot name = false ∧ stem name = name

theorem mem_keys_sorted {V : Type} {m : StrMap V} {key : String} : key ∈ (sorted m).map Prod.fst ↔ key ∈ m := by
  rw [← AList.lookup_isSome, Option.isSome_iff_exists, List.mem_map]
  refine ⟨?_, ?_⟩
  · rintro ⟨e, he, rfl⟩
    exact ⟨e.2, mem_sorted he⟩
  · rintro ⟨value, h⟩
    exact ⟨(key, value), mem_sorted_iff.2 h, rfl⟩

/-- a part of the entries of a map, in any order, has the values of the map -/
theorem config_of_perm {pubsubName : String} {m : StrMap String} {queries : List (String × String)}
    {part : String × String → Bool} (h : queries.Perm ((sorted m).filter part)) {queryId : String}
    (hpart : ∀ text, part (queryId, text) = true) : (Subscribed.mk pubsubName queries).config queryId = m.lookup queryId := by
  have hnodup : (queries.reverse.map Prod.fst).Nodup := by
    rw [((queries.reverse_perm.trans h).map Prod.fst).nodup_iff]
    exact (nodup_keys_sorted m).sublist (List.filter_sublist.map _)
  refine Option.ext fun text => ?_
  rw [Subscribed.config, FileTree.Tree.lookup_iff_mem hnodup, List.mem_reverse, h.mem_iff, List.mem_filter, mem_sorted_iff]
  exact and_iff_left (hpart text)

theorem mapM_file {β : Type} (f : Entry → String → β) {listing : List Entry} (h : ∀ e ∈ listing, e.file ≠ none) :
    (listing.mapM fun e => e.file.map (f e)) = some (listing.filterMap fun e => e.file.map (f e)) := by
  induction listing with
  | nil => rfl
  | cons e listing ih =>
    obtain ⟨text, htext⟩ := Option.ne_none_iff_exists'.1 (h e List.mem_cons_self)
    rw [List.mapM_cons, ih fun e' he' => h e' (List.mem_cons_of_mem _ he'), List.filterMap_cons, htext]
    rfl

theorem filterMap_mounted {β : Type} (version : String) (data : Entries) (f : String → Option String → Option β)
    (hf : ∀ name, f name none = none) :
    (mounted version data).filterMap (fun e => f e.name e.file) = data.filterMap fun e => f e.1 (some e.2) := by
  rw [mounted, List.filterMap_cons, List.filterMap_cons, hf, hf, List.filterMap_map]
  rfl

/-! ### Each SDK -/

/-- a service of a reaction that runs in a pod, without a directory of its own -/
structure Deployed (config : BuilderConfig) (calcHash : ReactionSpec → String) (instanceId id : String)
    (reaction : ReactionSpec) (entry : Σ _ : String, Service) (secrets : String → String → String) (version : String)
    (spec : BuiltSpec) (pod : Pod) : Prop where
  built : ReactionSpecBuilder.buildService config calcHash instanceId id reaction entry = some spec
  runs : ∃ container, spec.containers = [container] ∧ pod.Runs secrets version spec container
  path : (reaction.properties.getD ∅).lookup "QueryConfigPath" = none

variable {secrets : String → String → String} {version : String} {pod : Pod}

theorem Deployed.finds (h : Deployed config calcHash instanceId id reaction entry secrets version spec pod) :
    (spec.pubSub.bind fun component => component.metadata.name) = some pod.pubsubName ∧
      ∃ listing, pod.directory pod.configDirectory = some listing ∧
        listing.Perm (mounted version (sorted reaction.queries)) := by
  obtain ⟨container, hcontainer, hpod⟩ := h.runs
  obtain ⟨hpubsub, hlisting⟩ := hpod.finds h.built hcontainer h.path
  exact ⟨hpubsub ▸ (configMapAt_build h.built hcontainer).2, hlisting⟩

theorem dotNet_hears (h : Deployed config calcHash instanceId id reaction entry secrets version spec pod) :
    ∃ subscribed, DotNet.start pod = some subscribed ∧
      (∀ queryId, Hears spec subscribed queryId ↔ queryId ∈ reaction.queries) ∧
      ∀ queryId, subscribed.config queryId = reaction.queries.lookup queryId := by
  obtain ⟨hname, listing, hlisting, hperm⟩ := h.finds
  have hqueries := hperm.filterMap fun entry => entry.file.map fun text => (entry.name, text)
  rw [filterMap_mounted version _ (fun name file => file.map fun text => (name, text)) fun _ => rfl] at hqueries
  have hall : ((sorted reaction.queries).filterMap fun e => (some e.2).map fun text => (e.1, text)) =
      (sorted reaction.queries).filter fun _ => true := by simp
  rw [hall] at hqueries
  refine ⟨_, by rw [DotNet.start, hlisting, Option.map_some], fun queryId => ?_, fun queryId => ?_⟩
  · rw [hears_iff hname, (hqueries.map Prod.fst).mem_iff, List.filter_true, mem_keys_sorted]
  · exact config_of_perm hqueries fun _ => rfl

theorem filterMap_part (data : Entries) (part : String → Bool) :
    (data.filterMap fun e => if part e.1 then (some e.2).map fun text => (e.1, text) else none) =
      data.filter fun e => part e.1 := by
  rw [← List.filterMap_eq_filter]
  refine List.filterMap_congr fun e _ => ?_
  by_cases h : part e.1 <;> simp [h, Option.guard]

theorem javaScript_hears (h : Deployed config calcHash instanceId id reaction entry secrets version spec pod) :
    ∃ subscribed, JavaScript.start pod = some subscribed ∧ ∀ queryId,
      (Hears spec subscribed queryId ↔ queryId ∈ reaction.queries ∧ listed queryId = true) ∧
      (Hears spec subscribed queryId → subscribed.config queryId = reaction.queries.lookup queryId) := by
  obtain ⟨hname, listing, hlisting, hperm⟩ := h.finds
  have hfiles : ∀ e ∈ listing.filter (fun entry => listed entry.name), e.file ≠ none := by
    intro e he
    obtain ⟨hmem, hlisted⟩ := List.mem_filter.1 he
    rcases List.mem_cons.1 (hperm.mem_iff.1 hmem) with rfl | hmem
    · have hdot : beginsWithDot (".." ++ version) = true := by simp [beginsWithDot]
      simp [listed, hdot] at hlisted
    · rcases List.mem_cons.1 hmem with rfl | hmem
      · cases hlisted
      · obtain ⟨e', -, rfl⟩ := List.mem_map.1 hmem
        exact Option.some_ne_none _
  have hqueries := hperm.filterMap fun entry =>
    if listed entry.name then entry.file.map fun text => (entry.name, text) else none
  rw [filterMap_mounted version _ (fun name file => if listed name then file.map fun text => (name, text) else none)
    fun name => by split <;> rfl, filterMap_part] at hqueries
  have hmap := mapM_file (fun entry text => (entry.name, text)) hfiles
  rw [List.filterMap_filter] at hmap
  refine ⟨_, by rw [JavaScript.start, hlisting, Option.bind_eq_bind, Option.bind_some, hmap]; rfl, fun queryId => ?_⟩
  have hhears : queryId ∈ ((sorted reaction.queries).filter fun e => listed e.1).map Prod.fst ↔
      queryId ∈ reaction.queries ∧ listed queryId = true := by
    rw [← mem_keys_sorted, List.mem_map, List.mem_map]
    refine ⟨?_, ?_⟩
    · rintro ⟨e, he, rfl⟩
      exact ⟨⟨e, (List.mem_filter.1 he).1, rfl⟩, (List.mem_filter.1 he).2⟩
    · rintro ⟨⟨e, he, rfl⟩, hlisted⟩
      exact ⟨e, List.mem_filter.2 ⟨he, hlisted⟩, rfl⟩
  rw [hears_iff hname, (hqueries.map Prod.fst).mem_iff, hhears]
  exact ⟨Iff.rfl, fun hmem => config_of_perm hqueries fun _ => hmem.2⟩

/-- what Python subscribes to -/
theorem python_queries (h : Deployed config calcHash instanceId id reaction entry secrets version spec pod) :
    (spec.pubSub.bind fun component => component.metadata.name) = some (Python.subscribe pod).pubsubName ∧
      (Python.subscribe pod).queries.Perm ((sorted reaction.queries).filterMap fun e =>
        if beginsWithDot e.1 then none else some (stem e.1, e.2)) := by
  obtain ⟨hname, listing, hlisting, hperm⟩ := h.finds
  have hqueries := hperm.filterMap fun entry =>
    if beginsWithDot entry.name then none else entry.file.map fun text => (stem entry.name, text)
  rw [filterMap_mounted version _ (fun name file =>
    if beginsWithDot name then none else file.map fun text => (stem name, text)) fun name => by split <;> rfl] at hqueries
  rw [Python.subscribe, hlisting]
  exact ⟨hname, hqueries⟩

theorem python_hears (h : Deployed config calcHash instanceId id reaction entry secrets version spec pod) (queryId : String) :
    Hears spec (Python.subscribe pod) queryId ↔
      ∃ name ∈ reaction.queries, beginsWithDot name = false ∧ stem name = queryId := by
  obtain ⟨hname, hqueries⟩ := python_queries h
  rw [hears_iff hname, (hqueries.map Prod.fst).mem_iff, List.mem_map]
  refine ⟨?_, ?_⟩
  · rintro ⟨q, hq, rfl⟩
    obtain ⟨e, he, hsome⟩ := List.mem_filterMap.1 hq
    split at hsome
    · cases hsome
    · next hdot =>
      rw [← Option.some.inj hsome]
      exact ⟨e.1, mem_keys_sorted.1 (List.mem_map_of_mem he), Bool.eq_false_iff.2 hdot, rfl⟩
  · rintro ⟨name, hmem, hdot, rfl⟩
    obtain ⟨e, he, rfl⟩ := List.mem_map.1 (mem_keys_sorted.2 hmem)
    exact ⟨(stem e.1, e.2), List.mem_filterMap.2 ⟨e, he, by rw [hdot]; rfl⟩, rfl⟩

theorem python_config (h : Deployed config calcHash instanceId id reaction entry secrets version spec pod)
    (hplain : ∀ name ∈ reaction.queries, PlainName name) (queryId : String) :
    (Python.subscribe pod).config queryId = reaction.queries.lookup queryId := by
  obtain ⟨-, hqueries⟩ := python_queries h
  have hall : ((sorted reaction.queries).filterMap fun e => if beginsWithDot e.1 then none else some (stem e.1, e.2)) =
      (sorted reaction.queries).filter fun _ => true := by
    rw [List.filter_true]
    refine (List.filterMap_congr fun e he => ?_).trans List.filterMap_some
    obtain ⟨hdot, hstem⟩ := hplain e.1 (mem_keys_sorted.1 (List.mem_map_of_mem he))
    rw [hdot, hstem]
    rfl
  rw [hall] at hqueries
  exact config_of_perm hqueries fun _ => rfl

/-! ### All three -/

end

/-! ## A query with a dot in its id -/

/-- two queries, one of them with a dot in its id -/
def dottedReaction : ReactionSpec where
  kind := "Debug"
  tag := none
  services := some (AList.singleton "reaction" ⟨none, "reaction-debug", none, none, none, none⟩)
  properties := none
  queries := (AList.singleton "alerts.v2" "level: high").insert "rooms" ""
  identity := none

/-- a pod that lists the entries in the order of the keys -/
def Pod.of (secrets : String → String → String) (version : String) (spec : BuiltSpec) (container : Container) : Pod where
  environment := Provider.environment secrets container.env
  directory path := (configMapAt spec container path).map (mounted version)

theorem Pod.runs_of (secrets : String → String → String) (version : String) (spec : BuiltSpec) (container : Container) :
    (Pod.of secrets version spec container).Runs secrets version spec container :=
  ⟨rfl, fun _ data h => ⟨mounted version data, congrArg (Option.map (mounted version)) h, List.Perm.refl _⟩⟩

end DrasiPlatform.Subscriptions
